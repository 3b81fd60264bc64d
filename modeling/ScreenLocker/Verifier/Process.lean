import ScreenLocker.Channel
import ScreenLocker.Verifier

/-! The verifier as a process at the far ends of a channel. It reads as much of a request as has
arrived and waits for the rest, judges a request that is whole, and writes the reply before it reads
on. When serving fails it is gone, and with it its ends of both pipes. -/

namespace ScreenLocker

/-- How many bytes a reader asks for that has the first bytes of a request: the rest of the header,
then the rest of the credential, unless that is past the limit. -/
def Frame.missing (max : Nat) (taken : Bytes) : Nat :=
  if taken.length < headerLength then headerLength - taken.length
  else
    let length := ofLittleEndian (taken.take headerLength)
    if max < length then 0 else headerLength + length - taken.length

structure VerifierProcess where
  judge : Verifier.Judge
  /-- The buffer of the running process; nothing once it has ended. -/
  credential : Option SecureBuffer
  /-- What has been read of the request under way. -/
  taken : Bytes := []
  /-- The verdict that is still to be written. -/
  owed : Option Verdict := none

namespace VerifierProcess

/-- A process that has just been started. -/
def start (judge : Verifier.Judge) (maxLength : Nat) : VerifierProcess :=
  match SecureBuffer.create (Nat.min Credential.initialLength maxLength) maxLength {} with
  | .ok b => { judge, credential := some b }
  | .error _ => { judge, credential := none }

def stop : Op (Channel × VerifierProcess) Unit :=
  modify fun (ch, v) =>
    ({ ch with requests := ch.requests.closeReader, replies := ch.replies.closeWriter },
      { v with credential := none })

/-- Reads at most `n` bytes of the request under way; says whether there were any. -/
def read (n : Nat) : Op (Channel × VerifierProcess) Bool := do
  let (ch, v) ← get
  match v.credential, v.owed with
  | some credential, none =>
    let piece := ch.requests.queue.take (Nat.min n (Frame.missing credential.max v.taken))
    set
      ({ ch with requests := { ch.requests with queue := ch.requests.queue.drop piece.length } },
        { v with taken := v.taken ++ piece })
    pure (!piece.isEmpty)
  | _, _ => pure false

/-- Judges the request under way if it is whole, or if nothing of it can come any more. -/
def judgeTaken : Op (Channel × VerifierProcess) Bool := do
  let (ch, v) ← get
  match v.credential, v.owed with
  | some credential, none =>
    if Frame.missing credential.max v.taken = 0 ∨
        (ch.requests.queue.isEmpty ∧ !ch.requests.writerOpen) then
      let (r, state) ←
        (Verifier.judgeOne v.judge).run
          { requests := { pending := v.taken }, replies := {}, credential }
      match r with
      | .ok (some verdict) =>
        set (ch, { v with credential := some state.credential, taken := [], owed := some verdict })
      | .ok none => stop
      | .error e =>
        logError .worker ("Password verifier failed: " ++ e.message)
        stop
      pure true
    else pure false
  | _, _ => pure false

/-- Writes the verdict that is owed. -/
def answer : Op (Channel × VerifierProcess) Bool := do
  let (ch, v) ← get
  match v.credential, v.owed with
  | some _, some verdict =>
    let (r, out) ← (Frame.writeVerdict verdict).run ch.replies.writing
    set ({ ch with replies := ch.replies.push out.written }, { v with owed := none })
    match r with
    | .ok () => pure ()
    | .error e =>
      logError .worker ("Password verifier failed: " ++ e.message)
      stop
    pure true
  | _, _ => pure false

/-- Whatever the process can do next; `false` if it has to wait. -/
def advance : Op (Channel × VerifierProcess) Bool := do
  if ← answer then pure true
  else if ← read (← get).1.requests.queue.length then pure true
  else judgeTaken

def advanceUpTo : (n : Nat) → Op (Channel × VerifierProcess) Unit
  | 0 => pure ()
  | n + 1 => do if ← advance then advanceUpTo n

/-- Serves everything that has arrived. Each request takes a header and a body from the queue, a
judgement and a reply. -/
def serve : Op (Channel × VerifierProcess) Unit := do
  advanceUpTo (2 * (← get).1.requests.queue.length + 4)

/-- Submits a credential and waits for its verdict. -/
def ask (credential : Bytes) : Try (Channel × VerifierProcess) (Option Verdict) := do
  (Part.left : Part (Channel × VerifierProcess) Channel).attempt (Channel.submit credential)
  serve
  (Part.left : Part (Channel × VerifierProcess) Channel).attempt Channel.poll

end VerifierProcess

end ScreenLocker
