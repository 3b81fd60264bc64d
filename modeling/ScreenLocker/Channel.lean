import ScreenLocker.Auth
import ScreenLocker.Pipe

/-! The locker's side of the two pipes to the verifier. Requests go out on one, and single verdict bytes come
back on the other, which is read without waiting. The end of the replies is a crash, never an answer. -/

namespace ScreenLocker

structure Channel where
  requests : Pipe := {}
  replies : Pipe := {}
  /-- The verifier's process, while it has not been waited for. -/
  child : Option Nat := none
deriving Repr

namespace Channel

def submit (credential : Bytes) : Try Channel Unit := do
  let ch ← get
  if !ch.requests.writerOpen then throw (.authChannelCrash "request pipe already closed")
  let (r, out) ← (Frame.write credential).run ch.requests.writing
  set { ch with requests := ch.requests.push out.written }
  match r with
  | .ok () => pure ()
  | .error (.io f) =>
    if f.isBrokenPipe then throw (.authChannelCrash "verifier stopped reading requests") else throw (.io f)
  | .error e => throw e

instance : CredentialSink Channel := ⟨submit⟩

/-- Reads of a reply that go on while they are interrupted. -/
def readReply : List Fault → Pipe → Except Fault (Option UInt8) × Pipe
  | [], p => { p with faults := [] }.readByte
  | f :: rest, p =>
    if f.isInterrupted then readReply rest { p with faults := rest } else (.error f, { p with faults := rest })

/-- At most one verdict; `none` while there is nothing to read. -/
def poll : Try Channel (Option Verdict) := do
  let ch ← get
  let (r, replies) := readReply ch.replies.faults ch.replies
  set { ch with replies }
  match r with
  | .ok none => throw (.authChannelCrash "verifier closed its reply pipe")
  | .ok (some byte) =>
    match Verdict.ofByte byte with
    | .ok v => pure (some v)
    | .error e => throw e
  | .error f => if f.isWouldBlock then pure none else throw (.authChannelCrash f.message)

/-- Closes the requests, so that the verifier sees their end and leaves. -/
def shutdown (ch : Channel) : Channel :=
  { ch with requests := ch.requests.closeWriter, child := none }

end Channel

end ScreenLocker
