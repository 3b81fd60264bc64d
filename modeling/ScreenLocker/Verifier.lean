import ScreenLocker.Frame

/-! The verifier process: it reads requests until the stream ends and answers each with one byte. The
credential is wiped before its verdict is written. -/

namespace ScreenLocker.Verifier

/-- Decides whether a credential unlocks the session. -/
abbrev Judge := Bytes → Bool

/-- Something that the verifier did, with the answers it met. -/
inductive Act where
  /-- It asked for its buffer. -/
  | opened (pins : List Nat) (result : Except Error Unit)
  /-- It tried to read a request, and took so much of the stream. -/
  | read (taken : Bytes) (calls : List Move) (pins : List Nat) (result : Except Error Bool)
  | judged (credential : Bytes)
  /-- It replied; `storage` is what its buffer held the while. -/
  | replied (storage written : Bytes) (calls : List Move) (flushes : List (Option Fault))
      (result : Except Error Unit)

/-- The credential that an act shows to the judge. -/
def Act.credential? : Act → Option Bytes
  | judged credential => some credential
  | _ => none

structure State where
  requests : InStream
  replies : OutStream
  credential : SecureBuffer
  /-- What was done so far, oldest first. -/
  acts : List Act := []

/-- What is gone from the front of a list. -/
def spent (before after : List α) : List α := before.take (before.length - after.length)

namespace Act

def ofOpening (before after : Memory) (result : Except Error Unit) : Act :=
  opened (spent before.answers after.answers) result

def ofRead (before after : State) (result : Except Error Bool) : Act :=
  read (spent before.requests.pending after.requests.pending)
    (spent before.requests.script after.requests.script)
    (spent before.credential.memory.answers after.credential.memory.answers) result

def ofReply (before after : State) (result : Except Error Unit) : Act :=
  replied before.credential.storage (after.replies.written.drop before.replies.written.length)
    (spent before.replies.script after.replies.script)
    (spent before.replies.flushes after.replies.flushes) result

end Act

def State.note (act : Act) (s : State) : State := { s with acts := s.acts ++ [act] }

/-- Does `x` and notes it as what the states around it show. -/
def noting (act : State → State → Except Error α → Act) (x : Try State α) : Try State α :=
  ExceptT.mk do
    let before ← get
    let result ← x.run
    modify fun after => after.note (act before after result)
    pure result

def State.reading : Part State (InStream × SecureBuffer) where
  get s := (s.requests, s.credential)
  put t s := { s with requests := t.1, credential := t.2 }

def State.answering : Part State OutStream where
  get s := s.replies
  put t s := { s with replies := t }

def State.storing : Part State SecureBuffer where
  get s := s.credential
  put t s := { s with credential := t }

/-- Reads one request and judges it; nothing at the end of the stream. -/
def judgeOne (judge : Judge) : Try State (Option Verdict) := do
  if ← noting Act.ofRead (State.reading.attempt Frame.read) then
    let credential := (← get).credential.content
    let verdict := if judge credential then Verdict.success else Verdict.failure
    modify (State.note (.judged credential))
    State.storing.on SecureBuffer.clear
    logDebug .worker ("Verifier answering " ++ verdict.name)
    pure (some verdict)
  else
    logDebug .worker "Request stream closed; verifier exiting"
    pure none

/-- Serves one request; `false` at the end of the stream. -/
def serveOne (judge : Judge) : Try State Bool := do
  match ← judgeOne judge with
  | some verdict =>
    noting Act.ofReply (State.answering.attempt (Frame.writeVerdict verdict))
    pure true
  | none => pure false

/-- Serves at most `n` requests. -/
def serveUpTo (judge : Judge) : (n : Nat) → Try State Unit
  | 0 => pure ()
  | n + 1 => do if ← serveOne judge then serveUpTo judge n

/-- What a verifier leaves behind: the state of its streams, and memory without its buffer. -/
structure Outcome where
  result : Except Error Unit
  requests : InStream
  replies : OutStream
  acts : List Act
  memory : Memory

/-- The credentials that were judged, oldest first. -/
def Outcome.seen (o : Outcome) : List Bytes := o.acts.filterMap Act.credential?

/-- Serves requests until the stream ends or an operation fails. A request takes at least a header, so the
length of the stream bounds their number. -/
def serve (judge : Judge) (maxLength : Nat) (requests : InStream) (replies : OutStream) (memory : Memory) :
    Logged Outcome := do
  match SecureBuffer.create (Nat.min Credential.initialLength maxLength) maxLength memory with
  | .error (e, left) =>
    let refused := Act.ofOpening memory left (.error (.buffer e))
    pure ⟨.error (.buffer e), requests, replies, [refused], left⟩
  | .ok credential =>
    let opened := Act.ofOpening memory credential.memory (.ok ())
    let (result, s) ← (serveUpTo judge (requests.pending.length + 1)).run
      { requests, replies, credential, acts := [opened] }
    pure ⟨result, s.requests, s.replies, s.acts, s.credential.drop⟩

end ScreenLocker.Verifier
