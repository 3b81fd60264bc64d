import ScreenLocker.Frame

/-! Entry and judgement of a credential. At most one verification is in flight; what is typed while it is
is dropped, not queued. The buffer is empty and wiped whenever an attempt has ended. -/

namespace ScreenLocker

inductive AuthPhase where
  | idle
  | validating
  | invalid
  | cleared
deriving DecidableEq, Repr

def AuthPhase.name : AuthPhase → String
  | idle => "Idle"
  | validating => "Validating"
  | invalid => "Invalid"
  | cleared => "Cleared"

inductive Input where
  /-- UTF-8 text of a key press. -/
  | insert (bytes : Bytes)
  | backspace
  | clear
  | submit
deriving DecidableEq, Repr

/-- What is left to do after an input or a verdict. -/
inductive AuthOutcome where
  | unchanged
  | redraw
  | unlock
deriving DecidableEq, Repr

/-- Where submitted credentials go. -/
class CredentialSink (σ : Type) where
  submit : Bytes → Try σ Unit

structure Auth where
  phase : AuthPhase := .idle
  /-- Verdicts against the user, held at the largest value of 32 bits. -/
  failedAttempts : Nat := 0
  buffer : SecureBuffer
  ignoreEmpty : Bool

namespace Auth

def storing : Part Auth SecureBuffer where
  get a := a.buffer
  put b a := { a with buffer := b }

def maxFailedAttempts : Nat := UInt32.size - 1

/-- Enters a phase; the phases that end an attempt wipe the buffer. -/
def enter (phase : AuthPhase) : Op Auth AuthOutcome := do
  if phase = .invalid ∨ phase = .cleared then storing.on SecureBuffer.clear
  let old := (← get).phase
  if old = phase then pure .unchanged
  else
    logDebug .authentication ("Auth phase " ++ old.name ++ " -> " ++ phase.name)
    modify fun a => { a with phase }
    pure .redraw

/-- Whether a byte continues a UTF-8 scalar. -/
def isContinuation (b : UInt8) : Bool := b &&& 0xC0 == 0x80

/-- Where the last scalar starts; stray continuation bytes count as part of it. -/
def lastScalarStart (bytes : Bytes) : Nat :=
  (bytes.reverse.dropWhile isContinuation).length - 1

def insert (bytes : Bytes) : Op Auth AuthOutcome := do
  match ← storing.on (SecureBuffer.append bytes).run with
  | .ok () => enter .idle
  | .error (.capacityExceeded max) =>
    logDebug .authentication ("Credential already at " ++ toString max ++ " bytes; key dropped")
    pure .unchanged
  | .error (.pin reason) =>
    logWarn .authentication ("Key dropped: " ++ (BufferError.pin reason).message)
    pure .unchanged

def backspace : Op Auth AuthOutcome := do
  let b := (← get).buffer
  if b.isEmpty then enter .cleared
  else
    storing.on (SecureBuffer.truncate (lastScalarStart b.content))
    if (← get).buffer.isEmpty then enter .cleared else enter .idle

def entry : Part (Auth × S) Auth := Part.left

def sink : Part (Auth × S) S := Part.right

/-- Hands the credential to the sink. The buffer is wiped whether or not the sink took it. -/
def submit [CredentialSink S] : Try (Auth × S) AuthOutcome := do
  let a := (← get).1
  if a.buffer.isEmpty && a.ignoreEmpty then
    logDebug .authentication "Empty credential ignored"
    pure .unchanged
  else
    let sent ← sink.on (CredentialSink.submit a.buffer.content : Try S Unit).run
    entry.on (storing.on SecureBuffer.clear)
    match sent with
    | .error e => throw e
    | .ok () =>
      modify fun (a, s) => ({ a with phase := .validating }, s)
      pure .redraw

def handleInput [CredentialSink S] (event : Input) : Try (Auth × S) AuthOutcome := do
  if (← get).1.phase = .validating then
    logDebug .authentication "Ignoring input while a verification is in flight"
    pure .unchanged
  else
    match event with
    | .insert bytes => entry.on (insert bytes)
    | .backspace => entry.on backspace
    | .clear => entry.on (enter .cleared)
    | .submit => submit

/-- Takes the verdict on the credential in flight; a verdict while none is in flight is an error. -/
def handleVerdict (v : Verdict) : Try Auth AuthOutcome := do
  if (← get).phase ≠ .validating then throw .unexpectedVerdict
  storing.on SecureBuffer.clear
  match v with
  | .success =>
    logDebug .authentication "Credential accepted"
    modify fun a => { a with phase := .idle }
    pure .unlock
  | .failure =>
    modify fun a => { a with failedAttempts := Nat.min (a.failedAttempts + 1) maxFailedAttempts }
    logDebug .authentication
      ("Credential rejected (" ++ toString (← get).failedAttempts ++ " failed attempts)")
    let _ ← enter .invalid
    pure .redraw

end Auth

/-- A sink that keeps what it is given. Failures are armed ahead of time: each lets some submissions pass
and then refuses one, the first armed first. -/
structure SubmissionRecord where
  sent : List Bytes := []
  armed : List (Nat × Error) := []

namespace SubmissionRecord

def arm (skip : Nat) (e : Error) (r : SubmissionRecord) : SubmissionRecord :=
  { r with armed := r.armed ++ [(skip, e)] }

instance : CredentialSink SubmissionRecord where
  submit credential := do
    let r ← get
    match r.armed with
    | (0, e) :: rest =>
      set { r with armed := rest }
      throw e
    | (skip + 1, e) :: rest => set (⟨r.sent ++ [credential], (skip, e) :: rest⟩ : SubmissionRecord)
    | [] => set { r with sent := r.sent ++ [credential] }

end SubmissionRecord

end ScreenLocker
