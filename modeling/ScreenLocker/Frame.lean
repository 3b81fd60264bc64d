import ScreenLocker.SecureBuffer
import ScreenLocker.Stream

/-! What travels between the locker and its verifier. A request is the length of the credential in four bytes,
lowest first, and the credential; an answer is one byte. -/

namespace ScreenLocker

inductive Verdict where
  | success
  | failure
deriving DecidableEq, Repr

namespace Verdict

def toByte : Verdict → UInt8
  | success => 1
  | failure => 0

/-- Every byte but two is refused: there is no partial or ambiguous verdict. -/
def ofByte (byte : UInt8) : Except Error Verdict :=
  if byte = 1 then .ok success
  else if byte = 0 then .ok failure
  else .error (.malformedVerdict byte)

def name : Verdict → String
  | success => "Success"
  | failure => "Failure"

end Verdict

namespace Frame

/-- The last `width` base-256 digits of `n`, lowest first. -/
def littleEndian : (width : Nat) → (n : Nat) → Bytes
  | 0, _ => []
  | width + 1, n => UInt8.ofNat (n % 256) :: littleEndian width (n / 256)

def ofLittleEndian : Bytes → Nat
  | [] => 0
  | b :: rest => b.toNat + 256 * ofLittleEndian rest

def headerLength : Nat := 4

def header (credential : Bytes) : Bytes := littleEndian headerLength credential.length

/-- The bytes of one request. -/
def encode (credential : Bytes) : Bytes := header credential ++ credential

/-- Passes on the fault that ended a block, if one did. -/
def orFault : Option Fault → Try σ Unit
  | none => pure ()
  | some f => throw (.io f)

/-- Writes one request: header and credential are offered in one call, and what that leaves follows piecewise. -/
def write (credential : Bytes) : Try OutStream Unit := do
  if UInt32.size ≤ credential.length then throw (.process "credential frame too large")
  let header := header credential
  match ← modifyGet (OutStream.writeBoth header credential) with
  | .error fault => throw (.io fault)
  | .ok moved =>
    if moved < header.length then
      orFault (← modifyGet (OutStream.writeAll (header.drop moved)))
      orFault (← modifyGet (OutStream.writeAll credential))
    else
      orFault (← modifyGet (OutStream.writeAll (credential.drop (moved - header.length))))
    orFault (← modifyGet OutStream.flush)

def writeVerdict (v : Verdict) : Try OutStream Unit := do
  orFault (← modifyGet (OutStream.writeAll [v.toByte]))
  orFault (← modifyGet OutStream.flush)

/-- A buffer error as an error of the locker. -/
def lift (x : SecureBuffer.Edit α) : Try SecureBuffer α := x.adapt Error.buffer

def source : Part (InStream × SecureBuffer) InStream := Part.left

def target : Part (InStream × SecureBuffer) SecureBuffer := Part.right

/-- Reads one request into the buffer, in place of its content. The answer is `false` when the stream
ends before a header is complete; a length past the buffer's limit is refused unread. -/
def read : Try (InStream × SecureBuffer) Bool := do
  let (head, fault) ← source.on (modifyGet (InStream.readExactly headerLength))
  match fault with
  | some f => if f.isEndOfStream then pure false else throw (.io f)
  | none =>
    let length := ofLittleEndian head
    let max := (← get).2.max
    if max < length then
      throw (.process ("request frame of " ++ toString length ++ " bytes exceeds limit of " ++ toString max))
    target.on SecureBuffer.clear
    let start ← target.attempt (lift (SecureBuffer.extendZeroed length))
    let (body, fault) ← source.on (modifyGet (InStream.readExactly length))
    target.on (SecureBuffer.fill start body)
    match fault with
    | some f => throw (.io f)
    | none => pure true

end Frame

end ScreenLocker
