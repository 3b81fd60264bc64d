import ScreenLocker.Password.Argon2
import ScreenLocker.Password.HashString
import ScreenLocker.Verifier

/-! The judge that a password hash makes. A hash string that is well formed but asks for what Argon2 does not
offer accepts no credential. -/

namespace ScreenLocker.Password

/-- What a hash string asks for, with the stock cost where it says nothing. -/
structure Demand where
  memory : Nat := 19456
  passes : Nat := 2
  lanes : Nat := 1
  associated : Bytes := []

namespace Demand

def maxKeyLength : Nat := 8
def maxAssociatedLength : Nat := 32

/-- Takes one parameter; of two with one name the later counts. -/
def set (d : Demand) : String × String → Option Demand
  | ("m", value) => (HashString.readNumber value).toOption.map fun n => { d with memory := n }
  | ("t", value) => (HashString.readNumber value).toOption.map fun n => { d with passes := n }
  | ("p", value) => (HashString.readNumber value).toOption.map fun n => { d with lanes := n }
  | ("keyid", value) => (Base64.decode maxKeyLength value).toOption.map fun _ => d
  | ("data", value) => (Base64.decode maxAssociatedLength value).toOption.map fun b => { d with associated := b }
  | _ => none

def maxLanes : Nat := 0xffffff

/-- Whether the cost is one that can be met: each lane has two blocks in each slice. -/
def isFeasible (d : Demand) : Bool :=
  8 ≤ d.memory && 1 ≤ d.passes && 1 ≤ d.lanes && d.lanes ≤ maxLanes && 8 * d.lanes ≤ d.memory

end Demand

def variant? : String → Option Argon2.Variant
  | "argon2d" => some .d
  | "argon2i" => some .i
  | "argon2id" => some .id
  | _ => none

def version? : Option Nat → Option Argon2.Version
  | none => some .v19
  | some 16 => some .v16
  | some 19 => some .v19
  | _ => none

def minSaltLength : Nat := 8

/-- What to compute to check a credential against the hash: parameters, salt and the expected output. -/
def plan? (h : HashString) : Option (Argon2.Parameters × Bytes × Bytes) := do
  let expected ← h.output
  let salt ← (Base64.decode HashString.maxSaltLength (← h.salt)).toOption
  let variant ← variant? h.algorithm
  let version ← version? h.version
  let demand ← h.parameters.foldlM Demand.set {}
  if demand.isFeasible && minSaltLength ≤ salt.length then
    some
      ({ variant, version, memory := demand.memory, passes := demand.passes, lanes := demand.lanes
         outputLength := expected.length, associated := demand.associated },
        salt, expected)
  else none

/-- Accepts the credentials whose hash is the given one. -/
def judge (h : HashString) : Verifier.Judge := fun credential =>
  match plan? h with
  | some (parameters, salt, expected) => Argon2.hash parameters credential salt == expected
  | none => false

/-- The judge that a text makes. -/
def judgeOf (text : String) : Except Error Verifier.Judge :=
  match HashString.parse text with
  | .ok h => .ok (judge h)
  | .error e => .error (.config ("Invalid password hash: " ++ e.message))

end ScreenLocker.Password
