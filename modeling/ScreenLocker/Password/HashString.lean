import ScreenLocker.Text.Base64
import ScreenLocker.Text.Blank

/-! A password hash as text: `$algorithm$v=version$name=value,…$salt$output`, where everything after the
algorithm may be missing. Reading checks the form of each field; whether a verifier knows the algorithm and can
work with the rest is not decided here. -/

namespace ScreenLocker

/-- Why a field does not have the form of a value. -/
inductive ValueError where
  | malformed
  | invalidCharacter (c : Char)
  | invalidFormat
  | tooLong
  | tooShort
deriving DecidableEq, Repr

def ValueError.message : ValueError → String
  | malformed => "value malformed"
  | invalidCharacter c => "contains invalid character: '" ++ c.toString ++ "'"
  | invalidFormat => "value format is invalid"
  | tooLong => "value to long"
  | tooShort => "value to short"

inductive HashStringError where
  | missingField
  | trailingData
  | invalidName
  | invalidValue (cause : ValueError)
  | tooManyParameters
  | invalidSalt (cause : ValueError)
  | encoding (cause : Base64.DecodeError)
  | outputTooShort (atLeast : Nat)
deriving DecidableEq, Repr

def HashStringError.message : HashStringError → String
  | missingField => "password hash string missing field"
  | trailingData => "password hash string contains trailing characters"
  | invalidName => "invalid parameter name"
  | invalidValue cause => "invalid parameter value: " ++ cause.message
  | tooManyParameters => "maximum number of parameters reached"
  | invalidSalt cause => "salt invalid: " ++ cause.message
  | encoding .tooLong => "invalid Base64 length"
  | encoding .malformed => "invalid Base64 encoding"
  | outputTooShort n => "output size too short, expected at least " ++ toString n ++ " bytes"

structure HashString where
  algorithm : String
  version : Option Nat
  /-- In the order of the text; a name may come twice. -/
  parameters : List (String × String)
  /-- Encoded, with the encoding not yet checked. -/
  salt : Option String
  output : Option (List UInt8)
deriving DecidableEq, Repr

namespace HashString

def maxNameLength : Nat := 32
def maxValueLength : Nat := 64
def maxParametersLength : Nat := 127
def minSaltLength : Nat := 4
def maxSaltLength : Nat := 64
def minOutputLength : Nat := 10
def maxOutputLength : Nat := 64

def isNameChar (c : Char) : Bool := ('a' ≤ c && c ≤ 'z') || ('0' ≤ c && c ≤ '9') || c == '-'

def isValueChar (c : Char) : Bool :=
  ('a' ≤ c && c ≤ 'z') || ('A' ≤ c && c ≤ 'Z') || ('0' ≤ c && c ≤ '9') || "/+.-".toList.contains c

def readName (field : String) : Except HashStringError String :=
  if 1 ≤ field.utf8ByteSize ∧ field.utf8ByteSize ≤ maxNameLength ∧ field.toList.all isNameChar then .ok field
  else .error .invalidName

/-- Refuses the first character that no value may hold. -/
def checkCharacters (field : String) : Except ValueError Unit :=
  match field.toList.find? (!isValueChar ·) with
  | some c => .error (.invalidCharacter c)
  | none => .ok ()

def readValue (field : String) : Except ValueError String := do
  if maxValueLength < field.utf8ByteSize then throw .tooLong
  checkCharacters field
  pure field

/-- A number of 32 bits, without a sign and without leading zeros. -/
def readNumber (value : String) : Except ValueError Nat :=
  match value.toList with
  | [] => .error .malformed
  | first :: rest =>
    match (first :: rest).find? (!·.isDigit) with
    | some c => .error (.invalidCharacter c)
    | none =>
      let n := (first :: rest).foldl (fun n c => 10 * n + (c.toNat - 48)) 0
      if (first = '0' ∧ rest ≠ []) ∨ UInt32.size ≤ n then .error .invalidFormat else .ok n

def readSalt (field : String) : Except ValueError String := do
  if field.utf8ByteSize < minSaltLength then throw .tooShort
  if maxSaltLength < field.utf8ByteSize then throw .tooLong
  checkCharacters field
  pure field

def readOutput (field : String) : Except HashStringError (List UInt8) :=
  match Base64.decode maxOutputLength field with
  | .error e => .error (.encoding e)
  | .ok bytes => if bytes.length < minOutputLength then .error (.outputTooShort minOutputLength) else .ok bytes

def readParameter (text : String) : Except HashStringError (String × String) := do
  match text.splitOn "=" with
  | name :: rest =>
    let name ← readName name
    match rest with
    | value :: more =>
      let value ← (readValue value).mapError .invalidValue
      if more.isEmpty then pure (name, value) else throw (.invalidValue .malformed)
    | [] => throw (.invalidValue .malformed)
  | [] => throw .invalidName

def readParameters (field : String) : Except HashStringError (List (String × String)) :=
  if maxParametersLength < field.utf8ByteSize then .error .tooManyParameters
  else (field.splitOn ",").mapM readParameter

/-- The version, if the first of the fields holds one, and the fields after it. -/
def readVersion (fields : List String) : Except HashStringError (Option Nat × List String) :=
  match fields with
  | [] => .ok (none, [])
  | field :: rest =>
    match field.toList with
    | 'v' :: '=' :: value =>
      if value.contains ',' then .ok (none, fields)
      else match readValue (String.ofList value) >>= readNumber with
        | .ok version => .ok (some version, rest)
        | .error e => .error (.invalidValue e)
    | _ => .ok (none, fields)

/-- The fields after the algorithm. -/
def readRest (algorithm : String) (fields : List String) : Except HashStringError HashString := do
  let (version, fields) ← readVersion fields
  let (parameters, fields) ← match fields with
    | field :: rest => if field.toList.contains '=' then do pure (← readParameters field, rest) else pure ([], fields)
    | [] => pure ([], [])
  match fields with
  | [] => pure ⟨algorithm, version, parameters, none, none⟩
  | salt :: rest =>
    let salt ← (readSalt salt).mapError .invalidSalt
    match rest with
    | [] => pure ⟨algorithm, version, parameters, some salt, none⟩
    | output :: more =>
      let output ← readOutput output
      if more.isEmpty then pure ⟨algorithm, version, parameters, some salt, some output⟩ else throw .trailingData

/-- Reads a password hash; blanks around it do not count. -/
def parse (text : String) : Except HashStringError HashString :=
  match (String.ofList (Text.trim text.toList)).splitOn "$" with
  | "" :: algorithm :: fields => do readRest (← readName algorithm) fields
  | _ => .error .missingField

end HashString

end ScreenLocker
