/-! Decimal numbers on the command line: a sign, digits, and a range. The first fault from the left is the
one that is reported. -/

namespace ScreenLocker.Options

inductive NumberError where
  | empty
  | invalidDigit
  | tooLarge
  | tooSmall
  | outOfRange (n low high : Int)
deriving DecidableEq, Repr

def NumberError.message : NumberError → String
  | empty => "cannot parse integer from empty string"
  | invalidDigit => "invalid digit found in string"
  | tooLarge => "number too large to fit in target type"
  | tooSmall => "number too small to fit in target type"
  | outOfRange n low high => toString n ++ " is not in " ++ toString low ++ "..=" ++ toString high

/-- Reads digits onto `n`, up to the limit. -/
def readDigits (limit : Nat) (past : NumberError) : List Char → (n : Nat) → Except NumberError Nat
  | [], n => .ok n
  | c :: rest, n =>
    if '0' ≤ c ∧ c ≤ '9' then
      let n := 10 * n + (c.toNat - 48)
      if limit < n then .error past else readDigits limit past rest n
    else .error .invalidDigit

def maxWide : Nat := 0x7fffffffffffffff

/-- A number of 64 bits, with its sign. -/
def readWide (text : List Char) : Except NumberError Int :=
  match text with
  | [] => .error .empty
  | ['-'] | ['+'] => .error .invalidDigit
  | '-' :: rest => (readDigits (maxWide + 1) .tooSmall rest 0).map fun n => -n
  | '+' :: rest => (readDigits maxWide .tooLarge rest 0).map fun n => n
  | rest => (readDigits maxWide .tooLarge rest 0).map fun n => n

/-- A number of 32 bits, with its sign. -/
def readInt32 (text : String) : Except NumberError Int := do
  let n ← readWide text.toList
  let low : Int := -0x80000000
  let high : Int := 0x7fffffff
  if low ≤ n ∧ n ≤ high then pure n else throw (.outOfRange n low high)

end ScreenLocker.Options
