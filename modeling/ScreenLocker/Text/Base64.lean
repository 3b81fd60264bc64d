/-! Base-64 text without padding. A text is the encoding of at most one byte string: the bits that its last
character has to spare are zero. -/

namespace ScreenLocker.Base64

inductive DecodeError where
  /-- The text stands for more bytes than the reader takes. -/
  | tooLong
  /-- A character outside the alphabet, one character left over, or spare bits that are set. -/
  | malformed
deriving DecidableEq, Repr

/-- The number of bytes that `n` characters stand for. -/
def decodedLength (n : Nat) : Nat := 3 * (n / 4) + 3 * (n % 4) / 4

def digit? (c : Char) : Option Nat :=
  if 'A' ≤ c ∧ c ≤ 'Z' then some (c.toNat - 65)
  else if 'a' ≤ c ∧ c ≤ 'z' then some (c.toNat - 71)
  else if '0' ≤ c ∧ c ≤ '9' then some (c.toNat + 4)
  else if c = '+' then some 62
  else if c = '/' then some 63
  else none

/-- The bytes of a run of digits, four at a time. -/
def ofDigits? : List Nat → Option (List UInt8)
  | [] => some []
  | [_] => none
  | [a, b] => if b % 16 = 0 then some [.ofNat (a * 4 + b / 16)] else none
  | [a, b, c] =>
    if c % 4 = 0 then some [.ofNat (a * 4 + b / 16), .ofNat (b % 16 * 16 + c / 4)] else none
  | a :: b :: c :: d :: rest =>
    (ofDigits? rest).map
      ([.ofNat (a * 4 + b / 16), .ofNat (b % 16 * 16 + c / 4), .ofNat (c % 4 * 64 + d)] ++ ·)

/-- The bytes of a text that stands for at most `limit` of them. -/
def decode (limit : Nat) (text : String) : Except DecodeError (List UInt8) :=
  if limit < decodedLength text.utf8ByteSize then .error .tooLong
  else match (text.toList.mapM digit?).bind ofDigits? with
    | some bytes => .ok bytes
    | none => .error .malformed

end ScreenLocker.Base64
