import ScreenLocker.Password.Blake2b

/-! A block of memory: 1024 bytes as eight rows of sixteen words, and the function that makes a new block of two
others. -/

namespace ScreenLocker

structure Block where
  r0 : Row
  r1 : Row
  r2 : Row
  r3 : Row
  r4 : Row
  r5 : Row
  r6 : Row
  r7 : Row
deriving DecidableEq, Repr

namespace Block

/-- The length in bytes. -/
def length : Nat := 1024

/-- The length in words. -/
def wordCount : Nat := 128

def zero : Block := ⟨.zero, .zero, .zero, .zero, .zero, .zero, .zero, .zero⟩

instance : Inhabited Block := ⟨zero⟩

/-- The block of 128 words numbered from 0. -/
def ofWords (f : Nat → UInt64) : Block :=
  let row (i : Nat) : Row := .ofWords fun j => f (16 * i + j)
  ⟨row 0, row 1, row 2, row 3, row 4, row 5, row 6, row 7⟩

def rows (b : Block) : List Row := [b.r0, b.r1, b.r2, b.r3, b.r4, b.r5, b.r6, b.r7]

def ofBytes (bytes : Bytes) : Block :=
  let words := (List.range wordCount).toArray.map fun i => Blake2b.wordOf (bytes.drop (8 * i))
  ofWords fun i => words.getD i 0

def bytes (b : Block) : Bytes := b.rows.flatMap fun r => r.words.flatMap Blake2b.bytesOf

/-- The row numbered `i`; the last one when there is none. -/
def row (b : Block) : (i : Nat) → Row
  | 0 => b.r0
  | 1 => b.r1
  | 2 => b.r2
  | 3 => b.r3
  | 4 => b.r4
  | 5 => b.r5
  | 6 => b.r6
  | _ => b.r7

/-- The word numbered `i`, of 128. -/
def word (b : Block) (i : Nat) : UInt64 := (b.row (i / 16)).get (i % 16)

@[inline] def map (f : Row → Row) (b : Block) : Block :=
  ⟨f b.r0, f b.r1, f b.r2, f b.r3, f b.r4, f b.r5, f b.r6, f b.r7⟩

def xor (a b : Block) : Block :=
  ⟨a.r0.xor b.r0, a.r1.xor b.r1, a.r2.xor b.r2, a.r3.xor b.r3, a.r4.xor b.r4, a.r5.xor b.r5, a.r6.xor b.r6,
    a.r7.xor b.r7⟩

/-- One pair of words from each row. -/
@[inline] def column (b : Block) (even odd : Row → UInt64) : Row :=
  ⟨even b.r0, odd b.r0, even b.r1, odd b.r1, even b.r2, odd b.r2, even b.r3, odd b.r3,
    even b.r4, odd b.r4, even b.r5, odd b.r5, even b.r6, odd b.r6, even b.r7, odd b.r7⟩

/-- Rows and columns exchanged, where a column holds pairs of words. -/
def transpose (b : Block) : Block :=
  ⟨b.column Row.w0 Row.w1, b.column Row.w2 Row.w3, b.column Row.w4 Row.w5, b.column Row.w6 Row.w7,
    b.column Row.w8 Row.w9, b.column Row.w10 Row.w11, b.column Row.w12 Row.w13, b.column Row.w14 Row.w15⟩

/-- A sum with a product of the lower halves in it, which takes a multiplication to compute. -/
@[inline] def hardSum (a b : UInt64) : UInt64 := a + b + 2 * (a &&& 0xffffffff) * (b &&& 0xffffffff)

/-- Mixes four words and hands the new ones on. -/
@[inline] def mix (a b c d : UInt64) (next : UInt64 → UInt64 → UInt64 → UInt64 → Row) : Row :=
  let a := hardSum a b
  let d := Row.rotateRight (d ^^^ a) 32
  let c := hardSum c d
  let b := Row.rotateRight (b ^^^ c) 24
  let a := hardSum a b
  let d := Row.rotateRight (d ^^^ a) 16
  let c := hardSum c d
  let b := Row.rotateRight (b ^^^ c) 63
  next a b c d

/-- The four columns of a row and then its four diagonals. -/
def mixRow (r : Row) : Row :=
  mix r.w0 r.w4 r.w8 r.w12 fun a0 a4 a8 a12 =>
  mix r.w1 r.w5 r.w9 r.w13 fun a1 a5 a9 a13 =>
  mix r.w2 r.w6 r.w10 r.w14 fun a2 a6 a10 a14 =>
  mix r.w3 r.w7 r.w11 r.w15 fun a3 a7 a11 a15 =>
  mix a0 a5 a10 a15 fun b0 b5 b10 b15 =>
  mix a1 a6 a11 a12 fun b1 b6 b11 b12 =>
  mix a2 a7 a8 a13 fun b2 b7 b8 b13 =>
  mix a3 a4 a9 a14 fun b3 b4 b9 b14 =>
  ⟨b0, b1, b2, b3, b4, b5, b6, b7, b8, b9, b10, b11, b12, b13, b14, b15⟩

def permute (b : Block) : Block := (((b.map mixRow).transpose).map mixRow).transpose

/-- A new block of two: their sum, plus the same sum with its rows and then its columns mixed. -/
def compress (a b : Block) : Block :=
  let sum := a.xor b
  sum.xor sum.permute

end Block

end ScreenLocker
