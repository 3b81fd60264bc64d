/-! Sixteen words of 64 bits, which hash functions of one family mix as four rows of four: first the columns, then
the diagonals. Words are fields and not the elements of a list so that they stay in machine registers. -/

namespace ScreenLocker

structure Row where
  w0 : UInt64
  w1 : UInt64
  w2 : UInt64
  w3 : UInt64
  w4 : UInt64
  w5 : UInt64
  w6 : UInt64
  w7 : UInt64
  w8 : UInt64
  w9 : UInt64
  w10 : UInt64
  w11 : UInt64
  w12 : UInt64
  w13 : UInt64
  w14 : UInt64
  w15 : UInt64
deriving DecidableEq, Repr

namespace Row

def zero : Row := ⟨0, 0, 0, 0, 0, 0, 0, 0, 0, 0, 0, 0, 0, 0, 0, 0⟩

instance : Inhabited Row := ⟨zero⟩

/-- The row of sixteen words numbered from 0. -/
def ofWords (f : Nat → UInt64) : Row :=
  ⟨f 0, f 1, f 2, f 3, f 4, f 5, f 6, f 7, f 8, f 9, f 10, f 11, f 12, f 13, f 14, f 15⟩

def words (r : Row) : List UInt64 :=
  [r.w0, r.w1, r.w2, r.w3, r.w4, r.w5, r.w6, r.w7, r.w8, r.w9, r.w10, r.w11, r.w12, r.w13, r.w14, r.w15]

/-- The word numbered `i`; the last one when there is none. -/
def get (r : Row) : (i : Nat) → UInt64
  | 0 => r.w0
  | 1 => r.w1
  | 2 => r.w2
  | 3 => r.w3
  | 4 => r.w4
  | 5 => r.w5
  | 6 => r.w6
  | 7 => r.w7
  | 8 => r.w8
  | 9 => r.w9
  | 10 => r.w10
  | 11 => r.w11
  | 12 => r.w12
  | 13 => r.w13
  | 14 => r.w14
  | _ => r.w15

@[inline] def xor (a b : Row) : Row :=
  ⟨a.w0 ^^^ b.w0, a.w1 ^^^ b.w1, a.w2 ^^^ b.w2, a.w3 ^^^ b.w3, a.w4 ^^^ b.w4, a.w5 ^^^ b.w5, a.w6 ^^^ b.w6,
    a.w7 ^^^ b.w7, a.w8 ^^^ b.w8, a.w9 ^^^ b.w9, a.w10 ^^^ b.w10, a.w11 ^^^ b.w11, a.w12 ^^^ b.w12,
    a.w13 ^^^ b.w13, a.w14 ^^^ b.w14, a.w15 ^^^ b.w15⟩

@[inline] def rotateRight (x n : UInt64) : UInt64 := (x >>> n) ||| (x <<< (64 - n))

end Row

end ScreenLocker
