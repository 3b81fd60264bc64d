import ScreenLocker.Frame
import ScreenLocker.Password.Row

/-! The hash function BLAKE2b without a key: from a message of any length to an output of 1 to 64 bytes. -/

namespace ScreenLocker.Blake2b

def iv : List UInt64 :=
  [0x6a09e667f3bcc908, 0xbb67ae8584caa73b, 0x3c6ef372fe94f82b, 0xa54ff53a5f1d36f1,
    0x510e527fade682d1, 0x9b05688c2b3e6c1f, 0x1f83d9abfb41bd6b, 0x5be0cd19137e2179]

/-- The order in which each of ten rounds takes the words of the message. -/
def schedule : List (List Nat) :=
  [[0, 1, 2, 3, 4, 5, 6, 7, 8, 9, 10, 11, 12, 13, 14, 15],
    [14, 10, 4, 8, 9, 15, 13, 6, 1, 12, 0, 2, 11, 7, 5, 3],
    [11, 8, 12, 0, 5, 2, 15, 13, 10, 14, 3, 6, 7, 1, 9, 4],
    [7, 9, 3, 1, 13, 12, 11, 14, 2, 6, 5, 10, 4, 0, 15, 8],
    [9, 0, 5, 7, 2, 4, 10, 15, 14, 1, 11, 12, 6, 8, 3, 13],
    [2, 12, 6, 10, 0, 11, 8, 3, 4, 13, 7, 5, 15, 14, 1, 9],
    [12, 5, 1, 15, 14, 13, 4, 10, 0, 7, 6, 3, 9, 2, 8, 11],
    [13, 11, 7, 14, 12, 1, 3, 9, 5, 0, 15, 4, 8, 6, 2, 10],
    [6, 15, 14, 9, 11, 3, 0, 8, 12, 2, 13, 7, 1, 4, 10, 5],
    [10, 2, 8, 4, 7, 6, 1, 5, 15, 11, 9, 14, 3, 12, 13, 0]]

def rounds : Nat := 12

def blockLength : Nat := 128

def maxOutputLength : Nat := 64

/-- Mixes two words of the message into four words and hands the new ones on. -/
@[inline] def mix (x y a b c d : UInt64) (next : UInt64 → UInt64 → UInt64 → UInt64 → Row) : Row :=
  let a := a + b + x
  let d := Row.rotateRight (d ^^^ a) 32
  let c := c + d
  let b := Row.rotateRight (b ^^^ c) 24
  let a := a + b + y
  let d := Row.rotateRight (d ^^^ a) 16
  let c := c + d
  let b := Row.rotateRight (b ^^^ c) 63
  next a b c d

/-- The four columns and then the four diagonals, each with two words of the message in the given order. -/
def round (message : Row) (order : List Nat) (r : Row) : Row :=
  let m (i : Nat) : UInt64 := message.get (order.getD i 0)
  mix (m 0) (m 1) r.w0 r.w4 r.w8 r.w12 fun a0 a4 a8 a12 =>
  mix (m 2) (m 3) r.w1 r.w5 r.w9 r.w13 fun a1 a5 a9 a13 =>
  mix (m 4) (m 5) r.w2 r.w6 r.w10 r.w14 fun a2 a6 a10 a14 =>
  mix (m 6) (m 7) r.w3 r.w7 r.w11 r.w15 fun a3 a7 a11 a15 =>
  mix (m 8) (m 9) a0 a5 a10 a15 fun b0 b5 b10 b15 =>
  mix (m 10) (m 11) a1 a6 a11 a12 fun b1 b6 b11 b12 =>
  mix (m 12) (m 13) a2 a7 a8 a13 fun b2 b7 b8 b13 =>
  mix (m 14) (m 15) a3 a4 a9 a14 fun b3 b4 b9 b14 =>
  ⟨b0, b1, b2, b3, b4, b5, b6, b7, b8, b9, b10, b11, b12, b13, b14, b15⟩

/-- The word in eight bytes, lowest first; missing bytes are zero. -/
def wordOf (bytes : Bytes) : UInt64 := UInt64.ofNat (Frame.ofLittleEndian (bytes.take 8))

def bytesOf (word : UInt64) : Bytes := Frame.littleEndian 8 word.toNat

/-- The sixteen words in 128 bytes. -/
def rowOf (bytes : Bytes) : Row := .ofWords fun i => wordOf (bytes.drop (8 * i))

/-- Takes one block of the message into the state. `count` is the number of bytes up to its end. -/
def compress (h : List UInt64) (block : Bytes) (count : Nat) (last : Bool) : List UInt64 :=
  let start := .ofWords fun i =>
    if i < 8 then h.getD i 0
    else
      let word := iv.getD (i - 8) 0
      if i = 12 then word ^^^ UInt64.ofNat count
      else if i = 13 then word ^^^ UInt64.ofNat (count / UInt64.size)
      else if i = 14 && last then ~~~ word
      else word
  let message := rowOf block
  let v := (List.range rounds).foldl (fun v i => round message (schedule.getD (i % 10) []) v) start
  (h.zip (v.words.zip (v.words.drop 8))).map fun (h, a, b) => h ^^^ a ^^^ b

/-- Takes the rest of the message into the state, with `count` bytes before it. The last block has 1 to 128
bytes, or none if the message has none. -/
def absorb (h : List UInt64) (count : Nat) (message : Bytes) : List UInt64 :=
  if message.length ≤ blockLength then compress h message (count + message.length) true
  else absorb (compress h (message.take blockLength) (count + blockLength) false) (count + blockLength)
    (message.drop blockLength)
termination_by message.length
decreasing_by simp [blockLength] at *; omega

/-- The hash of a message, of the given length. -/
def hash (length : Nat) (message : Bytes) : Bytes :=
  let start := iv.zipWith (· ^^^ ·) [0x01010000 ^^^ UInt64.ofNat length, 0, 0, 0, 0, 0, 0, 0]
  ((absorb start 0 message).flatMap bytesOf).take length

end ScreenLocker.Blake2b
