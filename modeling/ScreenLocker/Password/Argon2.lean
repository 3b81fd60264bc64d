import ScreenLocker.Password.Block

/-! The password hash Argon2. A memory of blocks is laid out in lanes, each cut into four slices; passes over it
make each block of the one before it and of one that a pseudo-random number picks. The output is a hash of the last
blocks of all lanes. -/

namespace ScreenLocker.Argon2

/-- Where the pseudo-random numbers come from. -/
inductive Variant where
  /-- The block before, so that the order of accesses depends on the password. -/
  | d
  /-- A counter, so that it does not. -/
  | i
  /-- A counter in the first half of the first pass, and the block before from then on. -/
  | id
deriving DecidableEq, Repr

def Variant.number : Variant → Nat
  | d => 0
  | i => 1
  | id => 2

inductive Version where
  /-- A later pass replaces the blocks of the pass before. -/
  | v16
  /-- A later pass adds to them. -/
  | v19
deriving DecidableEq, Repr

def Version.number : Version → Nat
  | v16 => 16
  | v19 => 19

structure Parameters where
  variant : Variant
  version : Version
  /-- In blocks of 1024 bytes. -/
  memory : Nat
  passes : Nat
  lanes : Nat
  outputLength : Nat
  associated : Bytes

namespace Parameters

def slices : Nat := 4

/-- The blocks of one lane in one slice. -/
def segment (p : Parameters) : Nat := p.memory / (slices * p.lanes)

def laneLength (p : Parameters) : Nat := slices * p.segment

/-- The blocks in use: as many of the memory as the lanes share evenly. -/
def blockCount (p : Parameters) : Nat := p.lanes * p.laneLength

end Parameters

private def word32 (n : Nat) : Bytes := Frame.littleEndian 4 n

private def sized (bytes : Bytes) : Bytes := word32 bytes.length ++ bytes

/-- A hash of everything that the output depends on. -/
def seed (p : Parameters) (password salt : Bytes) : Bytes :=
  Blake2b.hash 64
    (word32 p.lanes ++ word32 p.outputLength ++ word32 p.memory ++ word32 p.passes ++ word32 p.version.number ++
      word32 p.variant.number ++ sized password ++ sized salt ++ sized [] ++ sized p.associated)

/-- Halves of a chain of hashes, and what it ends in. -/
def stretchFrom (previous : Bytes) (length : Nat) : Bytes :=
  if length ≤ Blake2b.maxOutputLength then Blake2b.hash length previous
  else
    let next := Blake2b.hash Blake2b.maxOutputLength previous
    next.take 32 ++ stretchFrom next (length - 32)
termination_by length
decreasing_by simp [Blake2b.maxOutputLength] at *; omega

/-- A hash of any length. -/
def stretch (length : Nat) (message : Bytes) : Bytes := stretchFrom (word32 length ++ message) length

/-- The part of the memory that is filled in one go. -/
structure Segment where
  pass : Nat
  slice : Nat
  lane : Nat
deriving DecidableEq, Repr

namespace Segment

def isCounted (s : Segment) : Variant → Bool
  | .d => false
  | .i => true
  | .id => s.pass == 0 && s.slice < 2

/-- The counted numbers, 128 at a time, the first time with `n = 1`. -/
def numbers (p : Parameters) (s : Segment) (n : Nat) : Block :=
  let input := [s.pass, s.lane, s.slice, p.blockCount, p.passes, p.variant.number, n]
  Block.zero.compress (Block.zero.compress (.ofWords fun i => UInt64.ofNat (input.getD i 0)))

/-- The lane of the block that a number picks. Other lanes have nothing to offer yet in the first slice. -/
def laneOf (p : Parameters) (s : Segment) (number : UInt64) : Nat :=
  if s.pass = 0 ∧ s.slice = 0 then s.lane else (number >>> 32).toNat % p.lanes

/-- How many blocks of a lane there are to pick from for the block numbered `index` of the segment: those of the
last four slices that are complete, less the segment itself in other lanes; the block before is never one of them. -/
def choices (p : Parameters) (s : Segment) (index : Nat) (sameLane : Bool) : Nat :=
  let complete := if s.pass = 0 then s.slice * p.segment else p.laneLength - p.segment
  if sameLane then complete + index - 1
  else if index = 0 then complete - 1
  else complete

/-- Where in its lane the picked block is. Later blocks are picked more often. -/
def placeOf (p : Parameters) (s : Segment) (choices : Nat) (number : UInt64) : Nat :=
  let x := number &&& 0xffffffff
  let y := (x * x) >>> 32
  let back := ((UInt64.ofNat choices * y) >>> 32).toNat
  let start := if s.pass ≠ 0 ∧ s.slice + 1 ≠ Parameters.slices then (s.slice + 1) * p.segment else 0
  (start + (choices - 1 - back)) % p.laneLength

/-- Fills `remaining` blocks of a segment, up to its end. -/
def fillFrom (p : Parameters) (s : Segment) (current : Block) : (remaining : Nat) → Array Block → Array Block
  | 0, memory => memory
  | remaining + 1, memory =>
    let index := p.segment - (remaining + 1)
    let column := s.slice * p.segment + index
    let offset := s.lane * p.laneLength
    let before := memory.getD (offset + (column + p.laneLength - 1) % p.laneLength) .zero
    let counted := s.isCounted p.variant
    let current := if counted && index % Block.wordCount == 0 then numbers p s (index / Block.wordCount + 1) else current
    let number := if counted then current.word (index % Block.wordCount) else before.r0.w0
    let lane := s.laneOf p number
    let place := s.placeOf p (s.choices p index (lane == s.lane)) number
    let block := before.compress (memory.getD (lane * p.laneLength + place) .zero)
    let block :=
      if s.pass = 0 ∨ p.version = .v16 then block else block.xor (memory.getD (offset + column) .zero)
    fillFrom p s current remaining (memory.setIfInBounds (offset + column) block)

/-- Fills a segment. The first two blocks of a lane are there before the first pass. -/
def fill (p : Parameters) (memory : Array Block) (s : Segment) : Array Block :=
  if s.pass = 0 ∧ s.slice = 0 then
    fillFrom p s (if s.isCounted p.variant then numbers p s 1 else .zero) (p.segment - 2) memory
  else fillFrom p s .zero p.segment memory

end Segment

/-- The two blocks that each lane starts with. -/
def startMemory (p : Parameters) (seed : Bytes) : Array Block :=
  (List.range p.lanes).foldl
    (fun memory lane =>
      (List.range 2).foldl
        (fun memory i =>
          memory.setIfInBounds (lane * p.laneLength + i)
            (.ofBytes (stretch Block.length (seed ++ word32 i ++ word32 lane))))
        memory)
    (Array.replicate p.blockCount Block.zero)

/-- All segments of one pass, slice by slice. -/
def segments (p : Parameters) (pass : Nat) : List Segment :=
  (List.range Parameters.slices).flatMap fun slice => (List.range p.lanes).map fun lane => ⟨pass, slice, lane⟩

/-- The sum of the last blocks of all lanes. -/
def lastSum (p : Parameters) (memory : Array Block) : Block :=
  (List.range p.lanes).foldl
    (fun sum lane => sum.xor (memory.getD (lane * p.laneLength + (p.laneLength - 1)) .zero)) .zero

def hash (p : Parameters) (password salt : Bytes) : Bytes :=
  let memory := (List.range p.passes).foldl
    (fun memory pass => (segments p pass).foldl (Segment.fill p) memory) (startMemory p (seed p password salt))
  stretch p.outputLength (lastSum p memory).bytes

end ScreenLocker.Argon2
