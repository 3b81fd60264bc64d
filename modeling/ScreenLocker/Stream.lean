import ScreenLocker.Fault
import ScreenLocker.Memory

/-! Byte streams whose single calls follow a script: each call moves at most so many bytes or fails, and past
the end of the script nothing holds it back. Whole blocks are moved by repeating calls; an interrupted call
is repeated too. -/

namespace ScreenLocker

/-- The answer to one call on a stream. -/
inductive Move where
  | upTo (n : Nat)
  | fail (f : Fault)
deriving DecidableEq, Repr

structure InStream where
  pending : Bytes
  script : List Move := []
  /-- How many bytes have been taken. -/
  consumed : Nat := 0
deriving Repr

namespace InStream

/-- What a block read obtained: the bytes, the fault that cut it short, and the script that is left. -/
structure Taken where
  bytes : Bytes
  fault : Option Fault
  script : List Move
deriving Repr

/-- Reads until `want` bytes are there. A call that brings nothing means the end of the stream. -/
def takeExactly : (script : List Move) → (pending : Bytes) → (want : Nat) → Taken
  | script, _, 0 => ⟨[], none, script⟩
  | [], pending, want =>
    ⟨pending.take want, if pending.length < want then some .shortRead else none, []⟩
  | .fail f :: rest, pending, want =>
    if f.isInterrupted then takeExactly rest pending want else ⟨[], some f, rest⟩
  | .upTo n :: rest, pending, want =>
    let got := pending.take (Nat.min n want)
    if got.isEmpty then ⟨[], some .shortRead, rest⟩
    else
      let more := takeExactly rest (pending.drop got.length) (want - got.length)
      { more with bytes := got ++ more.bytes }

/-- Reads a block of `want` bytes. The bytes that arrived before a fault are returned with it. -/
def readExactly (want : Nat) (s : InStream) : (Bytes × Option Fault) × InStream :=
  let taken := takeExactly s.script s.pending want
  ((taken.bytes, taken.fault),
    { pending := s.pending.drop taken.bytes.length
      script := taken.script
      consumed := s.consumed + taken.bytes.length })

end InStream

/-- One call on a writer, and how much it moved unless it failed. -/
inductive WriteCall where
  | vectored (first second : Nat) (moved : Option Nat)
  | single (length : Nat) (moved : Option Nat)
  | flush
deriving DecidableEq, Repr

namespace WriteCall

private def outcome : Option Nat → String
  | some n => toString n
  | none => "error"

def text : WriteCall → String
  | vectored a b moved => "writev " ++ toString a ++ "+" ++ toString b ++ " -> " ++ outcome moved
  | single n moved => "write " ++ toString n ++ " -> " ++ outcome moved
  | flush => "flush"

end WriteCall

structure OutStream where
  script : List Move := []
  written : Bytes := []
  calls : List WriteCall := []
  /-- The faults that the next flushes meet; past the end, and where there is none, they go through. -/
  flushes : List (Option Fault) := []
deriving Repr

namespace OutStream

/-- What a run of calls wrote, the fault that ended it, and the script and calls it left behind. -/
structure Given where
  bytes : Bytes
  fault : Option Fault
  script : List Move
  calls : List WriteCall
deriving Repr

def Given.after (g : Given) (bytes : Bytes) (call : WriteCall) : Given :=
  { g with bytes := bytes ++ g.bytes, calls := call :: g.calls }

/-- Writes until the whole block is out. A call that takes nothing is a fault. -/
def giveAll : (script : List Move) → (block : Bytes) → Given
  | script, [] => ⟨[], none, script, []⟩
  | [], block => ⟨block, none, [], [.single block.length (some block.length)]⟩
  | .fail f :: rest, block =>
    if f.isInterrupted then (giveAll rest block).after [] (.single block.length none)
    else ⟨[], some f, rest, [.single block.length none]⟩
  | .upTo 0 :: rest, block => ⟨[], some .shortWrite, rest, [.single block.length (some 0)]⟩
  | .upTo (n + 1) :: rest, block =>
    let put := block.take (n + 1)
    (giveAll rest (block.drop (n + 1))).after put (.single block.length (some put.length))

/-- Offers two blocks in one call, again while it is interrupted. The call may stop short of their end. -/
def giveBoth : (script : List Move) → (first second : Bytes) → Given
  | [], first, second =>
    let block := first ++ second
    ⟨block, none, [], [.vectored first.length second.length (some block.length)]⟩
  | .fail f :: rest, first, second =>
    if f.isInterrupted then
      (giveBoth rest first second).after [] (.vectored first.length second.length none)
    else ⟨[], some f, rest, [.vectored first.length second.length none]⟩
  | .upTo n :: rest, first, second =>
    let put := (first ++ second).take n
    ⟨put, if put.isEmpty then some (.kind .writeZero) else none, rest,
      [.vectored first.length second.length (some put.length)]⟩

def absorb (s : OutStream) (g : Given) : OutStream :=
  { s with script := g.script, written := s.written ++ g.bytes, calls := s.calls ++ g.calls }

def writeAll (block : Bytes) (s : OutStream) : Option Fault × OutStream :=
  let given := giveAll s.script block
  (given.fault, s.absorb given)

/-- How many bytes of two blocks one call moved. -/
def writeBoth (first second : Bytes) (s : OutStream) : Except Fault Nat × OutStream :=
  let given := giveBoth s.script first second
  (match given.fault with
    | some f => .error f
    | none => .ok given.bytes.length, s.absorb given)

/-- A flush is tried once, even if it is interrupted. -/
def flush (s : OutStream) : Option Fault × OutStream :=
  (s.flushes.headD none, { s with calls := s.calls ++ [.flush], flushes := s.flushes.tail })

end OutStream

end ScreenLocker
