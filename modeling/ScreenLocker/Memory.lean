import ScreenLocker.Fault

/-! Pinned memory. Every allocation is a block with a number of its own; the facility answers requests to pin
a block from a script, and keeps in order what was pinned, stored and unpinned, with the content a block had
at each store and at its release. -/

namespace ScreenLocker

abbrev Bytes := List UInt8

def zeros (n : Nat) : Bytes := List.replicate n 0

@[simp] theorem length_zeros (n : Nat) : (zeros n).length = n := List.length_replicate

inductive MemoryEvent where
  | pin (block length : Nat) (granted : Bool)
  | store (block : Nat) (content : Bytes)
  | unpin (block : Nat) (content : Bytes)
deriving DecidableEq, Repr

structure Memory where
  nextBlock : Nat := 0
  /-- The error numbers of the next requests to pin; zero, and the end of the list, stand for success. -/
  answers : List Nat := []
  /-- What happened so far, oldest first. -/
  events : List MemoryEvent := []
deriving Repr

namespace Memory

def record (m : Memory) (e : MemoryEvent) : Memory := { m with events := m.events ++ [e] }

/-- Allocates a zeroed block of `length` bytes and asks for it to be pinned. The block that is not pinned
is given back at once. -/
def allocate (m : Memory) (length : Nat) : Except Fault Nat × Memory :=
  let errno := m.answers.headD 0
  let m' := { m with nextBlock := m.nextBlock + 1, answers := m.answers.tail }
  if errno = 0 then (.ok m.nextBlock, m'.record (.pin m.nextBlock length true))
  else (.error (.os errno), m'.record (.pin m.nextBlock length false))

def store (m : Memory) (block : Nat) (content : Bytes) : Memory := m.record (.store block content)

/-- Zeroes a pinned block, then releases it. -/
def release (m : Memory) (block : Nat) (content : Bytes) : Memory :=
  m.record (.unpin block (zeros content.length))

end Memory

/-- The system call behind an event; a store needs none. -/
def MemoryEvent.call? : MemoryEvent → Option String
  | pin _ length true => some ("mlock " ++ toString length)
  | pin _ length false => some ("mlock " ++ toString length ++ " failed")
  | store _ _ => none
  | unpin _ content =>
    let call := "munlock " ++ toString content.length
    some (if content.all (· == 0) then call else call ++ " NOT WIPED")

end ScreenLocker
