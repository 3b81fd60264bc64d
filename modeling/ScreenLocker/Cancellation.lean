import ScreenLocker.Op

/-! Cancellation by signal. A handler can do no more than write one byte; it writes it into the pipe that was
set up last, and the loop finds it there. Pipes are known by the order in which they were made. -/

namespace ScreenLocker

/-- A signal, by name. -/
structure Signal where
  name : String
deriving DecidableEq, Repr

/-- Two signals take no handler. -/
def Signal.takesHandler (s : Signal) : Bool := s.name ≠ "SIGKILL" && s.name ≠ "SIGSTOP"

/-- A live pipe: the descriptors of its ends, how many bytes it holds at most, and how many wait in it. -/
structure CancelPipe where
  read : Nat
  write : Nat
  capacity : Nat := 65536
  waiting : Nat := 0
deriving DecidableEq, Repr

namespace CancelPipe

/-- One byte more. A full pipe stays as it is. -/
def push (p : CancelPipe) : CancelPipe := { p with waiting := Nat.min (p.waiting + 1) p.capacity }

/-- How many bytes one read takes at most. -/
def readSize : Nat := 64

/-- Reads until nothing is left; `requested` once something was read. -/
def readOut (requested : Bool) (p : CancelPipe) : Bool × CancelPipe :=
  if 0 < p.waiting then readOut true { p with waiting := p.waiting - readSize } else (requested, p)
termination_by p.waiting
decreasing_by
  simp only [readSize]
  omega

end CancelPipe

structure Cancellation where
  /-- One place for every attempt to make a pipe; empty once the pipe is gone, or if it never came to be. -/
  pipes : List (Option CancelPipe) := []
  /-- The descriptor that handlers write to. -/
  target : Option Nat := none
  handled : List Signal := []
deriving Repr

namespace Cancellation

def live (c : Cancellation) : List CancelPipe := c.pipes.filterMap id

def openDescriptors (c : Cancellation) : List Nat := c.live.flatMap fun p => [p.read, p.write]

/-- The lowest number from `start` on that is not in use; one of the first `used.length + 1` is free. -/
def lowestFree (used : List Nat) : (fuel start : Nat) → Nat
  | 0, start => start
  | fuel + 1, start => if used.contains start then lowestFree used fuel (start + 1) else start

/-- The two descriptors that a new pipe gets. -/
def nextDescriptors (c : Cancellation) : Nat × Nat :=
  let used := c.openDescriptors
  let read := lowestFree used (used.length + 1) 3
  (read, lowestFree used (used.length + 2) (read + 1))

/-- Makes a pipe on the given descriptors. -/
def create (ends : Nat × Nat) (c : Cancellation) (capacity : Nat := 65536) : Cancellation :=
  { c with pipes := c.pipes ++ [some { read := ends.1, write := ends.2, capacity }] }

def pipe? (c : Cancellation) (i : Nat) : Option CancelPipe := (c.pipes[i]?).join

/-- The end of a pipe; handlers stop writing to it if they did. -/
def drop (i : Nat) (c : Cancellation) : Cancellation :=
  match c.pipe? i with
  | none => c
  | some p =>
    { c with
      pipes := c.pipes.set i none
      target := if c.target = some p.write then none else c.target }

/-- Gives the signals a handler, up to the first that takes none. -/
def handle : List Signal → Cancellation → Except Signal Unit × Cancellation
  | [], c => (.ok (), c)
  | s :: rest, c =>
    if s.takesHandler then handle rest { c with handled := s :: c.handled } else (.error s, c)

/-- Makes a pipe and routes the signals into it. Where that fails the pipe is gone again. -/
def install (ends : Nat × Nat) (signals : List Signal) (capacity : Nat := 65536) : Try Cancellation Unit := do
  let i := (← get).pipes.length
  modify fun c => { c.create ends capacity with target := some ends.2 }
  match ← modifyGet (handle signals) with
  | .ok () =>
    logInfo .signals ("Cancellation handlers installed for [" ++ ", ".intercalate (signals.map (·.name)) ++ "]")
  | .error s =>
    modify (drop i)
    throw (.process ("Failed to install " ++ s.name ++ " handler: " ++ Errno.symbolic Errno.invalid))

/-- Writes one byte to a descriptor, if it is the write end of a live pipe. -/
def writeTo (fd : Nat) (c : Cancellation) : Cancellation :=
  { c with pipes := c.pipes.map fun q => q.map fun p => if p.write = fd then p.push else p }

/-- A signal arrives. -/
def raise (s : Signal) (c : Cancellation) : Cancellation :=
  if c.handled.contains s then
    match c.target with
    | some fd => c.writeTo fd
    | none => c
  else c

/-- Asks for cancellation without a signal. -/
def notify (i : Nat) (c : Cancellation) : Cancellation :=
  match c.pipe? i with
  | some p => c.writeTo p.write
  | none => c

/-- Empties a pipe; says whether cancellation was asked for since it was last empty. -/
def drain (i : Nat) (c : Cancellation) : Bool × Cancellation :=
  match c.pipe? i with
  | some p =>
    let (requested, p) := p.readOut false
    (requested, { c with pipes := c.pipes.set i (some p) })
  | none => (false, c)

end Cancellation

end ScreenLocker
