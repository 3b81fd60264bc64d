import ScreenLocker.Op
import ScreenLocker.Poll.Readiness

/-! A table of descriptors with handlers. One pass polls them all and runs the handlers of those that are
ready, in the order of registration. A handler asks for changes of the table; they are made when the pass is over. -/

namespace ScreenLocker

/-- A registered descriptor. What its handler does is said by a function of `handler`. -/
structure Source (H : Type) where
  fd : Int
  interest : Readiness
  handler : H
deriving Repr

/-- A change of the table that a handler asks for. -/
inductive TableChange (H : Type) where
  | register (source : Source H)
  | deregister (fd : Int)
deriving Repr

/-- What one run of a handler comes to: what the handler is next time, the changes it asks for in order, and
whether it failed. -/
structure Reaction (H : Type) where
  handler : H
  changes : List (TableChange H) := []
  result : Except Error Unit := .ok ()

/-- The changes asked for so far in a pass. -/
structure Pending (H : Type) where
  added : List (Source H) := []
  removed : List Int := []

def Pending.request (p : Pending H) : TableChange H → Pending H
  | .register source => { p with added := p.added ++ [source] }
  | .deregister fd => { p with removed := p.removed ++ [fd] }

/-- The answer to one poll: the error number of its failure, or a mask for each entry. -/
abbrev PollAnswer := Except Nat (List Readiness)

structure Multiplexer (H : Type) where
  sources : List (Source H) := []
  /-- Changes that were asked for and have not been made. -/
  pending : Pending H := {}

namespace Multiplexer

variable {H C : Type}

def register (source : Source H) (m : Multiplexer H) : Multiplexer H :=
  { m with sources := m.sources ++ [source] }

/-- Removes every registration of a descriptor. -/
def deregister (fd : Int) (m : Multiplexer H) : Multiplexer H :=
  { m with sources := m.sources.filter (·.fd ≠ fd) }

def isRegistered (fd : Int) (m : Multiplexer H) : Bool := m.sources.any (·.fd = fd)

/-- What is passed to poll. -/
def entries (m : Multiplexer H) : List (Int × Readiness) := m.sources.map fun s => (s.fd, s.interest)

/-- Each source with what the poll reports of it; where it reports nothing, the mask is empty. -/
def polled (m : Multiplexer H) (reported : List Readiness) : List (Source H × Readiness) :=
  m.sources.zip (reported ++ List.replicate m.sources.length Readiness.none)

/-- The largest number of 31 bits. -/
def maxMillis : Nat := 0x7fffffff

/-- The wait in whole milliseconds, up to a limit; `-1` waits for ever. -/
def timeoutMillis : Option Nat → Int
  | some micros => Nat.min (micros / 1000) maxMillis
  | none => -1

/-- Whether a source is run for what the poll reports of it. -/
def wanted (s : Source H) (reported : Readiness) (p : Pending H) : Bool :=
  reported.intersects (s.interest ||| Readiness.always) && !p.removed.contains s.fd

/-- Runs the handlers of the sources that are ready, up to the first that fails. -/
def dispatch (react : H → Readiness → Op C (Reaction H)) :
    List (Source H × Readiness) → Pending H → Op C (List (Source H) × Pending H × Except Error Unit)
  | [], p => pure ([], p, .ok ())
  | (s, reported) :: rest, p => do
    if wanted s reported p then
      let r ← react s.handler reported
      let p := r.changes.foldl Pending.request p
      let s := { s with handler := r.handler }
      match r.result with
      | .error e => pure (s :: rest.map Prod.fst, p, .error e)
      | .ok () =>
        let (sources, p, result) ← dispatch react rest p
        pure (s :: sources, p, result)
    else
      let (sources, p, result) ← dispatch react rest p
      pure (s :: sources, p, result)

/-- Makes the changes that were asked for: what was to go is gone, what was to come is at the end. -/
def settle (m : Multiplexer H) : Multiplexer H :=
  let kept := m.pending.removed.foldl (fun m fd => m.deregister fd) m
  { sources := kept.sources ++ m.pending.added }

def context : Part (Multiplexer H × C) C := Part.right

def pollError (errno : Nat) : Error := .multiplexer ("poll failed: " ++ (Fault.os errno).message)

/-- Waits once and dispatches. An interrupted wait is no error and dispatches nothing. -/
def runOnce (poll : List (Int × Readiness) → Op C PollAnswer) (react : H → Readiness → Op C (Reaction H)) :
    Try (Multiplexer H × C) Unit := do
  let m := (← get).1
  match ← context.on (poll m.entries) with
  | .error errno =>
    if errno = Errno.interrupted then pure ()
    else throw (pollError errno)
  | .ok reported =>
    let (sources, pending, result) ← context.on (dispatch react (m.polled reported) m.pending)
    modify fun (_, c) => (settle { sources, pending }, c)
    match result with
    | .ok () => pure ()
    | .error e => throw e

end Multiplexer

end ScreenLocker
