import ScreenLocker.Cancellation
import ScreenLocker.Core.Verified
import ScreenLocker.Daemon
import ScreenLocker.Descriptor
import ScreenLocker.Display.Dispatch
import ScreenLocker.Poll.Multiplexer
import ScreenLocker.Settings

/-! The main loop. It watches the display, the verifier's replies and the pipe that cancellation writes to, until
there is a reason to leave, and then releases the lock. Requests go out before every wait, and an error that a
handler has parked is collected after every pass. -/

namespace ScreenLocker

/-- What the loop watches. -/
inductive Watch where
  | display
  | replies
  | cancellation
deriving DecidableEq, Repr

/-- All that the loop works on. -/
structure Locker (π : Type) where
  core : Display.DisplayCore π Channel
  cancellation : Cancellation := {}
  /-- Which of the cancellation pipes is watched. -/
  pipe : Nat := 0
  /-- The descriptor that takes the word that the session is locked. -/
  supervisor : WriteDescriptor := {}
  surroundings : Surroundings := { directory := "." }

namespace Locker

variable {π : Type}

def display : Part (Locker π) (Display.DisplayCore π Channel) where
  get l := l.core
  put c l := { l with core := c }

def cancelling : Part (Locker π) Cancellation where
  get l := l.cancellation
  put c l := { l with cancellation := c }

def notifying : Part (Locker π) WriteDescriptor where
  get l := l.supervisor
  put d l := { l with supervisor := d }

def detaching : Part (Locker π) Surroundings where
  get l := l.surroundings
  put s l := { l with surroundings := s }

/-- The mask with these conditions. -/
def conditions (readable hangup : Bool) : Readiness :=
  (if readable then Readiness.readable else .none) ||| (if hangup then Readiness.hangup else .none)

variable [Display.FarEnd π]

/-- What a poll would report. -/
def readiness (l : Locker π) : Watch → Readiness
  | .display => conditions l.core.backend.connection.isReadable (!Display.FarEnd.isConnected l.core.backend.connection.peer)
  | .replies => conditions (!l.core.sink.replies.queue.isEmpty) (!l.core.sink.replies.writerOpen)
  | .cancellation => conditions ((l.cancellation.pipe? l.pipe).any (0 < ·.waiting)) false

def onDisplay (ready : Readiness) : Try (Locker π) Unit := do
  if ready.isReadable then display.attempt Display.readAndDispatch
  else if ready.isHangup then throw (.protocol "compositor connection closed")

def onCancellation : Op (Locker π) Unit := do
  if ← cancelling.on (modifyGet (Cancellation.drain (← get).pipe)) then display.on Core.onCancel

def react (w : Watch) (ready : Readiness) : Op (Locker π) (Reaction Watch) := do
  let result ← match w with
    | .display => (onDisplay ready).run
    | .replies => (display.attempt Core.onReply).run
    | .cancellation => do
      onCancellation
      pure (.ok ())
  pure { handler := w, result }

/-- Once the session is locked: tells the supervisor, and goes to the background. -/
def onLocked (settings : Settings) : Try (Locker π) Unit := do
  match settings.readyFd with
  | some fd => notifying.attempt (notifyReady fd)
  | none => pure ()
  if settings.daemonize then
    detaching.attempt (Daemon.detach 0)
    logDebug .daemon (Daemon.farewell (← get).surroundings)

/-- What comes before a wait. The answer is the reason to leave, if there is one. -/
def turn (settings : Settings) : Try (Locker π) (Option ExitReason) := do
  display.attempt Display.prepare
  match ← display.on Core.takeFatal with
  | some e => throw e
  | none => pure ()
  if ← display.on Core.takeNewlyLocked then onLocked settings
  pure (← get).core.exit

/-- Gives back the lock. The roundtrip is made even when the flush before it failed, since it is what carries the
request to unlock to the compositor. -/
def release (reason : ExitReason) : Try (Locker π) Unit := do
  logDebug .loop ("Unlocking (" ++ reason.name ++ ")")
  let released ← display.on (Core.shutdown : Try (Display.DisplayCore π Channel) Unit).run
  match ← display.on (Display.roundtrip : Try (Display.DisplayCore π Channel) Unit).run with
  | .ok () => pure ()
  | .error e => logDebug .loop ("Final roundtrip failed: " ++ e.message)
  match released with
  | .ok () => pure ()
  | .error e => throw e

/-- The three descriptors, in the order in which their handlers run. -/
def sources : List (Source Watch) :=
  [⟨0, .readable, .display⟩, ⟨1, .readable, .replies⟩, ⟨2, .readable, .cancellation⟩]

/-- What a poll reports, where some of it may be given. -/
def report (l : Locker π) (given : Watch → Option Readiness) : List Readiness :=
  sources.map fun s => (given s.handler).getD (l.readiness s.handler)

variable {ω : Type}

/-- How the world answers a wait. -/
abbrev Wait (π ω : Type) := Op (Locker π × ω) PollAnswer

def working : Part (Multiplexer Watch × (Locker π × ω)) (Locker π) where
  get s := s.2.1
  put l s := (s.1, l, s.2.2)

/-- Turns with a wait after each that gives no reason to leave. After the given number of waits the next one
fails. -/
def turns (settings : Settings) (wait : Wait π ω) :
    (waits : Nat) → Try (Multiplexer Watch × (Locker π × ω)) ExitReason
  | 0 => do
    match ← working.attempt (turn settings) with
    | some reason => pure reason
    | none => throw (Multiplexer.pollError Errno.io)
  | waits + 1 => do
    match ← working.attempt (turn settings) with
    | some reason => pure reason
    | none =>
      Multiplexer.runOnce (fun _ => wait) fun w ready => (Part.left : Part (Locker π × ω) (Locker π)).on (react w ready)
      turns settings wait waits

/-- The whole loop, and the release of the lock after it. -/
def run (settings : Settings) (wait : Wait π ω) (waits : Nat) : Try (Locker π × ω) ExitReason := fun s => do
  let (reason, state) ← (turns settings wait waits).run ({ sources }, s)
  match reason with
  | .error e => pure (.error e, state.2)
  | .ok reason =>
    let (released, l) ← (release reason).run state.2.1
    pure (released.map fun _ => reason, l, state.2.2)

end Locker

end ScreenLocker
