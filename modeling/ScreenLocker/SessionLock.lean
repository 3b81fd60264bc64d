import ScreenLocker.Compositor

/-! The negotiation of the session lock. It is asked for once, and once it has ended no further request is
made for it. -/

namespace ScreenLocker

inductive Termination where
  /-- Unlocked on purpose, or ended by the compositor after it had been granted. -/
  | clean
  /-- Refused. -/
  | rejected
deriving DecidableEq, Repr

def Termination.name : Termination → String
  | clean => "Clean"
  | rejected => "Rejected"

inductive LockPhase where
  | idle
  | pending
  | locked
  | unlocking
  | terminated (how : Termination)
deriving DecidableEq, Repr

namespace LockPhase

def describe : LockPhase → String
  | idle => "Idle"
  | pending => "Pending"
  | locked => "Locked"
  | unlocking => "Unlocking"
  | terminated how => "Terminated(" ++ how.name ++ ")"

/-- The lock exists, and lock surfaces may be created for it. -/
def isActive : LockPhase → Bool
  | pending | locked => true
  | _ => false

def isTerminated : LockPhase → Bool
  | terminated _ => true
  | _ => false

end LockPhase

def LockEvent.name : LockEvent → String
  | locked => "Locked"
  | finished => "Finished"

/-- What an event on the lock means for the rest of the locker. -/
inductive LockTransition where
  | none
  /-- The screen is secured from here on. -/
  | secured
  /-- The compositor took back a lock that was granted. -/
  | endedByCompositor
deriving DecidableEq, Repr

namespace SessionLock

variable {β O S : Type} [Compositor β O S]

def phase : Part (LockPhase × β) LockPhase := Part.left

def compositor : Part (LockPhase × β) β := Part.right

def enter (p : LockPhase) : Op LockPhase Unit := set p

def request : Try (LockPhase × β) Unit := do
  let p := (← get).1
  if p ≠ .idle then throw (.protocol ("lock already requested (phase " ++ p.describe ++ ")"))
  compositor.attempt (Compositor.requestLock : Try β Unit)
  phase.on (enter .pending)
  logDebug .session "Session lock requested"

def handle (event : LockEvent) : Try (LockPhase × β) LockTransition := do
  match event, (← get).1 with
  | .locked, .pending =>
    phase.on (enter .locked)
    logDebug .session "Session locked"
    pure .secured
  | .finished, .pending =>
    compositor.on (Compositor.abandon : Op β Unit)
    phase.on (enter (.terminated .rejected))
    throw .lockRejected
  | .finished, .locked =>
    compositor.on (Compositor.abandon : Op β Unit)
    phase.on (enter (.terminated .clean))
    logInfo .session "Compositor ended the session lock"
    pure .endedByCompositor
  | event, p =>
    logDebug .session ("Ignoring " ++ event.name ++ " in phase " ++ p.describe)
    pure .none

/-- Gives the lock back: unlocks it if it was granted, withdraws it if the answer is still out. -/
def beginUnlock : Op (LockPhase × β) Unit := do
  match (← get).1 with
  | .locked =>
    compositor.on (Compositor.unlock : Op β Unit)
    phase.on (enter .unlocking)
  | .pending =>
    compositor.on (Compositor.abandon : Op β Unit)
    phase.on (enter .unlocking)
  | .idle => phase.on (enter .unlocking)
  | .unlocking | .terminated _ => pure ()

end SessionLock

/-- The unlock has been pushed out. -/
def LockPhase.completeUnlock : LockPhase → LockPhase
  | unlocking => terminated .clean
  | p => p

end ScreenLocker
