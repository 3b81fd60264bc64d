import ScreenLocker.Auth
import ScreenLocker.Outputs
import ScreenLocker.SessionLock

/-! The locker as one state: the lock, the outputs and the authentication, with the compositor and the sink
they talk through. Events of the compositor cannot be answered with an error; an error they lead to is parked,
and the loop collects it. -/

namespace ScreenLocker

/-- Why the loop ends. -/
inductive ExitReason where
  /-- The verifier accepted a credential. -/
  | authenticated
  /-- A signal asked for it; no credential was checked. -/
  | cancelled
  /-- The compositor ended the lock. -/
  | compositorEnded
deriving DecidableEq, Repr

def ExitReason.name : ExitReason → String
  | authenticated => "Authenticated"
  | cancelled => "Cancelled"
  | compositorEnded => "CompositorEnded"

structure Core (β O S σ : Type) where
  backend : β
  sink : σ
  session : LockPhase := .idle
  outputs : Outputs O S := {}
  auth : Auth
  palette : Palette := {}
  fatal : Option Error := none
  newlyLocked : Bool := false
  exit : Option ExitReason := none

namespace Core

variable {β O S σ : Type}

def locking : Part (Core β O S σ) (LockPhase × β) where
  get c := (c.session, c.backend)
  put s c := { c with session := s.1, backend := s.2 }

def covering : Part (Core β O S σ) (Outputs O S × β) where
  get c := (c.outputs, c.backend)
  put s c := { c with outputs := s.1, backend := s.2 }

def asking : Part (Core β O S σ) β where
  get c := c.backend
  put b c := { c with backend := b }

def entering : Part (Core β O S σ) (Auth × σ) where
  get c := (c.auth, c.sink)
  put s c := { c with auth := s.1, sink := s.2 }

def judging : Part (Core β O S σ) Auth where
  get c := c.auth
  put a c := { c with auth := a }

def sinking : Part (Core β O S σ) σ where
  get c := c.sink
  put s c := { c with sink := s }

/-- The fill for the present phase of authentication. -/
def fill (c : Core β O S σ) : Color :=
  match c.auth.phase with
  | .idle => c.palette.background
  | .validating => c.palette.verifying
  | .invalid => c.palette.wrong
  | .cleared => c.palette.cleared

def shouldExit (c : Core β O S σ) : Bool := c.exit.isSome || c.fatal.isSome

/-- Keeps the first error; later ones are only logged. -/
def park : Except Error Unit → Op (Core β O S σ) Unit
  | .ok () => pure ()
  | .error e => do
    if (← get).fatal.isNone then modify fun c => { c with fatal := some e }
    else logDebug .core ("Further error after fatal: " ++ e.message)

def parking (x : Try (Core β O S σ) Unit) : Op (Core β O S σ) Unit := do park (← x.run)

def takeFatal : Op (Core β O S σ) (Option Error) :=
  modifyGet fun c => (c.fatal, { c with fatal := none })

/-- True once after the lock was granted. -/
def takeNewlyLocked : Op (Core β O S σ) Bool :=
  modifyGet fun c => (c.newlyLocked, { c with newlyLocked := false })

/-- The first reason to leave stands. -/
def requestExit (reason : ExitReason) : Op (Core β O S σ) Unit := do
  if (← get).exit.isNone then
    logDebug .core ("Leaving event loop: " ++ reason.name)
    modify fun c => { c with exit := some reason }

/-- A signal asks the locker to go, without a check of any credential. -/
def onCancel : Op (Core β O S σ) Unit := do
  logWarn .core "Cancellation signal received; releasing the lock without authentication"
  requestExit .cancelled

variable [Compositor β O S]

/-- Asks for the lock, and covers the outputs that are ready. -/
def start : Try (Core β O S σ) Unit := do
  locking.attempt SessionLock.request
  covering.attempt Outputs.ensureSurfaces

def onLockEvent (event : LockEvent) : Op (Core β O S σ) Unit := do
  match ← locking.on (SessionLock.handle event).run with
  | .ok .secured => modify fun c => { c with newlyLocked := true }
  | .ok .endedByCompositor =>
    covering.on Outputs.teardown
    requestExit .compositorEnded
  | .ok .none => pure ()
  | .error e => park (.error e)

def onOutputAdded (id : OutputId) (output : O) : Op (Core β O S σ) Unit :=
  covering.on (Outputs.add id output)

/-- Properties take effect together, at the end of their batch, when what has changed is painted. -/
def onOutputEvent (id : OutputId) (event : OutputEvent) : Op (Core β O S σ) Unit := do
  let c ← get
  parking do
    covering.attempt (Outputs.handleEvent id event c.session.isActive)
    if event = .done then
      let _ ← covering.attempt (Outputs.render c.fill)

def onOutputRemoved (id : OutputId) : Op (Core β O S σ) Unit := do
  let _ ← covering.on (Outputs.remove id)

def onConfigure (id : OutputId) (event : Configure) : Op (Core β O S σ) Unit := do
  let fill := (← get).fill
  parking (covering.attempt (Outputs.handleConfigure id event fill))

/-- Paints every configured surface in the fill of the present phase. -/
def redraw : Try (Core β O S σ) Unit := do
  modify fun c => { c with outputs := c.outputs.damageAll }
  let fill := (← get).fill
  let _ ← covering.attempt (Outputs.render fill)

def apply : AuthOutcome → Try (Core β O S σ) Unit
  | .unchanged => pure ()
  | .redraw => redraw
  | .unlock => liftM (requestExit .authenticated : Op (Core β O S σ) Unit)

/-- Input counts until the locker is about to leave. -/
def onInput [CredentialSink σ] (event : Input) : Op (Core β O S σ) Unit := do
  if (← get).shouldExit then pure ()
  else parking do apply (← entering.attempt (Auth.handleInput event))

def onVerdict (v : Verdict) : Try (Core β O S σ) Unit := do
  apply (← judging.attempt (Auth.handleVerdict v))

/-- Gives back the lock and every handle, and pushes that out. -/
def shutdown : Try (Core β O S σ) Unit := do
  locking.on SessionLock.beginUnlock
  covering.on Outputs.teardown
  asking.attempt (Compositor.flush : Try β Unit)
  modify fun c => { c with session := c.session.completeUnlock }

end Core

end ScreenLocker
