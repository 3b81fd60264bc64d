import ScreenLocker.Display.Connection

/-! The locker as a client of a display: the globals it has bound, and lock surfaces that show a solid fill from
shared memory. -/

namespace ScreenLocker.Display

structure OutputHandle where
  object : Object
  version : Nat
deriving DecidableEq, Repr

/-- A lock surface, the plain surface below it and the buffer it shows. -/
structure SurfaceHandle where
  surface : Object
  lockSurface : Object
  buffer : Option Object := none
deriving DecidableEq, Repr

structure Client (π : Type) where
  connection : Connection π
  compositor : Option Object := none
  memory : Option Object := none
  lockManager : Option Object := none
  /-- The seat, and the version it was bound with. -/
  seat : Option (Object × Nat) := none
  keyboard : Option Object := none
  lock : Option Object := none
  keys : Keyboard := {}

namespace Client

variable {π : Type}

def link : Part (Client π) (Connection π) where
  get c := c.connection
  put l c := { c with connection := l }

/-- A client that has done nothing yet. -/
def connect (peer : π) : Client π := { connection := { peer } }

def request (r : Request) : Op (Client π) Unit := link.lift (Connection.request r)

def create (kind : Kind) : Op (Client π) Object := link.lift (Connection.create kind)

def destroy (o : Object) : Op (Client π) Unit := request (.finish o "destroy")

def release (o : Object) : Op (Client π) Unit := request (.finish o "release")

/-- From this version on, outputs and keyboards can be released. -/
def releaseVersion : Nat := 3

/-- Binds a global. -/
def bind (registry : Object) (name version : Nat) (kind : Kind) : Op (Client π) Object := do
  let new ← create kind
  request (.bind registry name version new)
  pure new

/-- Fails with the first global that the locker cannot do without. -/
def checkCapabilities : Try (Client π) Unit := do
  let c ← get
  if c.compositor.isNone then throw (.missingCapability Kind.compositor.name)
  if c.memory.isNone then throw (.missingCapability Kind.memory.name)
  if c.lockManager.isNone then throw (.missingCapability Kind.lockManager.name)
  if c.seat.isNone then logWarn .display "No wl_seat advertised; keyboard input is unavailable"

def required (kind : Kind) : Option Object → Try (Client π) Object
  | some o => pure o
  | none => throw (.missingCapability kind.name)

def requestLock : Try (Client π) Unit := do
  let manager ← required .lockManager (← get).lockManager
  let new ← (create .lock : Op (Client π) Object)
  (request (.lock manager new) : Op (Client π) Unit)
  modify fun c => { c with lock := some new }

def createSurface (id : OutputId) (output : OutputHandle) : Try (Client π) SurfaceHandle := do
  let compositor ← required .compositor (← get).compositor
  match (← get).lock with
  | none => throw (.protocol "no lock object for lock surface")
  | some lock =>
    let surface ← (create .surface : Op (Client π) Object)
    (request (.createSurface compositor surface) : Op (Client π) Unit)
    let lockSurface ← link.on (Connection.createFor id .lockSurface)
    (request (.getLockSurface lock lockSurface surface output.object) : Op (Client π) Unit)
    pure { surface, lockSurface }

/-- Sizes and lengths of buffers are positive numbers of 31 bits. -/
def maxLength : Nat := 0x7fffffff

def pixelLength : Nat := 4

def checkDimension (n : Nat) : Except Error Unit :=
  if n ≤ maxLength then .ok () else .error (.protocol ("buffer dimension " ++ toString n ++ " too large"))

/-- The length of a row and of a whole picture in bytes. -/
def bufferLengths (p : Picture) : Except Error (Nat × Nat) := do
  checkDimension p.width
  checkDimension p.height
  let stride := p.width * pixelLength
  if maxLength < stride then throw (.protocol "buffer stride overflow")
  let size := stride * p.height
  if maxLength < size then throw (.protocol "buffer size overflow")
  pure (stride, size)

/-- Shows a picture from a pool of its own. The pool can go at once; the buffer shown before goes when the new one
is in its place. -/
def present (surface : SurfaceHandle) (picture : Picture) : Try (Client π) SurfaceHandle := do
  let memory ← required .memory (← get).memory
  match bufferLengths picture with
  | .error e => throw e
  | .ok (stride, size) =>
    let draw : Op (Client π) Object := do
      let pool ← create .pool
      request (.createPool memory pool size)
      let buffer ← create .buffer
      request (.createBuffer pool buffer picture.width picture.height stride picture.fill.xrgb)
      request (.setScale surface.surface picture.scale)
      request (.attach surface.surface buffer)
      request (.damage surface.surface picture.width picture.height)
      request (.commit surface.surface)
      destroy pool
      surface.buffer.forM destroy
      pure buffer
    pure { surface with buffer := some (← draw) }

def destroySurface (s : SurfaceHandle) : Op (Client π) Unit := do
  destroy s.lockSurface
  destroy s.surface
  s.buffer.forM destroy

def releaseOutput (o : OutputHandle) : Op (Client π) Unit :=
  if releaseVersion ≤ o.version then release o.object else pure ()

/-- Ends the lock object, if there is one. -/
def endLock (word : String) : Op (Client π) Unit := do
  match (← get).lock with
  | some lock =>
    modify fun c => { c with lock := none }
    request (.finish lock word)
  | none => pure ()

def protocolError (words : String) (e : ConnectionError) : Error := .protocol (words ++ e.message)

variable [FarEnd π]

def flush : Try (Client π) Unit := do
  match ← link.on Connection.flush with
  | .ok () => pure ()
  | .error e => throw (protocolError "flush failed: " e)

instance : Compositor (Client π) OutputHandle SurfaceHandle where
  requestLock := requestLock
  createSurface := createSurface
  acknowledge surface serial := request (.acknowledge surface.lockSurface serial)
  present := present
  destroySurface := destroySurface
  releaseOutput := releaseOutput
  unlock := endLock "unlock_and_destroy"
  abandon := endLock "destroy"
  flush := flush

end Client

end ScreenLocker.Display
