import ScreenLocker.Core
import ScreenLocker.Display.Client

/-! From the display into the locker: what each event does, and the steps in which events are read and requests
are sent. -/

namespace ScreenLocker.Display

/-- A locker on a display. -/
abbrev DisplayCore (π σ : Type) := Core (Client π) OutputHandle SurfaceHandle σ

variable {π σ : Type}

def compositorVersion : Nat := 4
def maxOutputVersion : Nat := 4
def maxSeatVersion : Nat := 4

/-- A client that has bound one more global. -/
def Client.binding (registry : Object) (name version : Nat) (kind : Kind)
    (use : Object → Client π → Client π) : Op (Client π) Unit := do
  let o ← Client.bind registry name version kind
  modify (use o)

variable [FarEnd π]

def onOutputGlobal (registry : Object) (name version : Nat) : Op (DisplayCore π σ) Unit := do
  let object ← Core.asking.on (Client.link.lift (Connection.createFor name .output))
  Core.asking.on (Client.request (.bind registry name version object))
  logDebug .dispatch ("Output " ++ toString name ++ " announced")
  Core.onOutputAdded name ⟨object, version⟩

/-- Binds what the locker can use. Of several seats the first counts, of other globals the last. -/
def onGlobal (registry : Object) (name : Nat) (interface : String) (version : Nat) : Op (DisplayCore π σ) Unit := do
  if interface = Kind.compositor.name then
    if version < compositorVersion then logDebug .dispatch ("wl_compositor v" ++ toString version ++ " is too old")
    else
      Core.asking.on
        (Client.binding registry name compositorVersion .compositor fun o c => { c with compositor := some o })
  else if interface = Kind.memory.name then
    Core.asking.on (Client.binding registry name 1 .memory fun o c => { c with memory := some o })
  else if interface = Kind.lockManager.name then
    Core.asking.on (Client.binding registry name 1 .lockManager fun o c => { c with lockManager := some o })
  else if interface = Kind.seat.name then
    if (← get).backend.seat.isNone then
      let version := Nat.min version maxSeatVersion
      Core.asking.on (Client.binding registry name version .seat fun o c => { c with seat := some (o, version) })
  else if interface = Kind.output.name then onOutputGlobal registry name (Nat.min version maxOutputVersion)

/-- The capability bit of a keyboard. -/
def keyboardBit : Nat := 1

/-- Seats have three capabilities; a mask with any other is not understood. -/
def allCapabilities : Nat := 7

/-- Gets a keyboard when the seat has one, and lets go of it when it has none any more. -/
def onCapabilities (seat : Object) (mask : Nat) : Op (Client π) Unit := do
  if mask ≤ allCapabilities then
    let c ← get
    match mask.testBit keyboardBit, c.keyboard with
    | true, none =>
      logDebug .dispatch "Binding seat keyboard"
      let keyboard ← Client.create .keyboard
      Client.request (.getKeyboard seat keyboard)
      modify fun c => { c with keyboard := some keyboard }
    | false, some keyboard =>
      logDebug .dispatch "Seat lost its keyboard"
      modify fun c => { c with keyboard := none }
      if c.seat.any fun (_, version) => Client.releaseVersion ≤ version then Client.release keyboard
    | _, _ => pure ()

/-- The format of a keymap that is text. -/
def textKeymap : Nat := 1

def keymapFormatText : Nat → String
  | 0 => "Value(NoKeymap)"
  | n => "Unknown(" ++ toString n ++ ")"

def onKeymap (format : Nat) (content : KeymapText) (size : Nat) : Op (Client π) Unit := do
  if format = textKeymap then
    match Keyboard.load content with
    | .ok keys =>
      modify fun c => { c with keys }
      logDebug .dispatch ("Keymap loaded (" ++ toString size ++ " bytes)")
    | .error e => logError .dispatch ("Keymap rejected, keys stay ignored: " ++ e.message)
  else logWarn .dispatch ("Unsupported keymap format " ++ keymapFormatText format ++ "; keys stay ignored")

/-- The state of a key that has gone down. -/
def pressed : Nat := 1

def onKey [CredentialSink σ] (code state : Nat) : Op (DisplayCore π σ) Unit := do
  if state = pressed then
    match ← ((← get).backend.keys.press code : Logged (Option KeyAction)) with
    | some action => Core.onInput action.toInput
    | none => pure ()

/-- What one event does. -/
def handle [CredentialSink σ] (n : Notice) : Op (DisplayCore π σ) Unit := do
  match n.event.message, n.owner with
  | .global name interface version, _ => onGlobal n.event.target name interface version
  | .globalRemove name, _ => Core.onOutputRemoved name
  | .output property, some id =>
    match property.toEvent? with
    | some event => Core.onOutputEvent id event
    | none => pure ()
  | .lock event, _ => Core.onLockEvent event
  | .configure c, some id => Core.onConfigure id c
  | .capabilities mask, _ => Core.asking.on (onCapabilities n.event.target mask)
  | .keymap format content size, _ => Core.asking.on (onKeymap format content size)
  | .key code state, _ => onKey code state
  | .modifiers depressed latched locked group, _ =>
    Core.asking.on (modify fun (c : Client π) =>
      { c with keys := c.keys.setModifiers depressed latched locked group })
  | _, _ => pure ()

/-- Handles every event that has been read. -/
def dispatchPending [CredentialSink σ] : Op (DisplayCore π σ) Unit := do
  (← Core.asking.on (Client.link.lift Connection.takeQueue)).forM handle

def connection : Part (DisplayCore π σ) (Connection π) where
  get c := c.backend.connection
  put l c := { c with backend := { c.backend with connection := l } }

/-- A step on the connection, whose failure is told in the given words. -/
def orFail (words : String) (x : Op (Connection π) (Except ConnectionError Unit)) :
    Try (DisplayCore π σ) Unit := do
  match ← connection.on x with
  | .ok () => pure ()
  | .error e => throw (Client.protocolError words e)

variable [CredentialSink σ]

/-- Handles what has been read and sends what has been asked for. It comes before every wait. -/
def prepare : Try (DisplayCore π σ) Unit := do
  (dispatchPending : Op (DisplayCore π σ) Unit)
  orFail "flush failed: " Connection.flush

/-- Reads what has arrived, unless there is something left from before, and handles it. -/
def readAndDispatch : Try (DisplayCore π σ) Unit := do
  if (← get).backend.connection.queue.isEmpty then orFail "read failed: " Connection.read
  (dispatchPending : Op (DisplayCore π σ) Unit)

/-- Waits until everything asked for so far has been answered, and handles the answers. -/
def roundtrip : Try (DisplayCore π σ) Unit := do
  let words := "wl_display_roundtrip failed: Backend error: "
  connection.on do Connection.request (.sync (← Connection.create .callback))
  (dispatchPending : Op (DisplayCore π σ) Unit)
  orFail words Connection.flush
  orFail words Connection.read
  (dispatchPending : Op (DisplayCore π σ) Unit)

/-- Binds the globals, and then hears of the outputs among them. -/
def discover : Try (DisplayCore π σ) Unit := do
  connection.on do Connection.request (.getRegistry (← Connection.create .registry))
  roundtrip
  roundtrip
  Core.asking.attempt Client.checkCapabilities

end ScreenLocker.Display
