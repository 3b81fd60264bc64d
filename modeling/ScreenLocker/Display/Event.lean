import ScreenLocker.Compositor
import ScreenLocker.Display.Request
import ScreenLocker.Keyboard.Keymap

/-! What a compositor sends: events, each to one object, and the two ways in which a connection fails. -/

namespace ScreenLocker.Display

/-- A property of an output, as it is sent. -/
inductive OutputProperty where
  | mode (flags : Nat) (width height : Int)
  | scale (factor : Int)
  | name (text : String)
  | description (text : String)
  | done
deriving DecidableEq, Repr

namespace OutputProperty

/-- The flag of the mode that an output is in. -/
def currentMode : Nat := 1

/-- Modes have two flags; a mask with any other is not understood. -/
def allModeFlags : Nat := 3

/-- What counts of a property. A size below zero is none. -/
def toEvent? : OutputProperty → Option OutputEvent
  | mode flags width height =>
    if flags ≤ allModeFlags ∧ flags &&& currentMode ≠ 0 then some (.geometry width.toNat height.toNat) else none
  | scale factor => some (.scale factor)
  | name text => some (.name text)
  | description _ => none
  | done => some .done

end OutputProperty

inductive Message where
  /-- A global is there to be bound under this name. -/
  | global (name : Nat) (interface : String) (version : Nat)
  | globalRemove (name : Nat)
  /-- Everything before the request that made the callback has been answered. -/
  | callbackDone
  | output (property : OutputProperty)
  | lock (event : LockEvent)
  | configure (c : Configure)
  | capabilities (mask : Nat)
  | seatName (text : String)
  | keymap (format : Nat) (content : KeymapText) (size : Nat)
  | key (code state : Nat)
  | modifiers (depressed latched locked group : Nat)
deriving DecidableEq, Repr

structure Event where
  target : Object
  message : Message
deriving DecidableEq, Repr

/-- Why a connection is of no more use. -/
inductive ConnectionError where
  | io (fault : Fault)
  /-- The compositor accuses the locker of a violation, and says no more. -/
  | violation (code : Nat) (text : String)
deriving DecidableEq, Repr

def ConnectionError.message : ConnectionError → String
  | io fault => "Io error: " ++ fault.message
  | violation code text => "Protocol error " ++ toString code ++ " on object wl_display@1: " ++ text

/-- The other end is closed. -/
def ConnectionError.hangUp : ConnectionError := .io (.os Errno.brokenPipe)

/-- What can be read from the connection next. -/
inductive Arrival where
  | event (e : Event)
  | failure (e : ConnectionError)
deriving DecidableEq, Repr

end ScreenLocker.Display
