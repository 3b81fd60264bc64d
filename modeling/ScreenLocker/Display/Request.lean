import ScreenLocker.Color
import ScreenLocker.Frame

/-! The requests that the locker makes of a display, and how a record of them reads. An object is known by its
kind and by its number among the objects of that kind, in the order in which they were made. -/

namespace ScreenLocker.Display

inductive Kind where
  | registry
  | callback
  | compositor
  | memory
  | pool
  | buffer
  | surface
  | lockManager
  | lock
  | lockSurface
  | output
  | seat
  | keyboard
deriving DecidableEq, Repr

def Kind.name : Kind → String
  | registry => "wl_registry"
  | callback => "wl_callback"
  | compositor => "wl_compositor"
  | memory => "wl_shm"
  | pool => "wl_shm_pool"
  | buffer => "wl_buffer"
  | surface => "wl_surface"
  | lockManager => "ext_session_lock_manager_v1"
  | lock => "ext_session_lock_v1"
  | lockSurface => "ext_session_lock_surface_v1"
  | output => "wl_output"
  | seat => "wl_seat"
  | keyboard => "wl_keyboard"

structure Object where
  kind : Kind
  number : Nat
deriving DecidableEq, Repr

def Object.text (o : Object) : String := o.kind.name ++ "#" ++ toString o.number

inductive Request where
  | getRegistry (new : Object)
  /-- Asks for an answer once everything before it has been answered. -/
  | sync (new : Object)
  /-- Makes an object of the global with the given name. -/
  | bind (registry : Object) (name version : Nat) (new : Object)
  | lock (manager new : Object)
  | createSurface (compositor new : Object)
  | getLockSurface (lock new surface output : Object)
  | acknowledge (lockSurface : Object) (serial : Nat)
  | createPool (memory new : Object) (size : Nat)
  /-- A buffer at the start of a pool; all its pixels are the same. -/
  | createBuffer (pool new : Object) (width height stride : Nat) (pixel : UInt32)
  | setScale (surface : Object) (scale : Int)
  | attach (surface buffer : Object)
  | damage (surface : Object) (width height : Nat)
  | commit (surface : Object)
  | getKeyboard (seat new : Object)
  /-- Ends an object; the word is `destroy` or one that says more. -/
  | finish (object : Object) (word : String)
deriving DecidableEq, Repr

namespace Request

/-- The object that is gone once the request is made. -/
def ended? : Request → Option Object
  | finish object _ => some object
  | _ => none

/-- Four bytes, lowest first, in base 16. -/
def pixelText (pixel : UInt32) : String :=
  Hex.ofBytes (Frame.littleEndian 4 pixel.toNat)

private def form (target method : String) (arguments : List String) : String :=
  target ++ "." ++ method ++ "(" ++ ",".intercalate arguments ++ ")"

private def fresh (o : Object) : String := "new " ++ o.text

/-- The pixel format in which the highest byte of a pixel does not count. -/
def opaqueFormat : Nat := 1

def text : Request → String
  | getRegistry new => form "wl_display" "get_registry" [fresh new]
  | sync new => form "wl_display" "sync" [fresh new]
  | bind registry name version new =>
    form registry.text "bind" [toString name, new.kind.name, toString version, fresh new]
  | lock manager new => form manager.text "lock" [fresh new]
  | createSurface compositor new => form compositor.text "create_surface" [fresh new]
  | getLockSurface session new surface output =>
    form session.text "get_lock_surface" [fresh new, surface.text, output.text]
  | acknowledge lockSurface serial => form lockSurface.text "ack_configure" [toString serial]
  | createPool memory new size => form memory.text "create_pool" [fresh new, "fd", toString size]
  | createBuffer pool new width height stride pixel =>
    form pool.text "create_buffer"
      [fresh new, "0", toString width, toString height, toString stride, toString opaqueFormat] ++
      " " ++ toString (stride * height) ++ " bytes of " ++ pixelText pixel
  | setScale surface scale => form surface.text "set_buffer_scale" [toString scale]
  | attach surface buffer => form surface.text "attach" [buffer.text, "0", "0"]
  | damage surface width height => form surface.text "damage_buffer" ["0", "0", toString width, toString height]
  | commit surface => form surface.text "commit" []
  | getKeyboard seat new => form seat.text "get_keyboard" [fresh new]
  | finish object word => form object.text word []

end Request

end ScreenLocker.Display
