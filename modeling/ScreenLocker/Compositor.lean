import ScreenLocker.Color
import ScreenLocker.Op

/-! What the locker and the compositor say to each other. Events come in as closed types, one per kind of
object; requests go out through `Compositor`, whose instances are a live connection and a recorder. -/

namespace ScreenLocker

/-- The number under which an output is announced. -/
abbrev OutputId := Nat

inductive LockEvent where
  /-- Every output is covered. -/
  | locked
  /-- The lock was refused, or ended by the compositor. -/
  | finished
deriving DecidableEq, Repr

inductive OutputEvent where
  /-- The size of the output in pixels. -/
  | geometry (width height : Nat)
  | scale (factor : Int)
  | name (text : String)
  /-- The end of a batch of properties. -/
  | done
deriving DecidableEq, Repr

/-- The logical size at which a lock surface is to be drawn; the serial is to be acknowledged. -/
structure Configure where
  serial : Nat
  width : Nat
  height : Nat
deriving DecidableEq, Repr

/-- One picture for a lock surface, in buffer pixels. -/
structure Picture where
  width : Nat
  height : Nat
  scale : Int
  fill : Color
deriving DecidableEq, Repr

/-- Requests to a compositor that is in state `β`, by handles for outputs and lock surfaces. -/
class Compositor (β : Type) (Output Surface : outParam Type) where
  requestLock : Try β Unit
  createSurface (id : OutputId) (output : Output) : Try β Surface
  acknowledge (surface : Surface) (serial : Nat) : Op β Unit
  /-- Shows a picture; the surface that is returned remembers what it shows. -/
  present (surface : Surface) (picture : Picture) : Try β Surface
  destroySurface (surface : Surface) : Op β Unit
  releaseOutput (output : Output) : Op β Unit
  /-- Unlocks the session; only right once it is locked. -/
  unlock : Op β Unit
  /-- Gives up the lock without unlocking. -/
  abandon : Op β Unit
  /-- Pushes out the requests made so far. -/
  flush : Try β Unit

end ScreenLocker
