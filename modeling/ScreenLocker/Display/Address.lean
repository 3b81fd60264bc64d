import ScreenLocker.Error

/-! Where the compositor listens, from the environment. An inherited descriptor comes before a named socket,
and a relative name is looked up in an absolute runtime directory. -/

namespace ScreenLocker.Display

structure Environment where
  inherited : Option String := none
  socket : Option String := none
  runtimeDirectory : Option String := none

inductive AddressError where
  | noCompositor
  | badInherited
deriving DecidableEq, Repr

def AddressError.message : AddressError → String
  | noCompositor => "Could not find wayland compositor"
  | badInherited => "WAYLAND_SOCKET was set but contained garbage"

/-- The error that a failed connection ends in. -/
def AddressError.toError (e : AddressError) : Error :=
  .connect (e.message ++
    ". If your compositor is running, check or set the WAYLAND_DISPLAY environment variable.")

inductive Address where
  | inherited (text : String)
  | path (text : String)
deriving DecidableEq, Repr

def isAbsolute (path : String) : Bool := path.startsWith "/"

def address? (env : Environment) : Except AddressError Address :=
  match env.inherited with
  | some text => .ok (.inherited text)
  | none =>
    match env.socket with
    | none => .error .noCompositor
    | some socket =>
      if isAbsolute socket then .ok (.path socket)
      else
        match env.runtimeDirectory with
        | some dir => if isAbsolute dir then .ok (.path (dir ++ "/" ++ socket)) else .error .noCompositor
        | none => .error .noCompositor

/-- Connects, given which addresses have a compositor behind them. -/
def connect (listening : Address → Bool) (env : Environment) : Except Error Address :=
  match address? env with
  | .error e => .error e.toError
  | .ok a =>
    if listening a then .ok a
    else
      match a with
      | .inherited _ => .error AddressError.badInherited.toError
      | .path _ => .error AddressError.noCompositor.toError

end ScreenLocker.Display
