import ScreenLocker.Color
import ScreenLocker.Json.Parser
import ScreenLocker.Json.Printer
import ScreenLocker.SecureBuffer

/-! What the locker is set to do, and its JSON form. -/

namespace ScreenLocker

structure Settings where
  debug : Bool := false
  /-- An empty credential is not sent to the verifier. -/
  ignoreEmptyPassword : Bool := false
  /-- Go to the background once the session is locked. -/
  daemonize : Bool := false
  /-- A descriptor that is told once that the session is locked. -/
  readyFd : Option Int := none
  passwordHashFile : Option String := none
  colors : Palette := {}
  maxCredentialLength : Nat := Credential.maxLength
deriving DecidableEq, Repr, Inhabited

namespace Settings

def renderPalette (p : Palette) : String :=
  let color (c : Color) : String := toString c.rgba.toNat
  Json.object
    [("background", color p.background), ("verifying", color p.verifying), ("wrong", color p.wrong),
      ("cleared", color p.cleared)]

def render (s : Settings) : String :=
  Json.object
    [("debug", toString s.debug), ("ignore_empty_password", toString s.ignoreEmptyPassword),
      ("daemonize", toString s.daemonize), ("ready_fd", Json.ofOption toString s.readyFd),
      ("password_hash_file", Json.ofOption Json.quote s.passwordHashFile),
      ("colors", renderPalette s.colors), ("max_credential_len", toString s.maxCredentialLength)]

open Json (Value)

def bool? : Value → Option Bool
  | .bool b => some b
  | _ => none

def intBetween? (low high : Int) : Value → Option Int
  | .int n => if low ≤ n ∧ n ≤ high then some n else none
  | _ => none

def color? (v : Value) : Option Color := (intBetween? 0 0xffffffff v).map fun n => ⟨.ofNat n.toNat⟩

def text? : Value → Option String
  | .str text => text
  | _ => none

/-- A value that may be missing; `null` is as good as missing. -/
def optional (read : Value → Option α) : Option Value → Option (Option α)
  | none | some .null => some none
  | some v => (read v).map some

def required (read : Value → Option α) (v : Option Value) : Option α := v.bind read

/-- The member of a name: an object may have one of each name. -/
def member (name : String) (members : List (Option String × Value)) : Option (Option Value) :=
  match members.filter fun m => m.1 = some name with
  | [] => some none
  | [(_, v)] => some (some v)
  | _ => none

/-- The values of the named fields, from an object, whose other members count for nothing, or from an array
that holds them all in order. -/
def fields? (names : List String) : Value → Option (List (Option Value))
  | .obj members => if members.any (·.1.isNone) then none else names.mapM (member · members)
  | .arr elements => if elements.length = names.length then some (elements.map some) else none
  | _ => none

def palette? (v : Value) : Option Palette := do
  let [background, verifying, wrong, cleared] ← fields? ["background", "verifying", "wrong", "cleared"] v | none
  pure
    { background := ← required color? background
      verifying := ← required color? verifying
      wrong := ← required color? wrong
      cleared := ← required color? cleared }

def ofJson? (v : Value) : Option Settings := do
  let [debug, ignoreEmpty, daemonize, readyFd, hashFile, colors, maxLength] ←
    fields? ["debug", "ignore_empty_password", "daemonize", "ready_fd", "password_hash_file", "colors",
      "max_credential_len"] v | none
  pure
    { debug := ← required bool? debug
      ignoreEmptyPassword := ← required bool? ignoreEmpty
      daemonize := ← required bool? daemonize
      readyFd := ← optional (intBetween? (-0x80000000) 0x7fffffff) readyFd
      passwordHashFile := ← optional text? hashFile
      colors := ← required palette? colors
      maxCredentialLength := (← required (intBetween? 0 0xffffffffffffffff) maxLength).toNat }

def parse? (text : String) : Option Settings := (Json.parse? text).bind ofJson?

end Settings

end ScreenLocker
