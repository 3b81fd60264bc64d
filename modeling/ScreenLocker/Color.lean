import ScreenLocker.Log
import ScreenLocker.Text.Hex

/-! Colors in RGBA form and the fill for each phase of authentication. -/

namespace ScreenLocker

/-- Red, green, blue and alpha, from the highest byte to the lowest. -/
structure Color where
  rgba : UInt32
deriving DecidableEq, Repr, Inhabited

namespace Color

def white : Color := ⟨0xFFFFFFFF⟩

/-- Reads `rrggbb` or `rrggbbaa` after at most one `#`; six places mean an opaque color. The places hold a
base-16 number, which may spend its first place on a plus sign. -/
def parse? (text : String) : Option Color :=
  let places := match text.toList with
    | '#' :: rest => rest
    | all => all
  let digits := match places with
    | '+' :: rest => rest
    | all => all
  if places.length = 6 then (Hex.read? digits).map fun n => ⟨.ofNat (256 * n + 255)⟩
  else if places.length = 8 then (Hex.read? digits).map fun n => ⟨.ofNat n⟩
  else none

/-- Text that is no color stands for opaque white. -/
def parseLenient (text : String) : Logged Color :=
  match parse? text with
  | some color => pure color
  | none => do
    logDebug .settings ("Invalid color " ++ text ++ ", defaulting to 0xFFFFFFFF")
    pure white

def render (c : Color) : String := String.ofList (Hex.fixed 8 c.rgba.toNat)

/-- The pixel of an opaque surface: alpha is dropped. -/
def xrgb (c : Color) : UInt32 := c.rgba >>> 8

end Color

/-- The fill for each phase of authentication. -/
structure Palette where
  background : Color := ⟨0xA3A3A3FF⟩
  verifying : Color := ⟨0x0072FFC0⟩
  wrong : Color := ⟨0xFA0000C0⟩
  cleared : Color := ⟨0xE5A445C0⟩
deriving DecidableEq, Repr, Inhabited

end ScreenLocker
