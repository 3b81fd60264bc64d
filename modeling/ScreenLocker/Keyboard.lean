import ScreenLocker.Auth

/-! From keys to input. A keymap gives the symbol and the text of a key under the modifiers that are held; a
few symbols edit or submit, and the rest count by their text. -/

namespace ScreenLocker

namespace Keysym

def enter : Nat := 0xFF0D
def keypadEnter : Nat := 0xFF8D
def backspace : Nat := 0xFF08
def delete : Nat := 0xFFFF
def escape : Nat := 0xFF1B
def lowerU : Nat := 0x75
def upperU : Nat := 0x55
def lowerC : Nat := 0x63
def upperC : Nat := 0x43

end Keysym

inductive KeyAction where
  | text (c : Char)
  | backspace
  | clear
  | submit
deriving DecidableEq, Repr

def KeyAction.toInput : KeyAction → Input
  | text c => .insert (String.utf8EncodeChar c)
  | backspace => .backspace
  | clear => .clear
  | submit => .submit

/-- The control characters of Unicode. -/
def isControl (c : Char) : Bool := c.toNat < 0x20 || (0x7F ≤ c.toNat && c.toNat ≤ 0x9F)

/-- The character of a code point; surrogates and numbers out of range have none. -/
def charOf? (codepoint : Nat) : Option Char :=
  if codepoint.isValidChar then some (Char.ofNat codepoint) else none

/-- What a key does. `codepoint` is the text it makes, zero for none; with Control held the text counts for
nothing. -/
def classify (sym : Nat) (ctrl : Bool) (codepoint : Nat) : Option KeyAction :=
  if sym = Keysym.enter ∨ sym = Keysym.keypadEnter then some .submit
  else if sym = Keysym.backspace ∨ sym = Keysym.delete then some .backspace
  else if sym = Keysym.escape then some .clear
  else if ctrl then
    if sym = Keysym.lowerU ∨ sym = Keysym.upperU ∨ sym = Keysym.lowerC ∨ sym = Keysym.upperC then some .clear
    else none
  else ((charOf? codepoint).filter fun c => !isControl c).map .text

end ScreenLocker
