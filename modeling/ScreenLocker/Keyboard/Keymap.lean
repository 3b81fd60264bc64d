import ScreenLocker.Keyboard

/-! A keyboard as the locker follows it: the keymap that was loaded last and the modifiers that are held. -/

namespace ScreenLocker

/-- What a key yields under one combination of modifiers in one group: a symbol, and the code point of its text
or zero. -/
structure KeyMeaning where
  key : Nat
  modifiers : Nat
  group : Nat
  symbol : Nat
  codepoint : Nat
deriving DecidableEq, Repr

/-- What becomes of a keymap that the compositor shares. -/
inductive KeymapText where
  | compiled (meanings : List KeyMeaning)
  | rejected
  /-- The memory that holds it cannot be mapped. -/
  | unmapped (fault : Fault)
deriving DecidableEq, Repr

structure Keyboard where
  keymap : Option (List KeyMeaning) := none
  modifiers : Nat := 0
  group : Nat := 0
deriving DecidableEq, Repr

namespace Keyboard

/-- Key codes of the display are smaller by this than those of a keymap. -/
def codeOffset : Nat := 8

def maxCode : Nat := UInt32.size - 1

/-- The modifier bit of the Control key. -/
def controlBit : Nat := 2

/-- A keyboard with a new keymap, and with no modifiers held. -/
def load : KeymapText → Except Error Keyboard
  | .compiled meanings => .ok { keymap := some meanings }
  | .rejected => .error (.protocol "keymap failed to compile")
  | .unmapped fault => .error (.protocol ("mapping keymap failed: " ++ fault.message))

/-- Follows the modifiers. Without a keymap there are none to follow. -/
def setModifiers (depressed latched locked group : Nat) (k : Keyboard) : Keyboard :=
  if k.keymap.isSome then { k with modifiers := depressed ||| latched ||| locked, group } else k

/-- What the keymap says of a key of the display in the present state. -/
def meaning (k : Keyboard) (meanings : List KeyMeaning) (key : Nat) : Nat × Nat :=
  let code := Nat.min (key + codeOffset) maxCode
  match meanings.find? fun m => m.key = code ∧ m.modifiers = k.modifiers ∧ m.group = k.group with
  | some m => (m.symbol, m.codepoint)
  | none => (0, 0)

/-- What pressing a key does; nothing before there is a keymap. -/
def press (k : Keyboard) (key : Nat) : Logged (Option KeyAction) :=
  match k.keymap with
  | none => do
    logDebug .keyboard ("Key " ++ toString key ++ " pressed before any keymap arrived; ignored")
    pure none
  | some meanings =>
    let (symbol, codepoint) := k.meaning meanings key
    pure (classify symbol (k.modifiers.testBit controlBit) codepoint)

end Keyboard

end ScreenLocker
