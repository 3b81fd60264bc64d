import ScreenLocker.Text.Hex

/-! Writing JSON text without any blanks. -/

namespace ScreenLocker.Json

def escape (c : Char) : List Char :=
  match c with
  | '"' => ['\\', '"']
  | '\\' => ['\\', '\\']
  | '\x08' => ['\\', 'b']
  | '\x0c' => ['\\', 'f']
  | '\n' => ['\\', 'n']
  | '\r' => ['\\', 'r']
  | '\t' => ['\\', 't']
  | c => if c.toNat < 0x20 then ['\\', 'u'] ++ Hex.fixed 4 c.toNat else [c]

def quote (text : String) : String := "\"" ++ String.ofList (text.toList.flatMap escape) ++ "\""

/-- An object from its members, whose values are written already. -/
def object (members : List (String × String)) : String :=
  "\x7b" ++ ",".intercalate (members.map fun (name, value) => quote name ++ ":" ++ value) ++ "\x7d"

def ofOption (f : α → String) : Option α → String
  | some a => f a
  | none => "null"

end ScreenLocker.Json
