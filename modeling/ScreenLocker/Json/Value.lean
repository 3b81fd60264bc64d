/-! JSON values as the settings need them. Numbers that are not integers are told apart from integers and not
from each other; a string whose escapes name half a surrogate pair has no text. -/

namespace ScreenLocker.Json

inductive Value where
  | null
  | bool (b : Bool)
  | int (n : Int)
  | real
  | str (text : Option String)
  | arr (elements : List Value)
  | obj (members : List (Option String × Value))
deriving Repr, Inhabited

end ScreenLocker.Json
