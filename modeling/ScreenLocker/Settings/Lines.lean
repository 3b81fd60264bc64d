import ScreenLocker.Text.Blank

/-! The text of a config file: one long option to a line, without its dashes. Blank lines and lines that start
with a number sign say nothing. -/

namespace ScreenLocker.Settings

/-- The lines of a text; the last one may be empty. -/
def splitLines (cs : List Char) : List (List Char) :=
  cs.foldr (fun c lines => if c = '\n' then [] :: lines else
    match lines with
    | line :: rest => (c :: line) :: rest
    | [] => [[c]]) [[]]

/-- The option that a line gives. -/
def lineOption? (line : List Char) : Option (List Char) :=
  match Text.trim line with
  | [] => none
  | '#' :: _ => none
  | content => some (['-', '-'] ++ content)

def lineOptions (cs : List Char) : List (List Char) := (splitLines cs).filterMap lineOption?

/-- The arguments that the text of a config file stands for. -/
def argumentsOfText (text : String) : List String := (lineOptions text.toList).map String.ofList

end ScreenLocker.Settings
