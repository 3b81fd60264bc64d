import ScreenLocker.Log
import ScreenLocker.Text.Blank

/-! Which log entries are shown. A filter is a list of directives, each a threshold for the targets that start with
a name; the directive with the longest name decides. A specification is text: thresholds and `name=threshold` pairs
between commas, and after a slash a text that shown entries contain. -/

namespace ScreenLocker

def Level.name : Level → String
  | error => "ERROR"
  | warn => "WARN"
  | info => "INFO"
  | debug => "DEBUG"

def Level.rank : Level → Nat
  | error => 1
  | warn => 2
  | info => 3
  | debug => 4

/-- The rank up to which entries are shown: zero shows none, and five shows even what is below any level here. -/
abbrev Threshold := Nat

namespace Threshold

def all : Threshold := 5

def names : List (String × Threshold) :=
  [("OFF", 0), ("ERROR", 1), ("WARN", 2), ("INFO", 3), ("DEBUG", 4), ("TRACE", all)]

/-- Reads the name of a threshold, in letters of either case. -/
def parse? (text : String) : Option Threshold := names.lookup (text.map Char.toUpper)

end Threshold

/-- A threshold for the targets that start with a name, or for all of them. -/
structure Directive where
  name : Option String
  threshold : Threshold
deriving DecidableEq, Repr

def Directive.covers (d : Directive) (target : String) : Bool := d.name.all fun name => target.startsWith name

def Directive.nameLength (d : Directive) : Nat := d.name.elim 0 String.utf8ByteSize

structure LogFilter where
  directives : List Directive
  /-- A text that the message has to contain. -/
  within : Option String := none
deriving DecidableEq, Repr

namespace LogFilter

/-- Sets the threshold of a name, in its place if it has one already. -/
def insert (d : Directive) : List Directive → List Directive
  | [] => [d]
  | x :: rest => if x.name = d.name then d :: rest else x :: insert d rest

/-- One part of a specification, or what is wrong with it. -/
def readPart (part : String) : Except String Directive :=
  match part.splitOn "=" with
  | [only] =>
    match Threshold.parse? only with
    | some t => .ok ⟨none, t⟩
    | none => .ok ⟨some only, Threshold.all⟩
  | [name, threshold] =>
    let threshold := String.ofList (Text.trim threshold.toList)
    if threshold.isEmpty then .ok ⟨some name, Threshold.all⟩
    else match Threshold.parse? threshold with
      | some t => .ok ⟨some name, t⟩
      | none => .error ("invalid logging spec '" ++ threshold ++ "'")
  | _ => .error ("invalid logging spec '" ++ part ++ "'")

/-- The directives of a specification and its text after the slash, and the faults found in it. -/
def readSpec (spec : String) : List Directive × Option String × List String :=
  match spec.splitOn "/" with
  | names :: rest =>
    if rest.length ≤ 1 then
      let parts := (names.splitOn ",").map fun p => String.ofList (Text.trim p.toList)
      let read := (parts.filter (!·.isEmpty)).map readPart
      (read.filterMap fun | .ok d => some d | .error _ => none, rest.head?,
        read.filterMap fun | .ok _ => none | .error e => some e)
    else ([], none, ["invalid logging spec '" ++ spec ++ "' (too many '/'s)"])
  | [] => ([], none, [])

/-- A filter with a threshold for everything, and on top of it what a specification says. With it come the warnings
about the specification. -/
def ofSpec (base : Threshold) (spec : Option String) : LogFilter × List String :=
  let (directives, within, faults) := (spec.map readSpec).getD ([], none, [])
  let all := directives.foldl (fun ds d => insert d ds) [⟨none, base⟩]
  (⟨all.mergeSort fun a b => a.nameLength ≤ b.nameLength, within⟩,
    faults.map fun f => "warning: " ++ f ++ ", ignoring it")

/-- Whether an entry is shown. -/
def shows (f : LogFilter) (e : Entry) : Bool :=
  (match f.directives.reverse.find? fun d => d.covers e.source.target with
    | some d => e.level.rank ≤ d.threshold
    | none => false) &&
  f.within.all fun text => 1 < (e.text.splitOn text).length || text.isEmpty

end LogFilter

end ScreenLocker
