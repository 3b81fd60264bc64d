import ScreenLocker.Color
import ScreenLocker.Options.Grammar
import ScreenLocker.Options.Number

/-! Reading the command line. An option that is given again counts as it was given last. A value that follows
its option as an argument of its own is read when the next option comes, or at the end. -/

namespace ScreenLocker.Options

/-- The options as they were given. -/
structure CommandLine where
  config : Option String := none
  debug : Bool := false
  ignoreEmptyPassword : Bool := false
  daemonize : Bool := false
  readyFd : Option Int := none
  color : Option Color := none
  verifyingColor : Option Color := none
  wrongColor : Option Color := none
  clearedColor : Option Color := none
  passwordHashFile : Option String := none
deriving DecidableEq, Repr

/-- Why the arguments come to no command line. The last two are requests, and no fault. -/
inductive UsageError where
  | unexpectedArgument (argument : String)
  | unexpectedValue (value : String) (option : Spec)
  | missingValue (option : Spec)
  | badNumber (value : String) (option : Spec) (reason : NumberError)
  | helpWanted
  | versionWanted

namespace UsageError

def isRequest : UsageError → Bool
  | helpWanted | versionWanted => true
  | _ => false

/-- What is printed, for a program that was started under the given path. -/
def message (program : String) : UsageError → String
  | unexpectedArgument a => "error: unexpected argument '" ++ a ++ "' found"
  | unexpectedValue v o =>
    "error: unexpected value '" ++ v ++ "' for '" ++ o.usage ++ "' found; no more were expected"
  | missingValue o => "error: a value is required for '" ++ o.usage ++ "' but none was supplied"
  | badNumber v o reason => "error: invalid value '" ++ v ++ "' for '" ++ o.usage ++ "': " ++ reason.message
  | helpWanted => helpText program
  | versionWanted => versionText

end UsageError

/-- A step of the reader: it may log, and it may fail. -/
abbrev Parse (α : Type) := ExceptT UsageError Logged α

/-- Where the reader stands. -/
structure Scan where
  given : CommandLine := {}
  /-- The option that has been named last without a value attached, and the value it got since. -/
  pending : Option (Spec × Option String) := none
  /-- No argument is an option any more. -/
  trailing : Bool := false

namespace Scan

/-- Whether the next argument can be the value of an option. -/
def awaitsValue (s : Scan) : Bool :=
  match s.pending with
  | some (_, none) => true
  | _ => false

def parseColor (value : String) : Parse Color := liftM (Color.parseLenient value)

/-- A path may be anything but empty. -/
def parsePath (option : Spec) (value : String) : Parse String :=
  if value.isEmpty then throw (.missingValue option) else pure value

def parseNumber (option : Spec) (value : String) : Parse Int :=
  match readInt32 value with
  | .ok n => pure n
  | .error e => throw (.badNumber value option e)

/-- Takes the value of an option. -/
def accept (option : Spec) (value : String) (c : CommandLine) : Parse CommandLine := do
  match option.name with
  | .config => pure { c with config := some (← parsePath option value) }
  | .readyFd => pure { c with readyFd := some (← parseNumber option value) }
  | .color => pure { c with color := some (← parseColor value) }
  | .verifyingColor => pure { c with verifyingColor := some (← parseColor value) }
  | .wrongColor => pure { c with wrongColor := some (← parseColor value) }
  | .clearedColor => pure { c with clearedColor := some (← parseColor value) }
  | .passwordHashFile => pure { c with passwordHashFile := some (← parsePath option value) }
  | .debug | .ignoreEmptyPassword | .daemonize | .help | .version => pure c

/-- Reads the value that an earlier option is still owed. -/
def settle (s : Scan) : Parse Scan := do
  match s.pending with
  | none => pure s
  | some (option, none) => throw (.missingValue option)
  | some (option, some value) => pure { s with given := ← accept option value s.given, pending := none }

/-- Ends the reading with `e`; what an earlier option is owed is read before, and counts for nothing. -/
def fail (e : UsageError) (s : Scan) : Parse α := do
  let _ ← (liftM (settle s).run : Parse (Except UsageError Scan))
  throw e

/-- An option that takes no value. -/
def flag (option : Spec) (s : Scan) : Parse Scan := do
  let s ← s.settle
  match option.name with
  | .debug => pure { s with given := { s.given with debug := true } }
  | .ignoreEmptyPassword => pure { s with given := { s.given with ignoreEmptyPassword := true } }
  | .daemonize => pure { s with given := { s.given with daemonize := true } }
  | .help => throw .helpWanted
  | .version => throw .versionWanted
  | _ => pure s

/-- An option that takes a value, with the value that is attached to it, if any. -/
def valued (option : Spec) (attached : Option String) (s : Scan) : Parse Scan := do
  let s ← s.settle
  match attached with
  | some value => pure { s with given := ← accept option value s.given }
  | none => pure { s with pending := some (option, none) }

/-- An argument `--name` or `--name=value`. -/
def long (body : List Char) (s : Scan) : Parse Scan := do
  let name := String.ofList (body.takeWhile (· ≠ '='))
  let attached := match body.dropWhile (· ≠ '=') with
    | _ :: value => some (String.ofList value)
    | [] => none
  match ofLong? name with
  | none => s.fail (.unexpectedArgument ("--" ++ name))
  | some option =>
    match option.value, attached with
    | some _, attached => s.valued option attached
    | none, none => s.flag option
    | none, some value => s.fail (.unexpectedValue value option)

/-- The letters of an argument after one dash. A flag leaves the rest to the next letter; any other option
takes the rest as its value. -/
def short : (letters : List Char) → Scan → Parse Scan
  | [], s => pure s
  | c :: rest, s =>
    match ofShort? c with
    | none => s.fail (.unexpectedArgument ("-" ++ c.toString))
    | some option =>
      match option.value with
      | none => do short rest (← s.flag option)
      | some _ =>
        match rest with
        | [] => s.valued option none
        | '=' :: value => s.valued option (some (String.ofList value))
        | value => s.valued option (some (String.ofList value))

/-- An argument that is no option: a value, if an option waits for one. -/
def plain (argument : String) (s : Scan) : Parse Scan :=
  match s.pending with
  | some (option, none) =>
    if s.trailing then s.fail (.unexpectedArgument argument)
    else pure { s with pending := some (option, some argument) }
  | _ => s.fail (.unexpectedArgument argument)

def argument (text : String) (s : Scan) : Parse Scan :=
  if s.trailing then s.plain text
  else
    match text.toList with
    | ['-', '-'] => pure { s with trailing := true }
    | '-' :: '-' :: body => s.long body
    | ['-'] => s.plain text
    | '-' :: letters => s.short letters
    | _ => s.plain text

end Scan

/-- Reads the arguments that follow the name of the program. -/
def parse (arguments : List String) : Logged (Except UsageError CommandLine) :=
  ExceptT.run do
    let s ← arguments.foldlM (fun s text => Scan.argument text s) {}
    pure (← s.settle).given

end ScreenLocker.Options
