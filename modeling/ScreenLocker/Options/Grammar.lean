import ScreenLocker.Files
import ScreenLocker.Log

/-! The options of the command line: their names, whether they take a value, and the help text made of them. -/

namespace ScreenLocker.Options

inductive OptionName where
  | config
  | debug
  | ignoreEmptyPassword
  | daemonize
  | readyFd
  | color
  | verifyingColor
  | wrongColor
  | clearedColor
  | passwordHashFile
  | help
  | version
deriving DecidableEq, Repr

structure Spec where
  name : OptionName
  long : String
  short : Option Char
  /-- What help calls the value; an option without one is a flag. -/
  value : Option String
  about : String

def specs : List Spec :=
  [⟨.config, "config", some 'C', some "CONFIG", "Path to the config file"⟩,
    ⟨.debug, "debug", some 'd', none, "Enable debugging output"⟩,
    ⟨.ignoreEmptyPassword, "ignore-empty-password", some 'e', none, "Don't validate empty passwords"⟩,
    ⟨.daemonize, "daemonize", some 'f', none, "Detach from the controlling terminal after locking"⟩,
    ⟨.readyFd, "ready-fd", some 'R', some "FD", "File descriptor to send readiness notifications to"⟩,
    ⟨.color, "color", some 'c', some "COLOR", "Background color, rrggbb[aa]"⟩,
    ⟨.verifyingColor, "inside-ver-color", none, some "INSIDE_VER_COLOR",
      "Fill color while the password is being verified"⟩,
    ⟨.wrongColor, "inside-wrong-color", none, some "INSIDE_WRONG_COLOR", "Fill color after a wrong password"⟩,
    ⟨.clearedColor, "inside-clear-color", none, some "INSIDE_CLEAR_COLOR",
      "Fill color after the input was cleared"⟩,
    ⟨.passwordHashFile, "password-hash-file", none, some "PATH", "Argon2 PHC hash to verify passwords against"⟩,
    ⟨.help, "help", some 'h', none, "Print help"⟩,
    ⟨.version, "version", some 'V', none, "Print version"⟩]

def ofLong? (long : String) : Option Spec := specs.find? (·.long = long)

def ofShort? (short : Char) : Option Spec := specs.find? (·.short = some short)

/-- The option as messages name it. -/
def Spec.usage (s : Spec) : String :=
  match s.value with
  | some v => "--" ++ s.long ++ " <" ++ v ++ ">"
  | none => "--" ++ s.long

/-- The option as help lists it. -/
def Spec.column (s : Spec) : String :=
  match s.short with
  | some c => "-" ++ c.toString ++ ", " ++ s.usage
  | none => "    " ++ s.usage

def about : String := "Wayland session locker with a privilege-separated credential verifier"

def versionText : String := programName ++ " 0.1.0\n"

private def pad (width : Nat) (s : String) : String := s ++ String.ofList (List.replicate (width - s.length) ' ')

/-- The help text, for a program that was started under the given path. -/
def helpText (program : String) : String :=
  let width := (specs.map (·.column.length)).foldl Nat.max 0
  let rows := specs.map fun s => "  " ++ pad width s.column ++ "  " ++ s.about ++ "\n"
  about ++ "\n\nUsage: " ++ (Path.fileName? program).getD programName ++ " [OPTIONS]\n\nOptions:\n" ++
    String.join rows

end ScreenLocker.Options
