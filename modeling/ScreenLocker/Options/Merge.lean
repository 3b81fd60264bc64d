import ScreenLocker.Options.Parser
import ScreenLocker.Settings
import ScreenLocker.Settings.Locations

/-! From the command line and the config file to the settings. The file's options are read as if they stood
before those of the command line. The password hash and the debug flag are the command line's alone: they were
used before privileges were dropped. -/

namespace ScreenLocker.Options

def CommandLine.toSettings (c : CommandLine) : Settings :=
  let stock : Palette := {}
  { debug := c.debug
    ignoreEmptyPassword := c.ignoreEmptyPassword
    daemonize := c.daemonize
    readyFd := c.readyFd
    passwordHashFile := c.passwordHashFile
    colors :=
      { background := c.color.getD stock.background
        verifying := c.verifyingColor.getD stock.verifying
        wrong := c.wrongColor.getD stock.wrong
        cleared := c.clearedColor.getD stock.cleared } }

/-- The part of a message before its first line break. -/
def firstLine (text : String) : String := String.ofList (text.toList.takeWhile (· ≠ '\n'))

/-- The options of the config file; a file that cannot be read has none. -/
def fileArguments (files : FileTree) (env : HomeEnvironment) (c : CommandLine) : Logged (List String) := do
  match Settings.configFile? files env c.config with
  | none => pure []
  | some path =>
    match ← Settings.readArguments files path with
    | .ok arguments => pure arguments
    | .error e =>
      logError .commandLine e.message
      pure []

/-- A way to read arguments. -/
abbrev Reader := List String → Logged (Except UsageError CommandLine)

/-- The settings that a command line stands for, given the arguments it was read from and a way to read more. -/
def loadSettingsBy (read : Reader) (files : FileTree) (env : HomeEnvironment) (program : String)
    (arguments : List String) (c : CommandLine) : Logged (Except Error Settings) := do
  let file ← fileArguments files env c
  if file.isEmpty then pure (.ok c.toSettings)
  else
    match ← read (Settings.mergedArguments program file arguments).tail with
    | .error e => pure (.error (.config ("Invalid config file option: " ++ firstLine (e.message program))))
    | .ok merged =>
      pure (.ok { merged.toSettings with passwordHashFile := c.passwordHashFile, debug := c.debug })

def loadSettings (files : FileTree) (env : HomeEnvironment) (program : String) (arguments : List String)
    (c : CommandLine) : Logged (Except Error Settings) :=
  loadSettingsBy parse files env program arguments c

end ScreenLocker.Options
