import ScreenLocker.Error
import ScreenLocker.Files
import ScreenLocker.Log
import ScreenLocker.Settings.Lines

/-! Where the config file and the password hash are looked for, and how they are read. -/

namespace ScreenLocker

/-- The part of the environment that says where a user's files are. -/
structure HomeEnvironment where
  home : Option String := none
  configHome : Option String := none

namespace Settings

def nonEmpty (v : Option String) : Option String := v.filter fun s => !s.isEmpty

/-- Candidates for the config file, in the order they are tried. -/
def configPaths (env : HomeEnvironment) : List String :=
  let home := nonEmpty env.home
  let configHome := (nonEmpty env.configHome).or (home.map (Path.join · ".config"))
  (home.toList.map fun h => Path.join (Path.join h ("." ++ programName)) "config") ++
    (configHome.toList.map fun d => Path.join (Path.join d programName) "config") ++
    ["/etc/" ++ programName ++ "/config"]

/-- Candidates for the password hash, the user's own first. -/
def hashPaths (env : HomeEnvironment) : List String :=
  let configHome := (nonEmpty env.configHome).or (env.home.map (Path.join · ".config"))
  (configHome.toList.map fun d => Path.join (Path.join d programName) "password-hash") ++
    ["/etc/" ++ programName ++ "/password-hash"]

/-- The config file to read: the one that is asked for, whether or not it is there, or the first candidate
that is a file. -/
def configFile? (files : FileTree) (env : HomeEnvironment) : (explicit : Option String) → Option String
  | some path => some path
  | none => (configPaths env).find? files.isFile

def hashFile (files : FileTree) (env : HomeEnvironment) : (explicit : Option String) → Except Error String
  | some path => .ok path
  | none =>
    match (hashPaths env).find? files.isFile with
    | some path => .ok path
    | none =>
      .error (.config
        ("No password hash found; pass --password-hash-file or create ~/.config/" ++ programName ++
          "/password-hash"))

/-- Reads a text file that the settings depend on. -/
def readText (files : FileTree) (path : String) : Except Error String :=
  match files.read path with
  | .ok text => .ok text
  | .error fault => .error (.config ("Failed to read " ++ path ++ ": " ++ fault.message))

/-- The arguments that a config file stands for. -/
def readArguments (files : FileTree) (path : String) : Logged (Except Error (List String)) :=
  match readText files path with
  | .error e => pure (.error e)
  | .ok text => do
    let arguments := argumentsOfText text
    logDebug .configFiles ("Loaded " ++ toString arguments.length ++ " options from " ++ path)
    pure (.ok arguments)

/-- The arguments of the file, then those of the command line, so that the latter win. -/
def mergedArguments (program : String) (file commandLine : List String) : List String :=
  program :: file ++ commandLine

end Settings

end ScreenLocker
