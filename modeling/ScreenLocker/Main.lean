import ScreenLocker.Program

/-! The command line. Only files that the settings may come from are read, and no display is reached from here: a
run gets as far as looking for a compositor. -/

open ScreenLocker

/-- The files among these paths that can be read. -/
def readFiles (paths : List String) : IO (List (String × Option Bytes)) :=
  paths.filterMapM fun (path : String) => do
    try
      let content ← IO.FS.readBinFile path
      pure (some (path, some content.toList))
    catch _ => pure none

def main (arguments : List String) : IO UInt32 := do
  let homes : HomeEnvironment := ⟨← IO.getEnv "HOME", ← IO.getEnv "XDG_CONFIG_HOME"⟩
  let given := match (Options.parse arguments).value with
    | .ok c => c.config.toList ++ c.passwordHashFile.toList
    | .error _ => []
  let files ← readFiles (given ++ Settings.configPaths homes ++ Settings.hashPaths homes)
  let display : Display.Environment :=
    ⟨← IO.getEnv "WAYLAND_SOCKET", ← IO.getEnv "WAYLAND_DISPLAY", ← IO.getEnv "XDG_RUNTIME_DIR"⟩
  let outcome := Program.run
    { arguments, files := .ofPaths files, homes, display, logSpec := ← IO.getEnv "RUST_LOG" }
  IO.print outcome.output
  outcome.errors.forM fun line => IO.eprintln line.text
  pure (.ofNat outcome.exit)
