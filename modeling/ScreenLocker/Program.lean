import ScreenLocker.Display.Address
import ScreenLocker.Display.Scripted
import ScreenLocker.Log.Filter
import ScreenLocker.Loop
import ScreenLocker.Options.Merge
import ScreenLocker.Password.Checker
import ScreenLocker.Privilege
import ScreenLocker.Verifier.Process

/-! The program from its command line to its exit code. Everything that a verifier needs is loaded first; then
privileges go, the settings are read, and only then does the locker talk to a compositor. -/

namespace ScreenLocker

/-- What a run of the program finds around it. -/
structure Host where
  program : String := programName
  arguments : List String
  files : FileTree := {}
  homes : HomeEnvironment := {}
  display : Display.Environment := {}
  /-- The log specification. -/
  logSpec : Option String := none
  kernel : FixedKernel := { ids := ⟨0, 0, 0, 0⟩ }
  /-- The compositor that is running, if there is one. -/
  compositor : Option Display.Scripted := none

/-- A line of the error output. -/
inductive Line where
  | entry (e : Entry)
  | plain (text : String)
deriving DecidableEq, Repr

def Line.text : Line → String
  | entry e => e.level.name ++ " " ++ e.text
  | plain text => text

/-- What a run leaves behind. -/
structure Outcome where
  exit : Nat
  output : String := ""
  errors : List Line := []
  /-- What the compositor wrote down. -/
  record : List String := []

namespace Program

/-- What has been made ready before the display is connected. -/
structure Preparation where
  settings : Settings
  judge : Verifier.Judge
  credential : SecureBuffer
  cancellation : Cancellation

def cancelSignal : Signal := ⟨"SIGUSR1"⟩

/-- Steps that log and may fail. -/
abbrev Step := ExceptT Error Logged

/-- An operation on a state of its own, of which only the result counts. -/
def scratch (s : σ) (x : Try σ α) : Step α := ExceptT.mk do pure (← x.run s).1

def orThrow : Except Error α → Step α
  | .ok a => pure a
  | .error e => throw e

/-- Loads what the verifier needs, gives up privileges, and reads the settings. -/
def ready (h : Host) (c : Options.CommandLine) : Step Preparation := do
  let path ← orThrow (Settings.hashFile h.files h.homes c.passwordHashFile)
  let text ← orThrow (Settings.readText h.files path)
  let judge ← orThrow (Password.judgeOf text)
  logDebug .commandLine ("Verifying against " ++ path)
  scratch h.kernel Privilege.drop
  let settings ← ExceptT.mk (Options.loadSettings h.files h.homes h.program h.arguments c)
  logDebug .commandLine ("Configuration: " ++ settings.render)
  match SecureBuffer.create Credential.initialLength settings.maxCredentialLength {} with
  | .error (e, _) => throw (.buffer e)
  | .ok credential =>
    let cancellation : Cancellation := {}
    let cancellation ← scratch cancellation do
      Cancellation.install cancellation.nextDescriptors [cancelSignal]
      get
    pure { settings, judge, credential, cancellation }

/-- A locker with its verifier. -/
abbrev Session := Locker Display.Scripted × VerifierProcess

def locking : Part Session (Locker Display.Scripted) := Part.left

/-- The channel and the process at its other end. -/
def verifying : Part Session (Channel × VerifierProcess) where
  get s := (s.1.core.sink, s.2)
  put t s := ({ s.1 with core := { s.1.core with sink := t.1 } }, t.2)

/-- Signals that the compositor has sent reach the handler. -/
def takeSignals (l : Locker Display.Scripted) : Locker Display.Scripted :=
  let connection := l.core.backend.connection
  { l with
    core := { l.core with
      backend := { l.core.backend with
        connection := { connection with peer := { connection.peer with signals := 0 } } } }
    cancellation := Nat.repeat (Cancellation.raise cancelSignal) connection.peer.signals l.cancellation }

/-- What each wait reports. The verifier takes its time: it answers when there is nothing else to do. -/
def wait : Op Session PollAnswer := do
  modify fun (l, v) => (takeSignals l, v)
  if ((← get).1.report fun _ => none).all Readiness.isEmpty then verifying.on VerifierProcess.serve
  let reported := (← get).1.report fun _ => none
  pure (if reported.all Readiness.isEmpty then .error Errno.io else .ok reported)

/-- A bound on the waits of a run: each takes up what a cue has made the compositor say, a verdict on what was typed,
or a signal. -/
def waitBound (s : Display.Scripted) : Nat := 2 * (s.cues.flatMap fun c => c.say).length + s.cues.length + 2

/-- From the first word with the compositor to the last. -/
def lock (settings : Settings) (waits : Nat) : Try Session ExitReason := do
  locking.attempt (Locker.display.attempt Display.discover)
  locking.attempt (Locker.display.attempt (Core.start : Try (Display.DisplayCore Display.Scripted Channel) Unit))
  Locker.run settings wait waits

def standardOutput : Int := 1

def standardError : Int := 2

/-- The descriptor for the supervisor. A run starts with two that it can write to. -/
def supervisor (settings : Settings) : WriteDescriptor :=
  if settings.readyFd = some standardOutput ∨ settings.readyFd = some standardError then {}
  else { stream := { script := [.fail (.os Errno.badDescriptor)] } }

def session (p : Preparation) (compositor : Display.Scripted) : Session :=
  let auth : Auth := { buffer := p.credential, ignoreEmpty := p.settings.ignoreEmptyPassword }
  let core : Display.DisplayCore Display.Scripted Channel :=
    { backend := Display.Client.connect compositor, sink := {}, auth, palette := p.settings.colors }
  ({ core, cancellation := p.cancellation, supervisor := supervisor p.settings },
    .start p.judge Credential.maxLength)

/-- How a run ends, and the settings and the session if it came to one. -/
structure Ending where
  result : Except Error ExitReason
  session : Option (Settings × Session) := none

namespace Ending

/-- The program went on in the background, and what was started has ended well. -/
def isDetached (e : Ending) : Bool := e.session.any fun (_, l, _) => l.surroundings.sessionLeader

/-- The supervisor has been told that the session is locked, on this descriptor. -/
def told (fd : Int) (e : Ending) : Bool :=
  e.session.any fun (settings, l, _) => settings.readyFd = some fd && !l.supervisor.stream.written.isEmpty

end Ending

def course (h : Host) (c : Options.CommandLine) : Logged Ending := do
  match ← (ready h c).run with
  | .error e => pure ⟨.error e, none⟩
  | .ok p =>
    match h.compositor, Display.connect (fun _ => false) h.display with
    | none, .error e => pure ⟨.error e, none⟩
    | none, .ok _ => pure ⟨.error Display.AddressError.noCompositor.toError, none⟩
    | some compositor, _ =>
      let (result, s) ← (lock p.settings (waitBound compositor)).run (session p compositor)
      pure ⟨result, some (p.settings, s)⟩

/-- What the error output shows of the log. Once the program has detached its parent is gone and its own output is
discarded; a supervisor that is told on standard error gets an empty line, and the descriptor is closed. -/
def shown (filter : LogFilter) (onErrors : Bool) : List Entry → List Line
  | [] => []
  | e :: rest =>
    if e.source = .connection then .plain e.text :: shown filter onErrors rest
    else if onErrors && e.source = .readiness then [.plain ""]
    else
      let first := if filter.shows e then [Line.entry e] else []
      if e.source = .daemon then first else first ++ shown filter onErrors rest

/-- The report of a failure to start. -/
def startupReport (e : Error) : List Line :=
  [.plain ("Error: " ++ programName ++ " failed to start"), .plain "", .plain "Caused by:"] ++
    (e.message.splitOn "\n").map fun line => .plain ("    " ++ line)

/-- The last entries, and what is printed after them. -/
def verdictOf : Except Error ExitReason → Logged (ExitCode × List Line)
  | .ok reason => do
    logDebug .commandLine ("Exiting: " ++ reason.name)
    pure (.clean, [])
  | .error e =>
    match e.exitCode with
    | .startup => pure (.startup, startupReport e)
    | code => do
      logError .commandLine e.message
      pure (code, [])

/-- A whole run. -/
def run (h : Host) : Outcome :=
  match (Options.parse h.arguments).value with
  | .error e =>
    if e.isRequest then { exit := ExitCode.clean.toNat, output := e.message h.program }
    else { exit := ExitCode.startup.toNat, errors := [.plain (e.message h.program)] }
  | .ok c =>
    let (filter, warnings) := LogFilter.ofSpec (if c.debug then Level.debug.rank else Level.error.rank) h.logSpec
    let whole : Logged (Ending × ExitCode × List Line) := do
      let ending ← course h c
      pure (ending, ← verdictOf ending.result)
    let (ending, code, report) := whole.value
    { exit := if ending.isDetached then ExitCode.clean.toNat else code.toNat
      output := if ending.told standardOutput then "\n" else ""
      errors :=
        warnings.map .plain ++ shown filter (ending.told standardError) whole.entries ++
          (if ending.isDetached || ending.told standardError then [] else report)
      record := (ending.session.map fun (_, l, _) => l.core.backend.connection.peer.record).getD [] }

end Program

end ScreenLocker
