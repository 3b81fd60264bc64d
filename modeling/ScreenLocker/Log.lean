/-! Log lines as data: a computation that logs is its value together with the entries it wrote,
oldest first. Two runs can then be compared line by line. -/

namespace ScreenLocker

/-- The name under which the program appears in log targets, paths and messages. -/
def programName : String := "rustlock"

inductive Level where
  | error
  | warn
  | info
  | debug
deriving DecidableEq, Repr

/-- The parts of the program that log. Filters select them by `target`. -/
inductive Component where
  | commandLine
  | configFiles
  | settings
  | memory
  | signals
  | privileges
  | authentication
  | channel
  | worker
  | verifier
  | session
  | outputs
  | core
  | loop
  | readiness
  | daemon
  | dispatch
  | keyboard
  | display
  | connection
deriving DecidableEq, Repr

def Component.path : Component → String
  | commandLine => "cli"
  | configFiles => "config::loader"
  | settings => "config::types"
  | memory => "kernel::memlock"
  | signals => "kernel::signal"
  | privileges => "kernel::credentials::transition"
  | authentication => "auth::state"
  | channel => "auth::channel"
  | worker => "auth::worker"
  | verifier => "auth::verifier"
  | session => "session::lock"
  | outputs => "session::registry"
  | core => "core::context"
  | loop => "exec::lock_loop"
  | readiness => "exec::readiness"
  | daemon => "exec::daemonize"
  | dispatch => "wayland::dispatch"
  | keyboard => "wayland::keyboard"
  | display => "wayland::backend"
  | connection => "wayland::connection"

/-- What a log filter compares its directives with. -/
def Component.target (c : Component) : String := programName ++ "::" ++ c.path

structure Entry where
  level : Level
  source : Component
  text : String
deriving DecidableEq, Repr

/-- A value and the entries written on the way to it. -/
structure Logged (α : Type u) where
  value : α
  entries : List Entry

namespace Logged

instance : Monad Logged where
  pure a := ⟨a, []⟩
  bind x f :=
    let ⟨a, before⟩ := x
    let ⟨b, after⟩ := f a
    ⟨b, before ++ after⟩

instance : LawfulMonad Logged := LawfulMonad.mk' Logged
  (by intro α x; simp [Functor.map])
  (by intro α β a f; simp [Bind.bind, Pure.pure])
  (by intro α β γ x f g; simp [Bind.bind])

@[simp] theorem value_pure (a : α) : (pure a : Logged α).value = a := rfl

@[simp] theorem entries_pure (a : α) : (pure a : Logged α).entries = [] := rfl

@[simp] theorem value_bind (x : Logged α) (f : α → Logged β) :
    (x >>= f).value = (f x.value).value := rfl

@[simp] theorem entries_bind (x : Logged α) (f : α → Logged β) :
    (x >>= f).entries = x.entries ++ (f x.value).entries := rfl

def write (level : Level) (source : Component) (text : String) : Logged Unit :=
  ⟨(), [⟨level, source, text⟩]⟩

end Logged

variable {m : Type → Type u} [MonadLiftT Logged m]

def logError (source : Component) (text : String) : m Unit :=
  liftM (Logged.write .error source text)

def logWarn (source : Component) (text : String) : m Unit :=
  liftM (Logged.write .warn source text)

def logInfo (source : Component) (text : String) : m Unit :=
  liftM (Logged.write .info source text)

def logDebug (source : Component) (text : String) : m Unit :=
  liftM (Logged.write .debug source text)

end ScreenLocker
