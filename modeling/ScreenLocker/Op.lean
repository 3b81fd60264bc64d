import ScreenLocker.Error
import ScreenLocker.Log

/-! Operations on a state. `Op σ α` turns a state into a result and a new state and may log; `Try σ α` may
also fail, and then keeps what it had done to the state. `Part` names a component of a larger state and lets
an operation on the component run on the whole. -/

namespace ScreenLocker

abbrev Op (σ α : Type) := StateT σ Logged α

abbrev Try (σ α : Type) := ExceptT Error (Op σ) α

/-- The computations that an operation on a `σ` can be a step of. -/
class Hosts (σ : outParam Type) (m : Type → Type) where
  host : Op σ α → m α

instance : Hosts σ (StateT σ Logged) := ⟨id⟩

instance : Hosts σ (ExceptT ε (StateT σ Logged)) := ⟨ExceptT.lift⟩

/-- A component of type `τ` inside a state of type `σ`. -/
structure Part (σ τ : Type) where
  get : σ → τ
  put : τ → σ → σ

namespace Part

/-- Runs an operation on the component and puts back what it leaves. -/
def lift (p : Part σ τ) (x : Op τ α) : Op σ α := fun s => do
  let (a, t) ← x (p.get s)
  pure (a, p.put t s)

/-- `lift`, wherever an operation on the whole state can stand. -/
def on {m : Type → Type} [Hosts σ m] (p : Part σ τ) (x : Op τ α) : m α := Hosts.host (p.lift x)

/-- `lift` for an operation that may fail. -/
def attempt (p : Part σ τ) (x : ExceptT ε (Op τ) α) : ExceptT ε (Op σ) α := ExceptT.mk (p.lift x.run)

def left : Part (σ × τ) σ := ⟨Prod.fst, fun a s => (a, s.2)⟩

def right : Part (σ × τ) τ := ⟨Prod.snd, fun b s => (s.1, b)⟩

end Part

end ScreenLocker
