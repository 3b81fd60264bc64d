import Mathlib.Data.List.Forall2
import ScreenLocker.Proofs.Run

/-! Two runs side by side. `Twins R x y` says that from states that `R` relates, `x` and `y` log the
same lines and give the same answer, and leave states that `R` relates again. What two operations
read of their states may differ; what they make known of it may not. -/

namespace ScreenLocker

variable {σ τ α γ ε : Type}

def Twins (R : σ → σ → Prop) (x y : Op σ α) : Prop :=
  ∀ s t, R s t →
    (x s).entries = (y t).entries ∧ (outcome x s).1 = (outcome y t).1 ∧
      R (outcome x s).2 (outcome y t).2

/-- An operation that makes known nothing of what `R` leaves open. -/
abbrev Discreet (R : σ → σ → Prop) (x : Op σ α) : Prop := Twins R x x

/-- A component whose states `T` relates where `R` relates the whole, and that can be exchanged for
others that `T` relates. -/
structure Part.Carries (p : Part σ τ) (R : σ → σ → Prop) (T : τ → τ → Prop) : Prop where
  get : ∀ s t, R s t → T (p.get s) (p.get t)
  put : ∀ s t a b, R s t → T a b → R (p.put a s) (p.put b t)

theorem entries_seq (x : Op σ α) (f : α → Op σ γ) (s : σ) :
    ((x >>= f) s).entries = (x s).entries ++ (f (outcome x s).1 (outcome x s).2).entries := rfl

theorem entries_on (p : Part σ τ) (x : Op τ α) (s : σ) :
    ((p.on x : Op σ α) s).entries = (x (p.get s)).entries := List.append_nil _

namespace Twins

variable {R : σ → σ → Prop}

/-- An operation that meets the same state twice does the same twice. -/
theorem eq (x : Op σ α) : Discreet Eq x := by
  rintro s t rfl
  exact ⟨rfl, rfl, rfl⟩

theorem pure (a : α) : Discreet R (Pure.pure a : Op σ α) := fun _ _ h => ⟨rfl, rfl, h⟩

theorem log (x : Logged α) : Discreet R (liftM x : Op σ α) := fun _ _ h => ⟨rfl, rfl, h⟩

theorem change {f g : σ → σ} (h : ∀ s t, R s t → R (f s) (g t)) :
    Twins R (modify f : Op σ PUnit) (modify g) :=
  fun s t hst => ⟨rfl, rfl, h s t hst⟩

theorem bind {x y : Op σ α} {f g : α → Op σ γ} (hx : Twins R x y)
    (hf : ∀ a, Twins R (f a) (g a)) : Twins R (x >>= f) (y >>= g) := by
  intro s t hst
  obtain ⟨hlog, hanswer, hleft⟩ := hx s t hst
  obtain ⟨hlog', hanswer', hleft'⟩ := hf (outcome x s).1 _ _ hleft
  rw [entries_seq, entries_seq, outcome_bind, outcome_bind, ← hanswer, hlog, hlog']
  exact ⟨rfl, hanswer', hleft'⟩

/-- The two may read different states, as long as what they do next agrees. -/
theorem getBind {f g : σ → Op σ α} (h : ∀ s t, R s t → Twins R (f s) (g t)) :
    Twins R (get >>= f) (get >>= g) := by
  intro s t hst
  exact h s t hst s t hst

/-- A step that both take or neither does. -/
theorem when {p : Prop} [Decidable p] {x y : Op σ PUnit} {f g : PUnit → Op σ α} (hx : Twins R x y)
    (hf : Twins R (f ⟨⟩) (g ⟨⟩)) :
    Twins R (if p then x >>= f else f ⟨⟩) (if p then y >>= g else g ⟨⟩) := by
  split
  · exact bind hx fun _ => hf
  · exact hf

theorem map {x y : Op σ α} (f : α → γ) (h : Twins R x y) : Twins R (f <$> x) (f <$> y) := by
  rw [map_eq_pure_bind, map_eq_pure_bind]
  exact bind h fun a => pure (f a)

theorem on {T : τ → τ → Prop} {p : Part σ τ} (hp : p.Carries R T) {x y : Op τ α} (h : Twins T x y) :
    Twins R (p.on x) (p.on y) := by
  intro s t hst
  obtain ⟨hlog, hanswer, hleft⟩ := h _ _ (hp.get s t hst)
  rw [entries_on, entries_on, outcome_on, outcome_on]
  exact ⟨hlog, hanswer, hp.put s t _ _ hst hleft⟩

/-- What cannot fail is the same step of an operation that can. -/
theorem host {x y : Op σ α} (h : Twins R x y) :
    Twins R (liftM x : ExceptT ε (Op σ) α).run (liftM y : ExceptT ε (Op σ) α).run :=
  map Except.ok h

theorem tryOn {T : τ → τ → Prop} {p : Part σ τ} (hp : p.Carries R T) {x y : Op τ α}
    (h : Twins T x y) :
    Twins R (p.on x : ExceptT ε (Op σ) α).run (p.on y : ExceptT ε (Op σ) α).run :=
  host (on hp h)

theorem attempt {T : τ → τ → Prop} {p : Part σ τ} (hp : p.Carries R T)
    {x y : ExceptT ε (Op τ) α} (h : Twins T x.run y.run) :
    Twins R (p.attempt x).run (p.attempt y).run :=
  on hp h

theorem tryPure (a : α) : Discreet R (Pure.pure a : ExceptT ε (Op σ) α).run := pure (Except.ok a)

theorem tryThrow (e : ε) : Discreet R (throw e : ExceptT ε (Op σ) α).run := pure (Except.error e)

theorem tryLog (x : Logged α) : Discreet R (liftM x : ExceptT ε (Op σ) α).run := host (log x)

/-- As the answers agree, both go on or both end. -/
theorem tryBind {x y : ExceptT ε (Op σ) α} {f g : α → ExceptT ε (Op σ) γ} (hx : Twins R x.run y.run)
    (hf : ∀ a, Twins R (f a).run (g a).run) : Twins R (x >>= f).run (y >>= g).run := by
  change Twins R (x.run >>= ExceptT.bindCont f) (y.run >>= ExceptT.bindCont g)
  refine bind hx fun r => ?_
  cases r with
  | ok a => exact hf a
  | error e => exact tryThrow e

theorem tryGetBind {f g : σ → ExceptT ε (Op σ) α} (h : ∀ s t, R s t → Twins R (f s).run (g t).run) :
    Twins R (get >>= f).run (get >>= g).run := by
  intro s t hst
  exact h s t hst s t hst

theorem tryWhen {p : Prop} [Decidable p] {x y : ExceptT ε (Op σ) PUnit}
    {f g : PUnit → ExceptT ε (Op σ) α} (hx : Twins R x.run y.run)
    (hf : Twins R (f ⟨⟩).run (g ⟨⟩).run) :
    Twins R (if p then x >>= f else f ⟨⟩).run (if p then y >>= g else g ⟨⟩).run := by
  split
  · exact tryBind hx fun _ => hf
  · exact hf

theorem trySet {s' t' : σ} (h : R s' t') :
    Twins R (set s' : ExceptT ε (Op σ) PUnit).run (set t' : ExceptT ε (Op σ) PUnit).run :=
  fun _ _ _ => ⟨rfl, rfl, h⟩

theorem tryChange {f g : σ → σ} (h : ∀ s t, R s t → R (f s) (g t)) :
    Twins R (modify f : ExceptT ε (Op σ) PUnit).run (modify g : ExceptT ε (Op σ) PUnit).run :=
  host (change h)

end Twins

namespace Run

variable {ρ : Type} {step : ε → Op σ ρ} {R : σ → σ → Prop} {E : ε → ε → Prop}

/-- Two moments at which the same was logged and answered, and that leave states `R` relates. -/
structure Matching (step : ε → Op σ ρ) (R : σ → σ → Prop) (m m' : Moment σ ε ρ) : Prop where
  entries : (step m.event m.before).entries = (step m'.event m'.before).entries
  answer : m.answer = m'.answer
  after : R m.after m'.after

/-- If events that `E` relates are twins, so are runs of them, moment by moment. -/
theorem matching (hstep : ∀ e e', E e e' → Twins R (step e) (step e')) {es es' : List ε}
    (h : List.Forall₂ E es es') {s t : σ} (hst : R s t) :
    List.Forall₂ (Matching step R) (moments step es s) (moments step es' t) ∧
      R (final step es s) (final step es' t) := by
  induction h generalizing s t with
  | nil => exact ⟨List.Forall₂.nil, hst⟩
  | cons he _ ih =>
    obtain ⟨hlog, hanswer, hafter⟩ := hstep _ _ he s t hst
    obtain ⟨hmoments, hfinal⟩ := ih hafter
    exact ⟨List.Forall₂.cons ⟨hlog, hanswer, hafter⟩ hmoments, hfinal⟩

end Run

end ScreenLocker
