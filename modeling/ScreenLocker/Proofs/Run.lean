import ScreenLocker.Proofs.Op

/-! Runs of a system that takes one event after another. A run is kept as its moments, oldest first,
so that what is claimed of it can speak of the states around an event and of all that came
before. -/

namespace ScreenLocker

/-- One event of a run, with the states around it and what was answered. -/
structure Moment (σ ε ρ : Type) where
  before : σ
  event : ε
  answer : ρ
  after : σ

namespace Run

variable {σ ε ρ : Type} (step : ε → Op σ ρ)

def moment (s : σ) (e : ε) : Moment σ ε ρ := ⟨s, e, (outcome (step e) s).1, (outcome (step e) s).2⟩

def moments : List ε → σ → List (Moment σ ε ρ)
  | [], _ => []
  | e :: es, s => moment step s e :: moments es (moment step s e).after

/-- The state at the end of a run. -/
def final : List ε → σ → σ
  | [], s => s
  | e :: es, s => final es (moment step s e).after

variable {step} {P : List (Moment σ ε ρ) → σ → Prop}

/-- What holds at the start, and at every moment after it holds of the moments before, holds at the
end. -/
theorem holds_final (next : ∀ ms s e, P ms s → P (ms ++ [moment step s e]) (moment step s e).after)
    (es : List ε) {s : σ} (start : P [] s) : P (moments step es s) (final step es s) := by
  have go : ∀ (es : List ε) ms s, P ms s → P (ms ++ moments step es s) (final step es s) := by
    intro es
    induction es with
    | nil => intro ms s h; simpa [moments, final] using h
    | cons e es ih =>
      intro ms s h
      have := ih _ _ (next ms s e h)
      simpa [moments, final] using this
  simpa using go es [] s start

/-- The same at any moment of the run, of the moments before it and the state it starts in. -/
theorem holds_before (next : ∀ ms s e, P ms s → P (ms ++ [moment step s e]) (moment step s e).after)
    {es : List ε} {s : σ} (start : P [] s) {pre post : List (Moment σ ε ρ)} {m : Moment σ ε ρ}
    (h : moments step es s = pre ++ m :: post) :
    P pre m.before ∧ m = moment step m.before m.event := by
  have go : ∀ (es : List ε) ms s pre, P ms s → moments step es s = pre ++ m :: post →
      P (ms ++ pre) m.before ∧ m = moment step m.before m.event := by
    intro es
    induction es with
    | nil => intro ms s pre _ h; simp [moments] at h
    | cons e es ih =>
      intro ms s pre hP h
      cases pre with
      | nil =>
        obtain ⟨rfl, -⟩ := List.cons.inj h
        exact ⟨by simpa [moment] using hP, rfl⟩
      | cons m' pre =>
        obtain ⟨rfl, rest⟩ := List.cons.inj h
        have := ih _ _ pre (next ms s e hP) rest
        simpa using this
  simpa using go es [] s pre start h

/-- What is carried from step to step holds before each of them. -/
theorem holds_at (next : ∀ ms s e, P ms s → P (ms ++ [moment step s e]) (moment step s e).after)
    {es : List ε} {s : σ} (start : P [] s) {m : Moment σ ε ρ} (h : m ∈ moments step es s) :
    ∃ pre, P pre m.before ∧ m = moment step m.before m.event := by
  obtain ⟨pre, post, hsplit⟩ := List.append_of_mem h
  exact ⟨pre, holds_before next start hsplit⟩

section Kind

variable {Q : Moment σ ε ρ → Prop}
  (next : ∀ ms s e, P ms s → Q (moment step s e) →
    P (ms ++ [moment step s e]) (moment step s e).after)

include next

private theorem next_of_kind (ms : List (Moment σ ε ρ)) (s : σ) (e : ε) (h : (∀ m ∈ ms, Q m) → P ms s)
    (hall : ∀ m ∈ ms ++ [moment step s e], Q m) :
    P (ms ++ [moment step s e]) (moment step s e).after := by
  obtain ⟨hearlier, hlast⟩ := List.forall_mem_append.mp hall
  exact next ms s e (h hearlier) (hlast _ List.mem_cons_self)

/-- What the moments of one kind carry on holds at the end of a run of that kind. -/
theorem holds_final_of_kind (es : List ε) {s : σ} (start : P [] s)
    (hall : ∀ m ∈ moments step es s, Q m) : P (moments step es s) (final step es s) :=
  holds_final (P := fun ms s => (∀ m ∈ ms, Q m) → P ms s) (next_of_kind next) es (fun _ => start) hall

/-- The same before a moment, if those before it are of that kind. -/
theorem holds_before_of_kind {es : List ε} {s : σ} (start : P [] s) {pre post : List (Moment σ ε ρ)}
    {m : Moment σ ε ρ} (h : moments step es s = pre ++ m :: post) (hall : ∀ m ∈ pre, Q m) :
    P pre m.before ∧ m = moment step m.before m.event := by
  obtain ⟨hbefore, hmoment⟩ := holds_before (P := fun ms s => (∀ m ∈ ms, Q m) → P ms s)
    (next_of_kind next) (fun _ => start) h
  exact ⟨hbefore hall, hmoment⟩

end Kind

theorem map_event (es : List ε) (s : σ) : (moments step es s).map Moment.event = es := by
  induction es generalizing s with
  | nil => rfl
  | cons e es ih => rw [moments, List.map_cons, ih, moment]

theorem eq_moment_of_mem {es : List ε} {s : σ} {m : Moment σ ε ρ} (h : m ∈ moments step es s) :
    m = moment step m.before m.event := by
  obtain ⟨-, -, hmoment⟩ := holds_at (P := fun _ _ => True) (fun _ _ _ _ => trivial) trivial h
  exact hmoment

end Run

end ScreenLocker
