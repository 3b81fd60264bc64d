import Mathlib.Algebra.Group.Nat.Defs
import ScreenLocker.Proofs.Auth
import ScreenLocker.Proofs.Run

/-! Submissions and verdicts take turns. Before any sink, and whatever inputs and verdicts come when,
there is one submission without a verdict while the phase is `validating` and none otherwise, so the
next verdict can only be about the last submission. -/

namespace ScreenLocker

/-- A sink under watch: what it was given, oldest first, and whether it took it. -/
structure Watched (S : Type) where
  sink : S
  given : List (Bytes × Bool) := []

namespace Watched

variable {S : Type}

def inner : Part (Watched S) S where
  get w := w.sink
  put s w := { w with sink := s }

instance [CredentialSink S] : CredentialSink (Watched S) where
  submit credential := ExceptT.mk do
    let r ← inner.on (CredentialSink.submit credential : Try S Unit).run
    modify fun w => { w with given := w.given ++ [(credential, r.isOk)] }
    pure r

/-- The sink answers as it would unwatched. -/
theorem tried_submit [CredentialSink S] (credential : Bytes) (w : Watched S) :
    tried (CredentialSink.submit credential) w =
      ((tried (CredentialSink.submit credential) w.sink).1,
        ⟨(tried (CredentialSink.submit credential) w.sink).2,
          w.given ++ [(credential, (tried (CredentialSink.submit credential) w.sink).1.isOk)]⟩) :=
  rfl

theorem given_answered [CredentialSink S] {credential : Bytes} {w w' : Watched S} {r : Except Error Unit}
    (h : tried (CredentialSink.submit credential) w = (r, w')) :
    w'.given = w.given ++ [(credential, r.isOk)] := by
  rw [tried_submit] at h
  obtain ⟨rfl, rfl⟩ := Prod.mk.inj h
  rfl

/-- How many submissions the sink took. -/
def taken (w : Watched S) : Nat := w.given.countP (·.2)

end Watched

namespace Auth

abbrev Step (S : Type) := Moment (Auth × Watched S) Event (Except Error AuthOutcome)

variable {S : Type}

/-- A verdict that was accepted. -/
def Step.judges (m : Step S) : Bool :=
  match m.event, m.answer with
  | .verdict _, .ok _ => true
  | _, _ => false

/-- A verdict against the user that was accepted. -/
def Step.condemns (m : Step S) : Bool :=
  match m.event, m.answer with
  | .verdict .failure, .ok _ => true
  | _, _ => false

/-- The books of a run: what the sink took against the verdicts that came, and the verdicts against the
user. -/
structure Balanced (ms : List (Step S)) (s : Auth × Watched S) : Prop where
  pending : s.2.taken = ms.countP Step.judges + (if s.1.phase = .validating then 1 else 0)
  failed : s.1.failedAttempts = Nat.min (ms.countP Step.condemns) maxFailedAttempts

/-- An input that the sink never hears of leaves the books as they are. -/
theorem Balanced.aside {ms : List (Step S)} {a a' : Auth} {w : Watched S} {event : Input}
    {answer : Except Error AuthOutcome} (h : Balanced ms (a, w))
    (hphase : a'.phase = .validating ↔ a.phase = .validating)
    (hfailed : a'.failedAttempts = a.failedAttempts) :
    Balanced (ms ++ [⟨(a, w), .input event, answer, (a', w)⟩]) (a', w) where
  pending := by
    simp only [List.countP_append, List.countP_singleton, Step.judges, hphase]
    exact h.pending
  failed := by
    simp only [List.countP_append, List.countP_singleton, Step.condemns, hfailed]
    exact h.failed

/-- What one step may do to phase, count and sink. -/
structure Disciplined (m : Step S) : Prop where
  counted : m.before.1.failedAttempts ≤ m.after.1.failedAttempts
  ignored : ∀ event, m.event = .input event → m.before.1.phase = .validating →
    m.answer = .ok .unchanged ∧ m.after = m.before
  unexpected : ∀ v, m.event = .verdict v → m.before.1.phase ≠ .validating →
    m.answer = .error .unexpectedVerdict ∧ m.after = m.before
  entered : m.before.1.phase ≠ .validating → m.after.1.phase = .validating →
    m.event = .input .submit ∧
      m.after.2.given = m.before.2.given ++ [(m.before.1.buffer.content, true)]
  left : m.before.1.phase = .validating → m.after.1.phase ≠ .validating → m.judges = true
  refused : ∀ credential, m.after.2.given = m.before.2.given ++ [(credential, false)] →
    (∃ e, m.answer = .error e) ∧ m.after.1.phase = m.before.1.phase ∧
      m.after.1.failedAttempts = m.before.1.failedAttempts

/-- An edit of the credential: the sink hears nothing, and no verification is under way before or
after. -/
theorem disciplined_edit {a a' : Auth} {w : Watched S} (event : Input) (answer : AuthOutcome)
    (hquiet : a.phase ≠ .validating) (hquiet' : a'.phase ≠ .validating)
    (hfailed : a'.failedAttempts = a.failedAttempts) :
    Disciplined ⟨(a, w), .input event, .ok answer, (a', w)⟩ where
  counted := Nat.le_of_eq hfailed.symm
  ignored := fun _ _ hbusy => absurd hbusy hquiet
  unexpected := fun _ hverdict => by simp at hverdict
  entered := fun _ hbusy => absurd hbusy hquiet'
  left := fun hbusy => absurd hbusy hquiet
  refused := fun _ hgiven => by simp at hgiven

theorem min_succ_min (n limit : Nat) : Nat.min (Nat.min n limit + 1) limit = Nat.min (n + 1) limit := by
  change min (min n limit + 1) limit = min (n + 1) limit
  omega

variable [CredentialSink S]

theorem Balanced.next {ms : List (Step S)} {s : Auth × Watched S} (h : Balanced ms s) (e : Event) :
    Balanced (ms ++ [Run.moment perform s e]) (Run.moment perform s e).after := by
  obtain ⟨a, w⟩ := s
  have hmoved := moved_perform e a w
  rw [Run.moment]
  rcases hstep : outcome (perform e) (a, w) with ⟨answer, after⟩
  rw [hstep] at hmoved
  obtain ⟨hpending, hfailed⟩ := h
  dsimp only at hpending hfailed
  cases hmoved with
  | ignored => exact Balanced.aside ⟨hpending, hfailed⟩ Iff.rfl rfl
  | inserted _ _ quiet => exact Balanced.aside ⟨hpending, hfailed⟩ (iff_of_false (by simp) quiet) rfl
  | dropped => exact Balanced.aside ⟨hpending, hfailed⟩ Iff.rfl rfl
  | erased quiet => exact Balanced.aside ⟨hpending, hfailed⟩ (iff_of_false (by simp) quiet) rfl
  | emptied quiet => exact Balanced.aside ⟨hpending, hfailed⟩ (iff_of_false (by simp) quiet) rfl
  | cleared _ quiet => exact Balanced.aside ⟨hpending, hfailed⟩ (iff_of_false (by simp) quiet) rfl
  | withheld => exact Balanced.aside ⟨hpending, hfailed⟩ Iff.rfl rfl
  | sent w' quiet took =>
    rw [if_neg quiet] at hpending
    constructor
    · have hgiven : w'.given = w.given ++ [(_, true)] := Watched.given_answered took
      simpa [Watched.taken, hgiven, Step.judges] using hpending
    · simpa [Step.condemns] using hfailed
  | refused w' e quiet failed =>
    rw [if_neg quiet] at hpending
    constructor
    · have hgiven : w'.given = w.given ++ [(_, false)] := Watched.given_answered failed
      simpa [Watched.taken, hgiven, Step.judges, quiet] using hpending
    · simpa [Step.condemns] using hfailed
  | accepted busy =>
    rw [if_pos busy] at hpending
    constructor
    · simpa [Step.judges] using hpending
    · simpa [Step.condemns] using hfailed
  | rejected busy =>
    rw [if_pos busy] at hpending
    constructor
    · simpa [Step.judges] using hpending
    · simp only [List.countP_append, List.countP_singleton, Step.condemns, if_true]
      rw [hfailed]
      exact min_succ_min _ _
  | unexpected v quiet =>
    constructor
    · simpa [Step.judges] using hpending
    · cases v <;> simpa [Step.condemns] using hfailed

theorem disciplined_perform {a : Auth} {w : Watched S} (h : a.failedAttempts ≤ maxFailedAttempts)
    (e : Event) : Disciplined (Run.moment perform (a, w) e) := by
  have hmoved := moved_perform e a w
  rw [Run.moment]
  rcases hstep : outcome (perform e) (a, w) with ⟨answer, after⟩
  rw [hstep] at hmoved
  cases hmoved with
  | ignored event busy =>
    exact ⟨Nat.le_refl _, fun _ _ _ => ⟨rfl, rfl⟩, fun _ hverdict => by simp at hverdict,
      fun quiet => absurd busy quiet, fun _ hleft => absurd busy hleft,
      fun _ hgiven => by simp at hgiven⟩
  | inserted _ _ quiet => exact disciplined_edit _ _ quiet (by simp) rfl
  | dropped _ _ _ quiet => exact disciplined_edit _ _ quiet quiet rfl
  | erased quiet => exact disciplined_edit _ _ quiet (by simp) rfl
  | emptied quiet => exact disciplined_edit _ _ quiet (by simp) rfl
  | cleared _ quiet => exact disciplined_edit _ _ quiet (by simp) rfl
  | withheld quiet => exact disciplined_edit _ _ quiet quiet rfl
  | sent w' quiet taken =>
    have hgiven : w'.given = w.given ++ [(_, true)] := Watched.given_answered taken
    exact ⟨Nat.le_refl _, fun _ _ busy => absurd busy quiet, fun _ hverdict => by simp at hverdict,
      fun _ _ => ⟨rfl, hgiven⟩, fun busy => absurd busy quiet,
      fun _ hrefused => by simp [hgiven] at hrefused⟩
  | refused w' e quiet failed =>
    exact ⟨Nat.le_refl _, fun _ _ busy => absurd busy quiet, fun _ hverdict => by simp at hverdict,
      fun _ busy => absurd busy quiet, fun busy => absurd busy quiet,
      fun _ _ => ⟨⟨e, rfl⟩, rfl, rfl⟩⟩
  | accepted busy =>
    exact ⟨Nat.le_refl _, fun _ hinput => by simp at hinput, fun _ _ quiet => absurd busy quiet,
      fun quiet => absurd busy quiet, fun _ _ => rfl, fun _ hgiven => by simp at hgiven⟩
  | rejected busy =>
    have hcounted : a.failedAttempts ≤ Nat.min (a.failedAttempts + 1) maxFailedAttempts :=
      Nat.le_min.mpr ⟨Nat.le_succ _, h⟩
    exact ⟨hcounted, fun _ hinput => by simp at hinput, fun _ _ quiet => absurd busy quiet,
      fun quiet => absurd busy quiet, fun _ _ => rfl, fun _ hgiven => by simp at hgiven⟩
  | unexpected v quiet =>
    exact ⟨Nat.le_refl _, fun _ hinput => by simp at hinput, fun _ _ _ => ⟨rfl, rfl⟩,
      fun _ busy => absurd busy quiet, fun busy => absurd busy quiet,
      fun _ hgiven => by simp at hgiven⟩

/-- The sink has taken one submission more than there were verdicts while a verification is under way,
and as many as there were verdicts otherwise. The count of failures is that of the verdicts against the
user, as far as 32 bits go, and every step keeps to its discipline. -/
theorem one_verdict_per_submission (sink : S) (buffer : SecureBuffer) (ignoreEmpty : Bool)
    (es : List Event) :
    let start : Auth × Watched S := ({ buffer, ignoreEmpty }, { sink })
    let ms : List (Step S) := Run.moments perform es start
    let last := Run.final perform es start
    last.2.taken = ms.countP Step.judges + (if last.1.phase = .validating then 1 else 0) ∧
    last.1.failedAttempts = Nat.min (ms.countP Step.condemns) (2 ^ 32 - 1) ∧
    ∀ m ∈ ms, Disciplined m := by
  intro start ms last
  have hstart : Balanced [] start := ⟨rfl, rfl⟩
  have hlast : Balanced ms last := Run.holds_final (fun _ _ e h => h.next e) es hstart
  refine ⟨hlast.pending, hlast.failed, ?_⟩
  intro m hm
  obtain ⟨pre, hbefore, hmoment⟩ := Run.holds_at (fun _ _ e h => h.next e) hstart hm
  have hlimit : m.before.1.failedAttempts ≤ maxFailedAttempts := by
    rw [hbefore.failed]
    exact Nat.min_le_right _ _
  rw [hmoment]
  exact disciplined_perform hlimit m.event

example :
    let start : Auth × Watched SubmissionRecord :=
      ({ buffer := ⟨zeros 8, 0, 64, 0, {}⟩, ignoreEmpty := true },
        { sink := { armed := [(0, .lockRejected)] } })
    let last := Run.final perform
      [.input .submit, .input (.insert [97]), .input .submit, .input (.insert [98]), .input .submit,
        .input (.insert [99]), .verdict .failure, .verdict .success] start
    last.2.given = [([97], false), ([98], true)] ∧ last.1.phase = .invalid ∧
      last.1.failedAttempts = 1 := by
  decide +kernel

end Auth

end ScreenLocker
