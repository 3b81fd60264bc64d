import ScreenLocker.Proofs.RecordedCore

/-! Every output that is ready is covered while the lock is held. Session and outputs change at
different events, so what holds of the outputs is said for the phase the session is in. -/

namespace ScreenLocker.Coverage

open RecordedCore
open Outputs (Lit)

variable {σ : Type}

/-- The outputs are as they should be in the phase the session is in. -/
def Covered (c : RecordedCore σ) : Prop := Lit c.session.isActive (c.outputs, c.backend)

theorem covered_steady {c c' : RecordedCore σ} (h : Steady c c') (hcovered : Covered c) :
    Covered c' := by
  unfold Covered
  rw [h.session]
  exact h.outputs _ hcovered

theorem covered_empty {c : RecordedCore σ} (h : c.outputs.entries = []) : Covered c := by
  intro e he
  rw [h] at he
  exact absurd he List.not_mem_nil

theorem covered_start {c : RecordedCore σ} (h : Covered c) : Covered (tried Core.start c).2 := by
  rw [Core.tried_start]
  split
  · next hidle =>
    rcases tried (Compositor.requestLock : Try Recorder Unit) c.backend with ⟨r, asked⟩
    have hasked : Lit false (c.outputs, asked) := Lit.inactive h asked
    cases r with
    | ok u => exact Outputs.lit_ensureSurfaces hasked
    | error e =>
      unfold Covered
      rw [hidle]
      exact hasked
  · exact h

theorem covered_lock {c : RecordedCore σ} (event : LockEvent) (h : Covered c) :
    Covered (outcome (Core.onLockEvent event) c).2 := by
  rw [Core.outcome_onLockEvent]
  split
  · next hpending =>
    unfold Covered at h
    rw [hpending] at h
    exact h
  · exact Lit.inactive h _
  · exact covered_empty (by rw [Outputs.outcome_teardown])
  · exact h

theorem covered_output {c : RecordedCore σ} (id : OutputId) (event : OutputEvent) (h : Covered c) :
    Covered (outcome (Core.onOutputEvent id event) c).2 := by
  have htaken := Outputs.lit_handleEvent id event h
  have hpainted := Outputs.keeps_render c.fill _ _ htaken
  rw [Core.outcome_onOutputEvent]
  dsimp only
  split
  · exact htaken
  · split
    · exact hpainted
    · exact htaken

/-- Nothing is left to be covered. -/
theorem covered_shutdown (c : RecordedCore σ) : Covered (tried Core.shutdown c).2 := by
  rw [Core.tried_shutdown]
  dsimp only
  split
  · exact covered_empty (by rw [Outputs.outcome_teardown])
  · exact covered_empty (by rw [Outputs.outcome_teardown])

variable [CredentialSink σ]

theorem covered_perform {c : RecordedCore σ} (e : Event) (h : Covered c) :
    Covered (outcome (perform e) c).2 := by
  by_cases hsteady : IsSteady e
  · exact covered_steady (steady_perform hsteady c) h
  cases e with
  | start => exact covered_start h
  | lock event => exact covered_lock event h
  | output id event => exact covered_output id event h
  | shutdown => exact covered_shutdown c
  | _ => exact absurd trivial hsteady

/-- While the lock is asked for or held, every output that is ready has a surface unless the
compositor refused one; and whatever it refused, no output has a surface before it is ready. -/
theorem ready_outputs_covered (armed : List ArmedFailure) (nextHandle : Nat) (sink : σ)
    (buffer : SecureBuffer) (ignoreEmpty : Bool) (palette : Palette) (es : List Event) :
    let start : RecordedCore σ := Core.fresh { armed, nextHandle } sink buffer ignoreEmpty palette
    let last := Run.final perform es start
    (last.session = .pending ∨ last.session = .locked →
      (∀ call ∈ last.backend.calls, call.covers → call.granted) →
      ∀ e ∈ last.outputs.entries, e.ready → e.surface.isSome) ∧
    (∀ e ∈ last.outputs.entries, e.surface.isSome → e.ready) := by
  intro start last
  have hstart : Covered start := by simp [Covered, Lit, start, Core.fresh]
  have hcovered : Covered last :=
    Run.holds_final (P := fun _ c => Covered c) (fun _ c e h => covered_perform e h) es hstart
  refine ⟨fun hphase hunrefused e he => ?_, fun e he => (hcovered e he).1⟩
  have hactive : last.session.isActive := by
    rcases hphase with hphase | hphase
    · rw [hphase]
      rfl
    · rw [hphase]
      rfl
  exact (hcovered e he).2 ⟨hactive, hunrefused⟩

example :
    let start : RecordedCore SubmissionRecord := Core.fresh {} {} ⟨zeros 8, 0, 64, 0, {}⟩ false {}
    let last :=
      Run.final perform [.added 1 7, .output 1 .done, .start, .added 2 8, .output 2 .done] start
    last.session = .pending ∧ last.outputs.entries.map (fun e => (e.ready, e.surface)) =
      [(true, some 1), (true, some 2)] := by
  decide +kernel

end ScreenLocker.Coverage
