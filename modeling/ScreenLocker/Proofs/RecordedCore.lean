import ScreenLocker.Proofs.Session
import ScreenLocker.Proofs.Surfaces

/-! A locker before a compositor that writes down what it is asked and refuses what it is told to.
Most events are steady: they leave the session in its phase, neither get the lock nor give it back,
and take no surface from an output. Four are not, and have equations of their own. -/

namespace ScreenLocker

open Recorder (Adds)
open Outputs (AddsCalls Keeps)

abbrev RecordedCore (σ : Type) := Core Recorder Nat Nat σ

namespace RecordedCore

/-- What can happen to it; verdicts come as such. -/
abbrev Event := Core.Event Nat Verdict

def perform [CredentialSink σ] : Event → Op (RecordedCore σ) Core.Answer :=
  Core.perform Core.onVerdict

variable {σ : Type}

/-- A step that leaves the session in its phase and makes no call for the lock or for a surface. -/
structure Steady (c c' : RecordedCore σ) : Prop where
  session : c'.session = c.session
  calls : Adds Call.Plain c.backend c'.backend
  outputs : Keeps (c.outputs, c.backend) (c'.outputs, c'.backend)

/-- Nothing was done that session, outputs or compositor would notice. -/
theorem Steady.same {c c' : RecordedCore σ} (hsession : c'.session = c.session)
    (houtputs : c'.outputs = c.outputs) (hbackend : c'.backend = c.backend) : Steady c c' where
  session := hsession
  calls := by
    rw [hbackend]
    exact Std.Refl.refl c.backend
  outputs := by
    rw [houtputs, hbackend]
    exact fun _ => id

instance : Std.Refl (Steady : RecordedCore σ → RecordedCore σ → Prop) :=
  ⟨fun _ => Steady.same rfl rfl rfl⟩

instance : Trans (Steady : RecordedCore σ → RecordedCore σ → Prop) Steady Steady where
  trans hab hbc :=
    ⟨hbc.session.trans hab.session, hab.calls.trans hbc.calls,
      fun active h => hbc.outputs active (hab.outputs active h)⟩

theorem steady_covering {α : Type} {x : Op (Outputs Nat Nat × Recorder) α}
    (hcalls : Within (AddsCalls Call.Plain) x) (houtputs : Within Keeps x) :
    Within Steady (Core.covering.on x : Op (RecordedCore σ) α) :=
  fun c => ⟨rfl, hcalls (c.outputs, c.backend), houtputs (c.outputs, c.backend)⟩

theorem steady_parking {x : Try (RecordedCore σ) Unit} (h : Within Steady x.run) :
    Within Steady (Core.parking x) := by
  intro c
  rw [Core.outcome_parking]
  have step : Steady c (tried x c).2 := h c
  exact ⟨step.session, step.calls, step.outputs⟩

theorem steady_requestExit (reason : ExitReason) :
    Within Steady (Core.requestExit reason : Op (RecordedCore σ) Unit) := by
  intro c
  rw [Core.outcome_requestExit]
  exact Steady.same rfl rfl rfl

theorem steady_redraw : Within Steady (Core.redraw : Try (RecordedCore σ) Unit).run := by
  intro c
  rw [outcome_run, Core.tried_redraw]
  refine ⟨rfl, Outputs.adds_render c.fill (c.outputs.damageAll, c.backend), fun active h => ?_⟩
  exact Outputs.keeps_render c.fill _ active (Outputs.keeps_damageAll c.outputs c.backend active h)

theorem steady_apply (result : AuthOutcome) :
    Within Steady (Core.apply result : Try (RecordedCore σ) Unit).run := by
  cases result with
  | unchanged => exact Within.pure _
  | redraw => exact steady_redraw
  | unlock => exact steady_requestExit .authenticated

theorem steady_input [CredentialSink σ] (event : Input) :
    Within Steady (Core.onInput event : Op (RecordedCore σ) Unit) := by
  refine Within.bind Within.get fun c => ?_
  split
  · exact Within.pure _
  · exact steady_parking (Within.tryBind (fun _ => Steady.same rfl rfl rfl) steady_apply)

theorem steady_verdict (v : Verdict) :
    Within Steady (Core.onVerdict v : Try (RecordedCore σ) Unit).run :=
  Within.tryBind (fun _ => Steady.same rfl rfl rfl) steady_apply

theorem steady_configure (id : OutputId) (event : Configure) :
    Within Steady (Core.onConfigure id event : Op (RecordedCore σ) Unit) := by
  refine Within.bind Within.get fun c => steady_parking fun c' => ⟨rfl, ?_, ?_⟩
  · exact Outputs.adds_handleConfigure id event c.fill (c'.outputs, c'.backend)
  · exact Outputs.keeps_handleConfigure id event c.fill (c'.outputs, c'.backend)

/-- Events that neither move the session nor make an output ready. -/
def IsSteady : Event → Prop
  | .start | .lock _ | .output .. | .shutdown => False
  | _ => True

theorem steady_perform [CredentialSink σ] {e : Event} (he : IsSteady e) :
    Within Steady (perform e : Op (RecordedCore σ) _) := by
  cases e with
  | start => exact he.elim
  | lock event => exact he.elim
  | added id output =>
    exact Within.map _ (steady_covering (Outputs.adds_add id output) (Outputs.keeps_add id output))
  | output id event => exact he.elim
  | removed id =>
    have hremove := steady_covering (σ := σ) (Outputs.adds_remove id) (Outputs.keeps_remove id)
    exact Within.map _ (Within.bind hremove fun _ => Within.pure _)
  | configure id event => exact Within.map _ (steady_configure id event)
  | input event => exact Within.map _ (steady_input event)
  | judged v => exact Within.map _ (steady_verdict v)
  | cancel => exact Within.map _ (Within.bind (Within.log _) fun _ => steady_requestExit .cancelled)
  | redraw => exact Within.map _ steady_redraw
  | shutdown => exact he.elim
  | takeFatal => exact Within.map _ fun _ => Steady.same rfl rfl rfl
  | takeNewlyLocked => exact Within.map _ fun _ => Steady.same rfl rfl rfl

end RecordedCore

end ScreenLocker
