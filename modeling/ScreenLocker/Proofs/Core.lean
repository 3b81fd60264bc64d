import ScreenLocker.Core.Verified
import ScreenLocker.Proofs.Auth
import ScreenLocker.Proofs.Channel
import ScreenLocker.Proofs.Run

/-! The locker as a system that takes events. Only an input or a verdict touches the attempt, the
sink or the grounds for leaving as authenticated; all other events are `Aside`. -/

namespace ScreenLocker.Core

variable {β O S σ V : Type}

/-- What can happen to a locker. Verdicts come in a form of their own, `V`: as such, or as something
to be read. -/
inductive Event (O V : Type) where
  | start
  | lock (event : LockEvent)
  | added (id : OutputId) (output : O)
  | output (id : OutputId) (event : OutputEvent)
  | removed (id : OutputId)
  | configure (id : OutputId) (event : Configure)
  | input (event : Input)
  | judged (v : V)
  | cancel
  | redraw
  | shutdown
  | takeFatal
  | takeNewlyLocked

inductive Answer where
  | done
  | failed (e : Error)
  | fatal (e : Option Error)
  | newlyLocked (b : Bool)
deriving DecidableEq

def Answer.ofResult : Except Error Unit → Answer
  | .ok () => done
  | .error e => failed e

/-- A locker that has done nothing yet. -/
def fresh (backend : β) (sink : σ) (buffer : SecureBuffer) (ignoreEmpty : Bool)
    (palette : Palette) : Core β O S σ :=
  { backend, sink, auth := { buffer, ignoreEmpty }, palette }

def perform [Compositor β O S] [CredentialSink σ] (judge : V → Try (Core β O S σ) Unit) :
    Event O V → Op (Core β O S σ) Answer
  | .start => Answer.ofResult <$> start.run
  | .lock event => (fun _ => .done) <$> onLockEvent event
  | .added id output => (fun _ => .done) <$> onOutputAdded id output
  | .output id event => (fun _ => .done) <$> onOutputEvent id event
  | .removed id => (fun _ => .done) <$> onOutputRemoved id
  | .configure id event => (fun _ => .done) <$> onConfigure id event
  | .input event => (fun _ => .done) <$> onInput event
  | .judged v => Answer.ofResult <$> (judge v).run
  | .cancel => (fun _ => .done) <$> onCancel
  | .redraw => Answer.ofResult <$> Core.redraw.run
  | .shutdown => Answer.ofResult <$> Core.shutdown.run
  | .takeFatal => .fatal <$> Core.takeFatal
  | .takeNewlyLocked => .newlyLocked <$> Core.takeNewlyLocked

/-- The locker with an error put aside, unless there is one already. -/
def parked (r : Except Error Unit) (c : Core β O S σ) : Core β O S σ :=
  { c with fatal := c.fatal.or (match r with | .ok () => none | .error e => some e) }

theorem outcome_park (r : Except Error Unit) (c : Core β O S σ) :
    outcome (park r) c = ((), parked r c) := by
  cases r with
  | ok u => simp [park, parked]
  | error e =>
    cases hfatal : c.fatal with
    | none => simp [park, parked, hfatal]
    | some first =>
      simp [park, parked, hfatal]
      rw [← hfatal]

theorem outcome_parking (x : Try (Core β O S σ) Unit) (c : Core β O S σ) :
    outcome (parking x) c = ((), parked (tried x c).1 (tried x c).2) := by
  simp [parking, outcome_park]

theorem outcome_requestExit (reason : ExitReason) (c : Core β O S σ) :
    outcome (requestExit reason) c = ((), { c with exit := c.exit.or (some reason) }) := by
  cases hexit : c.exit with
  | none => simp [requestExit, hexit]
  | some first =>
    simp [requestExit, hexit]
    rw [← hexit]

/-- What an event may change that leaves the attempt alone. It may be the cause of leaving, but not
as one who has been authenticated. -/
structure Aside (c c' : Core β O S σ) : Prop where
  auth : c'.auth = c.auth
  sink : c'.sink = c.sink
  exit : c'.exit = c.exit ∨ c.exit = none ∧ c'.exit ≠ some .authenticated

instance : Std.Refl (Aside : Core β O S σ → Core β O S σ → Prop) := ⟨fun _ => ⟨rfl, rfl, .inl rfl⟩⟩

instance : Trans (Aside : Core β O S σ → Core β O S σ → Prop) Aside Aside where
  trans := by
    intro a b c hab hbc
    refine ⟨hbc.auth.trans hab.auth, hbc.sink.trans hab.sink, ?_⟩
    rcases hab.exit with hab | ⟨hnone, hab⟩
    · rw [← hab]
      exact hbc.exit
    · rcases hbc.exit with hbc | ⟨-, hbc⟩
      · exact .inr ⟨hnone, hbc ▸ hab⟩
      · exact .inr ⟨hnone, hbc⟩

theorem aside_parking {x : Try (Core β O S σ) Unit} (h : Within Aside x.run) :
    Within Aside (parking x) := by
  intro c
  rw [outcome_parking]
  have step : Aside c (tried x c).2 := h c
  exact ⟨step.auth, step.sink, step.exit⟩

theorem aside_requestExit {reason : ExitReason} (h : reason ≠ .authenticated) :
    Within Aside (requestExit reason : Op (Core β O S σ) Unit) := by
  intro c
  rw [outcome_requestExit]
  refine ⟨rfl, rfl, ?_⟩
  cases hexit : c.exit with
  | none => exact .inr ⟨rfl, by simpa using h⟩
  | some first => exact .inl rfl

theorem aside_covering {α : Type} (x : Op (Outputs O S × β) α) :
    Within Aside (covering.on x : Op (Core β O S σ) α) := fun _ => ⟨rfl, rfl, .inl rfl⟩

theorem aside_coveringTry {α : Type} (x : Try (Outputs O S × β) α) :
    Within Aside (covering.attempt x : Try (Core β O S σ) α).run := fun _ => ⟨rfl, rfl, .inl rfl⟩

theorem aside_locking {α : Type} (x : Op (LockPhase × β) α) :
    Within Aside (locking.on x : Op (Core β O S σ) α) := fun _ => ⟨rfl, rfl, .inl rfl⟩

theorem aside_lockingTry {α : Type} (x : Try (LockPhase × β) α) :
    Within Aside (locking.attempt x : Try (Core β O S σ) α).run := fun _ => ⟨rfl, rfl, .inl rfl⟩

theorem aside_cancel : Within Aside (onCancel : Op (Core β O S σ) Unit) :=
  Within.bind (Within.log _) fun _ => aside_requestExit (by simp)

variable [Compositor β O S]

/-- A repaint changes the outputs and what the compositor has been asked, and nothing else. -/
theorem tried_redraw (c : Core β O S σ) :
    tried redraw c =
      let painted := tried (Outputs.render c.fill) (c.outputs.damageAll, c.backend)
      (painted.1.map fun _ => (), { c with outputs := painted.2.1, backend := painted.2.2 }) := by
  have hfill : Core.fill { c with outputs := c.outputs.damageAll } = c.fill := rfl
  simp only [redraw, tried_bind, tried_modify, tried_get, tried_attempt, covering, hfill]
  cases (tried (Outputs.render c.fill) (c.outputs.damageAll, c.backend)).1 <;> rfl

theorem aside_redraw : Within Aside (redraw : Try (Core β O S σ) Unit).run := by
  intro c
  rw [outcome_run, tried_redraw]
  exact ⟨rfl, rfl, .inl rfl⟩

theorem aside_start : Within Aside (start : Try (Core β O S σ) Unit).run :=
  Within.tryBind (aside_lockingTry _) fun _ => aside_coveringTry _

theorem aside_lock (event : LockEvent) :
    Within Aside (onLockEvent event : Op (Core β O S σ) Unit) := by
  refine Within.bind (aside_locking _) fun r => ?_
  match r with
  | .ok .none => exact Within.pure ()
  | .ok .secured => exact fun c => ⟨rfl, rfl, .inl rfl⟩
  | .ok .endedByCompositor =>
    exact Within.bind (aside_covering _) fun _ => aside_requestExit (by simp)
  | .error e =>
    intro c
    rw [outcome_park]
    exact ⟨rfl, rfl, .inl rfl⟩

theorem aside_output (id : OutputId) (event : OutputEvent) :
    Within Aside (onOutputEvent id event : Op (Core β O S σ) Unit) := by
  refine Within.bind Within.get fun c => aside_parking ?_
  refine Within.tryBind (aside_coveringTry _) fun _ => ?_
  by_cases hdone : event = .done
  · simp only [hdone, if_true]
    exact Within.tryBind (aside_coveringTry _) fun _ => Within.pure _
  · simp only [hdone, if_false]
    exact Within.pure _

theorem aside_configure (id : OutputId) (event : Configure) :
    Within Aside (onConfigure id event : Op (Core β O S σ) Unit) :=
  Within.bind Within.get fun _ => aside_parking (aside_coveringTry _)

theorem aside_shutdown : Within Aside (shutdown : Try (Core β O S σ) Unit).run := by
  refine Within.tryBind (fun c => ⟨rfl, rfl, .inl rfl⟩) fun _ => ?_
  refine Within.tryBind (fun c => ⟨rfl, rfl, .inl rfl⟩) fun _ => ?_
  refine Within.tryBind (fun c => ⟨rfl, rfl, .inl rfl⟩) fun _ => ?_
  exact fun c => ⟨rfl, rfl, .inl rfl⟩

/-- Events that neither enter anything nor bring a verdict. -/
def Event.IsAside : Event O V → Prop
  | .input _ | .judged _ => False
  | _ => True

variable [CredentialSink σ]

theorem aside_perform (judge : V → Try (Core β O S σ) Unit) {e : Event O V} (he : e.IsAside) :
    Within Aside (perform judge e) := by
  cases e with
  | start => exact Within.map _ aside_start
  | lock event => exact Within.map _ (aside_lock event)
  | added id output => exact Within.map _ (aside_covering _)
  | output id event => exact Within.map _ (aside_output id event)
  | removed id => exact Within.map _ (Within.bind (aside_covering _) fun _ => Within.pure _)
  | configure id event => exact Within.map _ (aside_configure id event)
  | input event => exact he.elim
  | judged v => exact he.elim
  | cancel => exact Within.map _ aside_cancel
  | redraw => exact Within.map _ aside_redraw
  | shutdown => exact Within.map _ aside_shutdown
  | takeFatal => exact Within.map _ fun c => ⟨rfl, rfl, .inl rfl⟩
  | takeNewlyLocked => exact Within.map _ fun c => ⟨rfl, rfl, .inl rfl⟩

end ScreenLocker.Core
