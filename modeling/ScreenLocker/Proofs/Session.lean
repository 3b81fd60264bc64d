import ScreenLocker.Proofs.Core
import ScreenLocker.Proofs.Outputs

/-! The events that move the session from phase to phase, as equations: what is asked of the
compositor, in which order, and what is left when it refuses. -/

namespace ScreenLocker

variable {β O S σ : Type} [Compositor β O S]

namespace SessionLock

theorem tried_request (p : LockPhase) (b : β) :
    tried (request : Try (LockPhase × β) Unit) (p, b) =
      if p = .idle then
        match tried (Compositor.requestLock : Try β Unit) b with
        | (.ok (), b) => (.ok (), (.pending, b))
        | (.error e, b) => (.error e, (p, b))
      else (.error (.protocol ("lock already requested (phase " ++ p.describe ++ ")")),
        (p, b)) := by
  by_cases hidle : p = .idle
  · subst hidle
    rcases hasked : tried (Compositor.requestLock : Try β Unit) b with ⟨r, b'⟩
    cases r <;> simp [request, phase, compositor, enter, Part.left, Part.right, hasked]
  · simp [request, hidle]

theorem tried_handle (event : LockEvent) (p : LockPhase) (b : β) :
    tried (handle event : Try (LockPhase × β) LockTransition) (p, b) =
      match event, p with
      | .locked, .pending => (.ok .secured, (.locked, b))
      | .finished, .pending =>
        (.error .lockRejected,
          (.terminated .rejected, (outcome (Compositor.abandon : Op β Unit) b).2))
      | .finished, .locked =>
        (.ok .endedByCompositor,
          (.terminated .clean, (outcome (Compositor.abandon : Op β Unit) b).2))
      | _, p => (.ok .none, (p, b)) := by
  cases event <;> cases p <;> simp [handle, phase, compositor, enter, Part.left, Part.right]

theorem outcome_beginUnlock (p : LockPhase) (b : β) :
    outcome (beginUnlock : Op (LockPhase × β) Unit) (p, b) =
      match p with
      | .locked => ((), (.unlocking, (outcome (Compositor.unlock : Op β Unit) b).2))
      | .pending => ((), (.unlocking, (outcome (Compositor.abandon : Op β Unit) b).2))
      | .idle => ((), (.unlocking, b))
      | p => ((), (p, b)) := by
  cases p <;> simp [beginUnlock, phase, compositor, enter, Part.left, Part.right]

end SessionLock

namespace Core

theorem tried_start (c : Core β O S σ) :
    tried start c =
      if c.session = .idle then
        match tried (Compositor.requestLock : Try β Unit) c.backend with
        | (.ok (), b) =>
          let covered := tried (Outputs.ensureSurfaces : Try (Outputs O S × β) Unit) (c.outputs, b)
          (covered.1,
            { c with session := .pending, outputs := covered.2.1, backend := covered.2.2 })
        | (.error e, b) => (.error e, { c with backend := b })
      else (.error (.protocol ("lock already requested (phase " ++ c.session.describe ++ ")")),
        c) := by
  by_cases hidle : c.session = .idle
  · rcases hasked : tried (Compositor.requestLock : Try β Unit) c.backend with ⟨r, b⟩
    cases r <;> simp [start, locking, covering, SessionLock.tried_request, hidle, hasked]
  · simp [start, locking, covering, SessionLock.tried_request, hidle]

theorem outcome_onLockEvent (event : LockEvent) (c : Core β O S σ) :
    (outcome (onLockEvent event) c).2 =
      match event, c.session with
      | .locked, .pending => { c with session := .locked, newlyLocked := true }
      | .finished, .pending =>
        parked (.error .lockRejected)
          { c with
            session := .terminated .rejected
            backend := (outcome (Compositor.abandon : Op β Unit) c.backend).2 }
      | .finished, .locked =>
        let released := outcome (Outputs.teardown : Op (Outputs O S × β) Unit)
          (c.outputs, (outcome (Compositor.abandon : Op β Unit) c.backend).2)
        { c with
          session := .terminated .clean
          outputs := released.2.1
          backend := released.2.2
          exit := c.exit.or (some .compositorEnded) }
      | _, _ => c := by
  cases event <;> cases hphase : c.session <;>
    simp [onLockEvent, locking, covering, SessionLock.tried_handle, hphase, outcome_park,
      outcome_requestExit] <;>
    simp [← hphase]

/-- The end of a batch is followed by a repaint, unless the batch itself led to an error. -/
theorem outcome_onOutputEvent (id : OutputId) (event : OutputEvent) (c : Core β O S σ) :
    (outcome (onOutputEvent id event) c).2 =
      let taken := tried (Outputs.handleEvent id event c.session.isActive) (c.outputs, c.backend)
      let painted := tried (Outputs.render c.fill) taken.2
      match taken.1 with
      | .error e => parked (.error e) { c with outputs := taken.2.1, backend := taken.2.2 }
      | .ok () =>
        if event = .done then
          parked (painted.1.map fun _ => ())
            { c with outputs := painted.2.1, backend := painted.2.2 }
        else { c with outputs := taken.2.1, backend := taken.2.2 } := by
  unfold onOutputEvent
  rw [outcome_bind, outcome_get]
  dsimp only
  rw [outcome_parking, tried_bind, tried_attempt]
  dsimp only [covering]
  rcases tried (Outputs.handleEvent id event c.session.isActive) (c.outputs, c.backend) with ⟨r, s⟩
  cases r with
  | error e => rfl
  | ok u =>
    dsimp only
    by_cases hdone : event = .done
    · rw [if_pos hdone, if_pos hdone, tried_bind, tried_attempt]
      dsimp only
      rcases tried (Outputs.render c.fill) s with ⟨r, s'⟩
      cases r <;> rfl
    · rw [if_neg hdone, if_neg hdone]
      simp [parked]

/-- Handles are given up whether or not the last flush goes through; the session is over only if it
does. -/
theorem tried_shutdown (c : Core β O S σ) :
    tried shutdown c =
      let begun :=
        (outcome (SessionLock.beginUnlock : Op (LockPhase × β) Unit) (c.session, c.backend)).2
      let released :=
        (outcome (Outputs.teardown : Op (Outputs O S × β) Unit) (c.outputs, begun.2)).2
      match tried (Compositor.flush : Try β Unit) released.2 with
      | (.ok (), b) =>
        (.ok (), { c with session := begun.1.completeUnlock, outputs := released.1, backend := b })
      | (.error e, b) =>
        (.error e, { c with session := begun.1, outputs := released.1, backend := b }) := by
  simp only [shutdown, tried_bind, tried_on, tried_attempt, tried_modify, locking, covering, asking]
  rcases tried (Compositor.flush : Try β Unit) _ with ⟨r, b⟩
  cases r <;> rfl

end Core

end ScreenLocker
