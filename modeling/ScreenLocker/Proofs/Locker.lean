import ScreenLocker.Proofs.Attempt
import ScreenLocker.Proofs.Books
import ScreenLocker.Proofs.RecordedCore

/-! Whatever happens to a locker, it comes to acts on its outputs and calls for its lock. Verdicts are
read off the sink: a reading is any operation on it that may bring one, so that verdicts given as such,
replies that are read and whatever others do to the sink are all readings. -/

namespace ScreenLocker

namespace Core

variable {β O S σ : Type} [Compositor β O S]

/-- Reads the sink, and takes the verdict if there is one. -/
def onReading (read : Try σ (Option Verdict)) : Try (Core β O S σ) Unit := do
  match ← sinking.attempt read with
  | some v => onVerdict v
  | none => pure ()

/-- A reply of the verifier is one kind of reading. -/
theorem onReply_eq : (onReply : Try (Core β O S Channel) Unit) = onReading Channel.poll := rfl

theorem tried_onReading (read : Try σ (Option Verdict)) (c : Core β O S σ) :
    tried (onReading read) c =
      let r := tried read c.sink
      let c := { c with sink := r.2 }
      match r.1 with
      | .ok (some v) => tried (onVerdict v) c
      | .ok none => (.ok (), c)
      | .error e => (.error e, c) := by
  rcases hread : tried read c.sink with ⟨_ | _ | _, _⟩ <;> simp [onReading, sinking, hread]

/-- A verdict as such is a reading that leaves the sink alone. -/
theorem tried_onReading_pure (v : Verdict) (c : Core β O S σ) :
    tried (onReading (pure (some v))) c = tried (onVerdict v) c := by
  rw [tried_onReading]
  rfl

/-- What an input or a reading does. `accepts` stands for a verdict in favour of the user; short of
that, the phase changes only with a repaint in its new fill. -/
inductive Advance (accepts : Prop) (c : Core β O S σ) : Answer → Core β O S σ → Prop where
  | still (answer : Answer) {a : Auth} (s : σ) (fatal : Option Error) (phase : a.phase = c.auth.phase) :
      Advance accepts c answer { c with auth := a, sink := s, fatal }
  | accepted (a : Auth) (s : σ) (success : accepts) : Advance accepts c .done
      { c with auth := a, sink := s, exit := c.exit.or (some .authenticated) }
  | repainted {answer : Answer} (a : Auth) (s : σ) {fatal : Option Error}
      (quiet : fatal = none → (∀ e, answer ≠ .failed e) →
        (tried redraw { c with auth := a, sink := s }).1 = .ok ()) :
      Advance accepts c answer { (tried redraw { c with auth := a, sink := s }).2 with fatal }

omit [Compositor β O S] in
theorem ok_of_parked {r : Except Error Unit} {c : Core β O S σ} (h : (parked r c).fatal = none) :
    r = .ok () := by
  cases r with
  | ok u => rfl
  | error e => simp [parked] at h

theorem ok_of_answer {r : Except Error Unit} (h : ∀ e, Answer.ofResult r ≠ .failed e) :
    r = .ok () := by
  cases r with
  | ok u => rfl
  | error e => exact absurd rfl (h e)

theorem advance_input [CredentialSink σ] (event : Input) (c : Core β O S σ) :
    Advance False c .done (outcome (onInput event) c).2 := by
  cases hexit : c.shouldExit with
  | true =>
    rw [onInput_leaving hexit]
    exact .still _ c.sink c.fatal rfl
  | false =>
  have hphase := Auth.handleInput_phase event c.auth c.sink
  have hanswer := Auth.handleInput_answer event c.auth c.sink
  have hpark : (outcome (onInput event) c).2 =
      let r := tried (do apply (← entering.attempt (Auth.handleInput event)) : Try (Core β O S σ) Unit) c
      parked r.1 r.2 := by
    simp [onInput, hexit, outcome_parking]
  rw [hpark, tried_bind, tried_attempt]
  dsimp only [entering]
  rcases hr : tried (Auth.handleInput event) (c.auth, c.sink) with ⟨r, a, s⟩
  rw [hr] at hphase hanswer
  cases r with
  | error e => exact .still _ s _ (hphase (by simp))
  | ok result =>
    cases result with
    | unchanged => exact .still _ s _ (hphase (by simp))
    | unlock => exact absurd rfl hanswer
    | redraw => exact .repainted a s fun hquiet _ => ok_of_parked hquiet

/-- The verdict that is read is in favour of the user, and there is a credential that it is about. -/
def Accepts (read : Try σ (Option Verdict)) (c : Core β O S σ) : Prop :=
  c.auth.phase = .validating ∧ (tried read c.sink).1 = .ok (some .success)

theorem advance_reading (read : Try σ (Option Verdict)) (c : Core β O S σ) :
    Advance (c.Accepts read) c (.ofResult (tried (onReading read) c).1)
      (tried (onReading read) c).2 := by
  rw [tried_onReading]
  rcases hread : tried read c.sink with ⟨_ | _ | v, s⟩
  · exact .still _ s c.fatal rfl
  · exact .still _ s c.fatal rfl
  dsimp only
  by_cases hphase : c.auth.phase = .validating
  · cases v with
    | success =>
      rw [onVerdict_success (c := { c with sink := s }) hphase]
      exact .accepted _ s ⟨hphase, congrArg Prod.fst hread⟩
    | failure =>
      simp only [onVerdict, tried_bind, tried_attempt, judging, Auth.handleVerdict_failure hphase, apply]
      exact .repainted _ s fun _ hquiet => ok_of_answer hquiet
  · rw [onVerdict_unexpected (c := { c with sink := s }) hphase]
    exact .still _ s c.fatal rfl

end Core

namespace Locker

open Act (Does)

variable {σ : Type}

/-- What can happen to a locker, the verdicts being readings of its sink. -/
abbrev Event (σ : Type) := Core.Event Nat (Try σ (Option Verdict))

def perform [CredentialSink σ] : Event σ → Op (RecordedCore σ) Core.Answer :=
  Core.perform Core.onReading

abbrev Step (σ : Type) := Moment (RecordedCore σ) (Event σ) Core.Answer

/-- The outputs of a locker, and the record of what was asked for them. -/
def scene (c : RecordedCore σ) : Scene := (c.outputs, c.backend)

/-- The output that comes with an event. -/
def receives : Event σ → List Act
  | .added id output => [.received id output]
  | _ => []

theorem receives_receives {e : Event σ} {a : Act} (h : a ∈ receives e) : a.Receives := by
  cases e with
  | added id output => exact ⟨id, output, List.mem_singleton.mp h⟩
  | _ => exact absurd h List.not_mem_nil

/-- What an event may lead to, in a session in phase `p`, with `fill` the fill after it. -/
def May (p : LockPhase) (fill : Color) : Event σ → Act → Prop
  | .start, a => p = .idle ∧ ((∃ granted, a = .asked ⟨.requestLock, granted⟩) ∨ a.Covers)
  | .lock _, a => p.isTerminated = false ∧ (a = .asked ⟨.abandon, true⟩ ∨ a.Releases)
  | .added .., a | .removed _, a => a.Releases
  | .output _ event, a =>
    a.Updates event ∨ event = .done ∧ (p.isActive ∧ a.Covers ∨ a.Paints fill)
  | .configure _ c, a => a.Configures c ∨ a.Paints fill
  | .input _, a | .judged _, a | .redraw, a => a.Damages ∨ a.Paints fill
  | .shutdown, a =>
    p.isActive ∧ (a = .asked ⟨.unlock, true⟩ ∨ a = .asked ⟨.abandon, true⟩) ∨ a.Releases ∨
      ∃ granted, a = .asked ⟨.flush, granted⟩
  | .cancel, _ | .takeFatal, _ | .takeNewlyLocked, _ => False

theorem not_terminated {p : LockPhase} (h : p.isActive) : p.isTerminated = false := by
  cases p <;> first | rfl | exact absurd h Bool.false_ne_true

/-- Events that may mark an entry or paint it. -/
def Repaints : Event σ → Prop
  | .output .. | .configure .. | .input _ | .judged _ | .redraw => True
  | _ => False

/-- What stands behind an act. -/
theorem May.bounds {p : LockPhase} {fill : Color} {e : Event σ} {a : Act} (h : May p fill e a) :
    match a with
    | .received .. => False
    | .released _ => True
    | .updated _ event => ∃ id, e = .output id event
    | .covered .. => p = .idle ∨ p.isActive
    | .configured _ _ c => ∃ id, e = .configure id c
    | .painted _ _ f _ => f = fill ∧ Repaints e
    | .damaged _ => Repaints e
    | .asked call => p.isTerminated = false ∨ call.request = .flush ∧ e = .shutdown := by
  cases e with
  | start =>
    obtain ⟨rfl, ⟨granted, rfl⟩ | ⟨x, granted, rfl⟩⟩ := h
    · exact .inl rfl
    · exact .inl rfl
  | lock event =>
    obtain ⟨hphase, rfl | ⟨x, rfl⟩⟩ := h
    · exact .inl hphase
    · trivial
  | added id output =>
    obtain ⟨x, rfl⟩ := h
    trivial
  | removed id =>
    obtain ⟨x, rfl⟩ := h
    trivial
  | output id event =>
    obtain ⟨x, rfl⟩ | ⟨-, ⟨hactive, x, granted, rfl⟩ | ⟨x, surface, granted, rfl⟩⟩ := h
    · exact ⟨id, rfl⟩
    · exact .inr hactive
    · exact ⟨rfl, trivial⟩
  | configure id c =>
    obtain ⟨x, surface, rfl⟩ | ⟨x, surface, granted, rfl⟩ := h
    · exact ⟨id, rfl⟩
    · exact ⟨rfl, trivial⟩
  | shutdown =>
    obtain ⟨hactive, rfl | rfl⟩ | ⟨x, rfl⟩ | ⟨granted, rfl⟩ := h
    · exact .inl (not_terminated hactive)
    · exact .inl (not_terminated hactive)
    · trivial
    · exact .inr ⟨rfl, rfl⟩
  | input | judged | redraw =>
    obtain ⟨x, rfl⟩ | ⟨x, surface, granted, rfl⟩ := h
    · trivial
    · exact ⟨rfl, trivial⟩
  | cancel | takeFatal | takeNewlyLocked => exact h.elim

theorem May.not_receives {p : LockPhase} {fill : Color} {e : Event σ} {a : Act} (h : May p fill e a) :
    ¬ a.Receives := by
  rintro ⟨id, output, rfl⟩
  exact h.bounds

section Acts

variable {c : RecordedCore σ}

theorem fill_redraw (c : RecordedCore σ) : (tried Core.redraw c).2.fill = c.fill := by
  rw [Core.tried_redraw]
  rfl

/-- A repaint, all entries being due. -/
theorem doing_redraw (c : RecordedCore σ) :
    Doing (fun a => a.Damages ∨ a.Paints c.fill) (scene c) (scene (tried Core.redraw c).2) := by
  rw [Core.tried_redraw]
  refine ((Outputs.doing_damageAll c.outputs c.backend).mono fun _ => .inl).trans ?_
  exact (Outputs.doing_render c.fill c.outputs.damageAll c.backend).mono fun _ => .inr

theorem doing_advance {accepts : Prop} {answer : Core.Answer} {c' : RecordedCore σ}
    (h : Core.Advance accepts c answer c') :
    Doing (fun a => a.Damages ∨ a.Paints c'.fill) (scene c) (scene c') := by
  cases h with
  | still => exact .refl _
  | accepted => exact .refl _
  | repainted a s =>
    have hdoing := doing_redraw { c with auth := a, sink := s }
    rw [← fill_redraw] at hdoing
    exact hdoing

theorem doing_start (c : RecordedCore σ) (fill : Color) :
    Doing (May c.session fill (.start : Event σ)) (scene c) (scene (tried Core.start c).2) := by
  rw [Core.tried_start]
  split
  · next hidle =>
    have hask (granted : Bool) (armed : List ArmedFailure) :
        Doing (May c.session fill (.start : Event σ)) (scene c)
          (c.outputs, c.backend.answering ⟨.requestLock, granted⟩ armed) :=
      .single ⟨hidle, .inl ⟨granted, rfl⟩⟩ (.asked c.outputs c.backend armed trivial)
    rcases Recorder.tried_ask .requestLock c.backend with ⟨armed, hasked⟩ | ⟨err, armed, hasked⟩
    · have hrequest : tried (Compositor.requestLock : Try Recorder Unit) c.backend = _ := hasked
      rw [hrequest]
      refine (hask true armed).trans ?_
      exact (Outputs.doing_ensureSurfaces c.outputs _).mono fun a ha => ⟨hidle, .inr ha⟩
    · have hrequest : tried (Compositor.requestLock : Try Recorder Unit) c.backend = _ := hasked
      rw [hrequest]
      exact hask false armed
  · exact .refl _

theorem doing_lock (event : LockEvent) (c : RecordedCore σ) (fill : Color) :
    Doing (May c.session fill (.lock event : Event σ)) (scene c)
      (scene (outcome (Core.onLockEvent event) c).2) := by
  have habandon (hphase : c.session.isTerminated = false) :
      Doing (May c.session fill (.lock event : Event σ)) (scene c)
        (c.outputs, (outcome (Compositor.abandon : Op Recorder Unit) c.backend).2) :=
    .single ⟨hphase, .inl rfl⟩ (.asked c.outputs c.backend c.backend.armed trivial)
  rw [Core.outcome_onLockEvent]
  split
  · exact .refl _
  · next hpending => exact habandon (by rw [hpending]; rfl)
  · next hlocked =>
    have hphase : c.session.isTerminated = false := by rw [hlocked]; rfl
    refine (habandon hphase).trans ?_
    exact (Outputs.doing_teardown c.outputs _).mono fun a ha => ⟨hphase, .inr ha⟩
  · exact .refl _

theorem doing_output (h : c.outputs.Ordered) (id : OutputId) (event : OutputEvent) :
    Doing (May c.session c.fill (.output id event : Event σ)) (scene c)
      (scene (outcome (Core.onOutputEvent id event) c).2) := by
  have htaken : Doing (May c.session c.fill (.output id event : Event σ)) (scene c)
      (tried (Outputs.handleEvent id event c.session.isActive) (c.outputs, c.backend)).2 :=
    (Outputs.doing_handleEvent h id event c.session.isActive c.backend).mono fun a ha =>
      ha.imp_right fun ha => ⟨ha.1.1, .inl ⟨ha.1.2, ha.2⟩⟩
  rw [Core.outcome_onOutputEvent]
  dsimp only
  split
  · exact htaken
  · split
    · next hdone =>
      refine htaken.trans ?_
      exact (Outputs.doing_render c.fill _ _).mono fun a ha => .inr ⟨hdone, .inr ha⟩
    · exact htaken

theorem doing_shutdown (c : RecordedCore σ) (fill : Color) :
    Doing (May c.session fill (.shutdown : Event σ)) (scene c) (scene (tried Core.shutdown c).2) := by
  have hbegun : Doing (May c.session fill (.shutdown : Event σ)) (scene c)
      (c.outputs, (outcome (SessionLock.beginUnlock : Op (LockPhase × Recorder) Unit)
        (c.session, c.backend)).2.2) := by
    rw [SessionLock.outcome_beginUnlock]
    cases hphase : c.session with
    | idle => exact .refl _
    | pending =>
      exact .single (.inl ⟨rfl, .inr rfl⟩) (.asked c.outputs c.backend c.backend.armed trivial)
    | locked =>
      exact .single (.inl ⟨rfl, .inl rfl⟩) (.asked c.outputs c.backend c.backend.armed trivial)
    | unlocking => exact .refl _
    | terminated how => exact .refl _
  have hreleased := hbegun.trans
    ((Outputs.doing_teardown c.outputs _).mono fun a ha => .inr (.inl ha))
  have hflush (s : Scene) (granted : Bool) (armed : List ArmedFailure) :
      Doing (May c.session fill (.shutdown : Event σ)) s
        (s.1, s.2.answering ⟨.flush, granted⟩ armed) :=
    .single (.inr (.inr ⟨granted, rfl⟩)) (.asked s.1 s.2 armed trivial)
  rw [Core.tried_shutdown]
  dsimp only
  generalize (outcome (Outputs.teardown : Op Scene Unit) (c.outputs, _)).2 = released at hreleased ⊢
  rcases Recorder.tried_ask .flush released.2 with ⟨armed, hasked⟩ | ⟨err, armed, hasked⟩
  · have hrequest : tried (Compositor.flush : Try Recorder Unit) released.2 = _ := hasked
    rw [hrequest]
    exact hreleased.trans (hflush released true armed)
  · have hrequest : tried (Compositor.flush : Try Recorder Unit) released.2 = _ := hasked
    rw [hrequest]
    exact hreleased.trans (hflush released false armed)

/-- Only an input or a reading changes the fill. -/
theorem fill_perform [CredentialSink σ] {e : Event σ} (he : e.IsAside) (c : RecordedCore σ) :
    (outcome (perform e) c).2.fill = c.fill := by
  cases e with
  | start =>
    change (tried Core.start c).2.fill = c.fill
    rw [Core.tried_start]
    split
    · split <;> rfl
    · rfl
  | lock event =>
    change (outcome (Core.onLockEvent event) c).2.fill = c.fill
    rw [Core.outcome_onLockEvent]
    split <;> rfl
  | output id event =>
    change (outcome (Core.onOutputEvent id event) c).2.fill = c.fill
    rw [Core.outcome_onOutputEvent]
    dsimp only
    split
    · rfl
    · split <;> rfl
  | configure id event =>
    change (outcome (Core.onConfigure id event) c).2.fill = c.fill
    rw [Core.onConfigure, outcome_bind, Core.outcome_parking]
    rfl
  | input event => exact he.elim
  | judged read => exact he.elim
  | cancel =>
    change (outcome (Core.requestExit .cancelled) c).2.fill = c.fill
    rw [Core.outcome_requestExit]
    rfl
  | redraw => exact fill_redraw c
  | shutdown =>
    change (tried Core.shutdown c).2.fill = c.fill
    rw [Core.tried_shutdown]
    dsimp only
    split <;> rfl
  | added | removed | takeFatal | takeNewlyLocked => rfl

theorem entries_shutdown (c : RecordedCore σ) : (tried Core.shutdown c).2.outputs.entries = [] := by
  rw [Core.tried_shutdown]
  dsimp only
  split <;> rw [Outputs.outcome_teardown]

theorem entries_ended {c : RecordedCore σ} (hlocked : c.session = .locked) :
    (outcome (Core.onLockEvent .finished) c).2.outputs.entries = [] := by
  rw [Core.outcome_onLockEvent, hlocked]
  dsimp only
  rw [Outputs.outcome_teardown]

/-- What an event leads to, after the output that may come with it. -/
theorem performs [CredentialSink σ] (h : c.outputs.Ordered) (e : Event σ) :
    let c' := (outcome (perform e) c).2
    (∃ acts, (∀ a ∈ acts, May c.session c'.fill e a) ∧
      Performs (receives e ++ acts) (scene c) (scene c')) ∧ c'.outputs.Ordered := by
  intro c'
  have hdone (hreceives : receives e = [])
      (hdoing : Doing (May c.session c'.fill e) (scene c) (scene c')) :
      (∃ acts, (∀ a ∈ acts, May c.session c'.fill e a) ∧
        Performs (receives e ++ acts) (scene c) (scene c')) ∧ c'.outputs.Ordered := by
    refine ⟨?_, Outputs.Ordered.kept (fun a ha => ha.not_receives) hdoing h⟩
    rw [hreceives]
    exact hdoing
  cases e with
  | start => exact hdone rfl (doing_start c _)
  | lock event => exact hdone rfl (doing_lock event c _)
  | added id output =>
    obtain ⟨s, hreceived, acts, hacts, hreleased⟩ := Outputs.doing_add id output c.outputs c.backend
    exact ⟨⟨acts, hacts, .cons hreceived hreleased⟩, Outputs.ordered_add h id output c.backend⟩
  | output id event =>
    have hfill : c'.fill = c.fill := fill_perform (e := .output id event) trivial c
    exact hdone rfl (hfill ▸ doing_output h id event)
  | removed id => exact hdone rfl (Outputs.doing_remove h id c.backend)
  | configure id event =>
    have hfill : c'.fill = c.fill := fill_perform (e := .configure id event) trivial c
    have hscene :
        scene c' = (tried (Outputs.handleConfigure id event c.fill) (c.outputs, c.backend)).2 := by
      change scene (outcome (Core.onConfigure id event) c).2 = _
      rw [Core.onConfigure, outcome_bind, Core.outcome_parking]
      rfl
    refine hdone rfl ?_
    rw [hscene, hfill]
    exact Outputs.doing_handleConfigure h id event c.fill c.backend
  | input event => exact hdone rfl (doing_advance (Core.advance_input event c))
  | judged read => exact hdone rfl (doing_advance (Core.advance_reading read c))
  | cancel =>
    have hsame : scene c' = scene c := by
      change scene (outcome (Core.requestExit .cancelled) c).2 = scene c
      rw [Core.outcome_requestExit]
      rfl
    exact hdone rfl (hsame ▸ .refl _)
  | redraw =>
    have hfill : c'.fill = c.fill := fill_perform (e := .redraw) trivial c
    exact hdone rfl (hfill ▸ doing_redraw c)
  | shutdown => exact hdone rfl (doing_shutdown c _)
  | takeFatal => exact hdone rfl (.refl _)
  | takeNewlyLocked => exact hdone rfl (.refl _)

end Acts

/-! A run, event by event. -/

/-- The calls made in one step. -/
def Step.calls (m : Step σ) : List Call :=
  m.after.backend.calls.drop m.before.backend.calls.length

/-- A step as it is written down: the output that comes with it, then the calls. -/
def Step.marks (m : Step σ) : List Ledger.Mark :=
  (match m.event with
    | .added _ output => [.received output]
    | _ => []) ++ m.calls.map .asked

theorem Step.calls_eq {m : Step σ} {new : List Call}
    (h : m.after.backend.calls = m.before.backend.calls ++ new) : m.calls = new := by
  rw [Step.calls, h, List.drop_left]

/-- The books are kept over the moments so far, and the table in order. -/
def Kept (first : Nat) (ms : List (Step σ)) (c : RecordedCore σ) : Prop :=
  Books first (ms.flatMap Step.marks) (scene c) ∧ c.outputs.Ordered

theorem kept_fresh (armed : List ArmedFailure) (nextHandle : Nat) (sink : σ) (buffer : SecureBuffer)
    (ignoreEmpty : Bool) (palette : Palette) :
    Kept nextHandle [] (Core.fresh { armed, nextHandle } sink buffer ignoreEmpty palette) :=
  ⟨.empty armed nextHandle, List.Pairwise.nil⟩

theorem Kept.next [CredentialSink σ] {first : Nat} {ms : List (Step σ)} {c : RecordedCore σ}
    (h : Kept first ms c) (e : Event σ) : Kept first (ms ++ [Run.moment perform c e]) (Run.moment perform c e).after := by
  obtain ⟨hbooks, hordered⟩ := h
  obtain ⟨⟨acts, hmay, hacts⟩, hordered'⟩ := performs hordered e
  refine ⟨?_, hordered'⟩
  let m : Step σ := Run.moment perform c e
  have hcalls : m.calls = acts.flatMap Act.calls := by
    refine Step.calls_eq (hacts.calls.trans ?_)
    cases e <;> rfl
  have hmarks : m.marks = (receives e ++ acts).flatMap Act.marks := by
    rw [List.flatMap_append, Act.flatMap_marks fun a ha => (hmay a ha).not_receives, ← hcalls]
    cases e <;> rfl
  rw [List.flatMap_append, List.flatMap_singleton, hmarks]
  exact hbooks.performed hacts

end Locker

end ScreenLocker
