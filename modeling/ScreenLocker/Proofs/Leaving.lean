import Mathlib.Data.List.DropRight
import ScreenLocker.Proofs.Locker

/-! Why the locker leaves, and with which error. The first cause to leave stands whatever comes after
it, and from then on nothing that is typed counts. An error that comes up where nobody can be told is
put aside, and what is taken later is the earliest since one was last taken. -/

namespace ScreenLocker.Leaving

variable {β O S σ : Type}

/-- What can happen to a locker before any compositor and any sink. -/
abbrev Event (O σ : Type) := Core.Event O (Try σ (Option Verdict))

abbrev Step (β O S σ : Type) := Moment (Core β O S σ) (Event O σ) Core.Answer

def failure {α : Type} : Except Error α → Option Error
  | .ok _ => none
  | .error e => some e

/-- The cause to leave that a step brings: a verdict for the user on the credential in flight, a signal,
or that the compositor takes back the lock it had granted. -/
def Step.cause (m : Step β O S σ) : Option ExitReason :=
  match m.event with
  | .judged read =>
    match m.before.auth.phase, (tried read m.before.sink).1 with
    | .validating, .ok (some .success) => some .authenticated
    | _, _ => none
  | .cancel => some .cancelled
  | .lock .finished => if m.before.session = .locked then some .compositorEnded else none
  | _ => none

/-- The error put aside is asked for. -/
def Step.takes (m : Step β O S σ) : Bool := m.event matches .takeFatal

/-- The steps since the error was last asked for. -/
def sinceTaken (ms : List (Step β O S σ)) : List (Step β O S σ) := ms.rtakeWhile fun m => !m.takes

variable [Compositor β O S] [CredentialSink σ]

def perform : Event O σ → Op (Core β O S σ) Core.Answer := Core.perform Core.onReading

/-- The error that comes up in a step with nobody to be told: of the events of the compositor, and of
inputs as long as they count. The other operations answer with theirs. -/
def Step.raised (m : Step β O S σ) : Option Error :=
  let c := m.before
  match m.event with
  | .lock event =>
    failure (tried (SessionLock.handle event : Try (LockPhase × β) _) (c.session, c.backend)).1
  | .output id event =>
    let taken := tried (Outputs.handleEvent id event c.session.isActive) (c.outputs, c.backend)
    match taken.1 with
    | .error e => some e
    | .ok () => if event = .done then failure (tried (Outputs.render c.fill) taken.2).1 else none
  | .configure id event =>
    failure (tried (Outputs.handleConfigure id event c.fill) (c.outputs, c.backend)).1
  | .input event =>
    if c.shouldExit then none
    else
      match tried (Auth.handleInput event) (c.auth, c.sink) with
      | (.error e, _) => some e
      | (.ok .redraw, a, s) => failure (tried Core.redraw { c with auth := a, sink := s }).1
      | (.ok _, _) => none
  | _ => none

section Events

variable (c : Core β O S σ)

omit [Compositor β O S] [CredentialSink σ] in
theorem fatal_parked (r : Except Error Unit) : (Core.parked r c).fatal = c.fatal.or (failure r) := by
  cases r <;> rfl

omit [CredentialSink σ] in
theorem exit_reading (read : Try σ (Option Verdict)) :
    (tried (Core.onReading read) c).2.exit =
      c.exit.or (Step.cause (⟨c, .judged read, .done, c⟩ : Step β O S σ)) := by
  rw [Core.tried_onReading]
  rcases hread : tried read c.sink with ⟨_ | _ | v, s⟩
  · cases hphase : c.auth.phase <;> simp [Step.cause, hread, hphase]
  · cases hphase : c.auth.phase <;> simp [Step.cause, hread, hphase]
  dsimp only
  by_cases hphase : c.auth.phase = .validating
  · cases v with
    | success =>
      rw [Core.onVerdict_success (c := { c with sink := s }) hphase]
      simp [Step.cause, hread, hphase]
    | failure =>
      obtain ⟨r, backend, outputs, hv⟩ := Core.onVerdict_failure (c := { c with sink := s }) hphase
      rw [hv]
      simp [Step.cause, hread, hphase]
  · rw [Core.onVerdict_unexpected (c := { c with sink := s }) hphase]
    simp [Step.cause, hread, hphase]

/-- A cause comes to something only if there was none before. -/
theorem exit_perform (e : Event O σ) :
    let m : Step β O S σ := Run.moment perform c e
    m.after.exit = c.exit.or m.cause := by
  intro m
  cases e with
  | start =>
    change (tried Core.start c).2.exit = c.exit.or none
    rw [Core.tried_start, Option.or_none]
    split
    · split <;> rfl
    · rfl
  | lock event =>
    change (outcome (Core.onLockEvent event) c).2.exit = c.exit.or m.cause
    rw [Core.outcome_onLockEvent]
    cases event <;> cases hphase : c.session <;> simp [m, Run.moment, Step.cause, hphase, Core.parked]
  | output id event =>
    change (outcome (Core.onOutputEvent id event) c).2.exit = c.exit.or none
    rw [Core.outcome_onOutputEvent, Option.or_none]
    dsimp only
    split
    · rfl
    · split <;> rfl
  | configure id event =>
    change (outcome (Core.onConfigure id event) c).2.exit = c.exit.or none
    rw [Core.onConfigure, outcome_bind, Core.outcome_parking, Option.or_none]
    rfl
  | input event =>
    change (outcome (Core.onInput event) c).2.exit = c.exit.or none
    rw [Core.onInput_exit, Option.or_none]
  | judged read => exact exit_reading c read
  | cancel =>
    change (outcome (Core.requestExit .cancelled) c).2.exit = c.exit.or (some .cancelled)
    rw [Core.outcome_requestExit]
  | redraw =>
    change (tried Core.redraw c).2.exit = c.exit.or none
    rw [Core.tried_redraw, Option.or_none]
  | shutdown =>
    change (tried Core.shutdown c).2.exit = c.exit.or none
    rw [Core.tried_shutdown, Option.or_none]
    dsimp only
    split <;> rfl
  | added | removed | takeFatal | takeNewlyLocked => exact Option.or_none.symm

omit [CredentialSink σ] in
/-- A verdict that cannot be acted on is answered with the error, which is not put aside as well. -/
theorem fatal_reading (read : Try σ (Option Verdict)) :
    (tried (Core.onReading read) c).2.fatal = c.fatal := by
  rw [Core.tried_onReading]
  rcases tried read c.sink with ⟨_ | _ | v, s⟩
  · rfl
  · rfl
  dsimp only
  by_cases hphase : c.auth.phase = .validating
  · cases v with
    | success => rw [Core.onVerdict_success (c := { c with sink := s }) hphase]
    | failure =>
      obtain ⟨r, backend, outputs, hv⟩ := Core.onVerdict_failure (c := { c with sink := s }) hphase
      rw [hv]
  · rw [Core.onVerdict_unexpected (c := { c with sink := s }) hphase]

theorem fatal_input (event : Input) :
    (outcome (Core.onInput event) c).2.fatal =
      c.fatal.or (Step.raised (⟨c, .input event, .done, c⟩ : Step β O S σ)) := by
  cases hleave : c.shouldExit with
  | true =>
    rw [Core.onInput_leaving hleave]
    simp [Step.raised, hleave]
  | false =>
  have hpark : (outcome (Core.onInput event) c).2 =
      let r := tried (do Core.apply (← Core.entering.attempt (Auth.handleInput event)) :
        Try (Core β O S σ) Unit) c
      Core.parked r.1 r.2 := by
    simp [Core.onInput, hleave, Core.outcome_parking]
  have hanswer := Auth.handleInput_answer event c.auth c.sink
  rw [hpark, fatal_parked, tried_bind, tried_attempt]
  dsimp only [Core.entering]
  rcases hr : tried (Auth.handleInput event) (c.auth, c.sink) with ⟨r, a, s⟩
  rw [hr] at hanswer
  cases r with
  | error e => simp [Step.raised, hleave, hr, failure]
  | ok result =>
    cases result with
    | unchanged => simp [Step.raised, hleave, hr, failure, Core.apply]
    | unlock => exact absurd rfl hanswer
    | redraw => simp [Step.raised, hleave, hr, Core.apply, Core.tried_redraw]

/-- An error is put aside if none is, and stays until it is asked for. -/
theorem fatal_perform (e : Event O σ) :
    let m : Step β O S σ := Run.moment perform c e
    m.after.fatal = if m.takes then none else c.fatal.or m.raised := by
  intro m
  cases e with
  | start =>
    change (tried Core.start c).2.fatal = c.fatal.or none
    rw [Core.tried_start, Option.or_none]
    split
    · split <;> rfl
    · rfl
  | lock event =>
    change (outcome (Core.onLockEvent event) c).2.fatal =
      c.fatal.or (failure (tried (SessionLock.handle event) (c.session, c.backend)).1)
    rw [Core.outcome_onLockEvent, SessionLock.tried_handle]
    cases event <;> cases hphase : c.session <;> simp [failure, Core.parked]
  | output id event =>
    change (outcome (Core.onOutputEvent id event) c).2.fatal = c.fatal.or m.raised
    have hraised : m.raised =
        let taken := tried (Outputs.handleEvent id event c.session.isActive) (c.outputs, c.backend)
        match taken.1 with
        | .error e => some e
        | .ok () => if event = .done then failure (tried (Outputs.render c.fill) taken.2).1 else none :=
      rfl
    rw [Core.outcome_onOutputEvent, hraised]
    rcases tried (Outputs.handleEvent id event c.session.isActive) (c.outputs, c.backend) with ⟨r, s⟩
    cases r with
    | error e => rfl
    | ok u =>
      dsimp only
      split
      · rw [fatal_parked]
        cases (tried (Outputs.render c.fill) s).1 <;> rfl
      · rw [Option.or_none]
  | configure id event =>
    change (outcome (Core.onConfigure id event) c).2.fatal = c.fatal.or m.raised
    rw [Core.onConfigure, outcome_bind, Core.outcome_parking, fatal_parked]
    rfl
  | input event => exact fatal_input c event
  | judged read =>
    change (tried (Core.onReading read) c).2.fatal = c.fatal.or none
    rw [fatal_reading, Option.or_none]
  | cancel =>
    change (outcome (Core.requestExit .cancelled) c).2.fatal = c.fatal.or none
    rw [Core.outcome_requestExit, Option.or_none]
  | redraw =>
    change (tried Core.redraw c).2.fatal = c.fatal.or none
    rw [Core.tried_redraw, Option.or_none]
  | shutdown =>
    change (tried Core.shutdown c).2.fatal = c.fatal.or none
    rw [Core.tried_shutdown, Option.or_none]
    dsimp only
    split <;> rfl
  | takeFatal => rfl
  | added | removed | takeNewlyLocked => exact Option.or_none.symm

/-- Once the locker is to leave, an input changes nothing, and nothing is handed to the sink. -/
theorem leaving_perform (h : c.shouldExit = true) (e : Event O σ) :
    let m : Step β O S σ := Run.moment perform c e
    (∀ event, e = .input event → m.after = c) ∧
    m.after.sink =
      match e with
      | .judged read => (tried read c.sink).2
      | _ => c.sink := by
  intro m
  have haside (he : e.IsAside) : m.after.sink = c.sink := (Core.aside_perform Core.onReading he c).sink
  cases e with
  | input event =>
    have hsame : m.after = c := congrArg Prod.snd (Core.onInput_leaving h event)
    exact ⟨fun _ _ => hsame, congrArg Core.sink hsame⟩
  | judged read =>
    refine ⟨by simp, ?_⟩
    change (tried (Core.onReading read) c).2.sink = (tried read c.sink).2
    rw [Core.tried_onReading]
    rcases tried read c.sink with ⟨_ | _ | v, s⟩
    · rfl
    · rfl
    · exact Core.onVerdict_sink v _
  | _ => exact ⟨by simp, haside trivial⟩

end Events

/-! What has been over the steps so far. -/

omit [Compositor β O S] [CredentialSink σ] in
theorem sinceTaken_snoc (ms : List (Step β O S σ)) (m : Step β O S σ) :
    sinceTaken (ms ++ [m]) = if m.takes then [] else sinceTaken ms ++ [m] := by
  cases htakes : m.takes <;> simp [sinceTaken, htakes]

/-- The first cause to leave, and the first error since one was last taken. -/
structure First (ms : List (Step β O S σ)) (c : Core β O S σ) : Prop where
  exit : c.exit = ms.findSome? Step.cause
  fatal : c.fatal = (sinceTaken ms).findSome? Step.raised

theorem First.next {ms : List (Step β O S σ)} {c : Core β O S σ} (h : First ms c) (e : Event O σ) :
    First (ms ++ [Run.moment perform c e]) (Run.moment perform c e).after where
  exit := by
    have hexit := exit_perform c e
    rw [hexit, h.exit, List.findSome?_append, List.findSome?_singleton]
  fatal := by
    have hfatal := fatal_perform c e
    rw [hfatal, h.fatal, sinceTaken_snoc]
    split
    · rfl
    · rw [List.findSome?_append, List.findSome?_singleton]

/-- The first cause to leave stands: the locker is to leave for it from then on, and for none before. An
error that is asked for is the earliest since one was last asked for. While there is a cause or an error,
inputs change nothing and nothing is handed to the sink. -/
theorem first_cause_stands (backend : β) (sink : σ) (buffer : SecureBuffer) (ignoreEmpty : Bool)
    (palette : Palette) (es : List (Event O σ)) :
    let start : Core β O S σ := Core.fresh backend sink buffer ignoreEmpty palette
    let ms : List (Step β O S σ) := Run.moments perform es start
    let last := Run.final perform es start
    last.exit = ms.findSome? Step.cause ∧
    ∀ pre m post, ms = pre ++ m :: post →
      m.before.exit = pre.findSome? Step.cause ∧
      (m.before.exit.isSome → m.after.exit = m.before.exit ∧ last.exit = m.before.exit) ∧
      (m.event = .takeFatal → m.answer = .fatal ((sinceTaken pre).findSome? Step.raised)) ∧
      ((pre.findSome? Step.cause).isSome ∨ ((sinceTaken pre).findSome? Step.raised).isSome →
        (∀ event, m.event = .input event → m.after = m.before) ∧
        m.after.sink =
          match m.event with
          | .judged read => (tried read m.before.sink).2
          | _ => m.before.sink) := by
  intro start ms last
  have hnext : ∀ (ms : List (Step β O S σ)) c e, First ms c →
      First (ms ++ [Run.moment perform c e]) (Run.moment perform c e).after := fun _ _ e h => h.next e
  have hstart : First ([] : List (Step β O S σ)) start := ⟨rfl, rfl⟩
  have hlast : First ms last := Run.holds_final hnext es hstart
  refine ⟨hlast.exit, fun pre m post hsplit => ?_⟩
  obtain ⟨hbefore, hmoment⟩ := Run.holds_before hnext hstart hsplit
  refine ⟨hbefore.exit, fun hsome => ⟨?_, ?_⟩, fun htake => ?_, fun hleave => ?_⟩
  · rw [hmoment]
    exact (exit_perform m.before m.event).trans (Option.or_of_isSome hsome)
  · rw [hlast.exit, hsplit, List.findSome?_append, ← hbefore.exit, Option.or_of_isSome hsome]
  · rw [hmoment, htake, ← hbefore.fatal]
    rfl
  · rw [← hbefore.exit, ← hbefore.fatal] at hleave
    have hshould : m.before.shouldExit = true := by simpa [Core.shouldExit] using hleave
    have hstays := leaving_perform m.before hshould m.event
    rw [← hmoment] at hstays
    exact hstays

example :
    let start : RecordedCore SubmissionRecord := Core.fresh {} {} ⟨zeros 8, 0, 64, 0, {}⟩ false {}
    let last := Run.final perform
      [.start, .lock .locked, .input (.insert [97]), .input .submit, .cancel,
        .judged (pure (some .success)), .lock .finished, .input (.insert [98])] start
    last.exit = some .cancelled ∧ last.auth.phase = .idle ∧ last.auth.buffer.isEmpty := by
  decide +kernel

end ScreenLocker.Leaving
