import ScreenLocker.Proofs.Core

/-! The events that move an attempt on: inputs, verdicts and replies to be read. -/

namespace ScreenLocker.Core

variable {β O S σ : Type} [Compositor β O S]

section Input

variable [CredentialSink σ]

theorem onInput_leaving {c : Core β O S σ} (h : c.shouldExit = true) (event : Input) :
    outcome (onInput event) c = ((), c) := by
  simp [onInput, h]

/-- An input moves attempt and sink as `handleInput` says, and is no ground for leaving. -/
theorem onInput_effect {c : Core β O S σ} (h : c.shouldExit = false) (event : Input) :
    let r := tried (Auth.handleInput event) (c.auth, c.sink)
    let c' := (outcome (onInput event) c).2
    c'.auth = r.2.1 ∧ c'.sink = r.2.2 ∧ c'.exit = c.exit ∧ ∀ e, r.1 = .error e →
      c'.fatal = some e := by
  have hfatal : c.fatal = none := by
    simp only [shouldExit, Bool.or_eq_false_iff] at h
    simpa using h.2
  cases hr : tried (Auth.handleInput event) (c.auth, c.sink) with
  | mk answer s =>
  match answer with
  | .error e => simp [onInput, h, outcome_parking, entering, hr, parked, hfatal]
  | .ok .unchanged => simp [onInput, h, outcome_parking, entering, hr, parked, apply]
  | .ok .redraw => simp [onInput, h, outcome_parking, entering, hr, parked, apply, tried_redraw]
  | .ok .unlock => exact absurd (congrArg Prod.fst hr) (Auth.handleInput_answer event c.auth c.sink)

theorem onInput_exit (event : Input) (c : Core β O S σ) :
    (outcome (onInput event) c).2.exit = c.exit := by
  cases h : c.shouldExit with
  | true => rw [onInput_leaving h]
  | false => exact (onInput_effect h event).2.2.1

end Input

theorem onVerdict_unexpected {c : Core β O S σ} (h : c.auth.phase ≠ .validating) (v : Verdict) :
    tried (onVerdict v) c = (.error .unexpectedVerdict, c) := by
  simp [onVerdict, judging, Auth.handleVerdict_unexpected h]

theorem onVerdict_success {c : Core β O S σ} (h : c.auth.phase = .validating) :
    tried (onVerdict .success) c =
      (.ok (),
        { c with
          auth := { c.auth with phase := .idle, buffer := c.auth.buffer.wiped }
          exit := c.exit.or (some .authenticated) }) := by
  simp [onVerdict, judging, Auth.handleVerdict_success h, apply, outcome_requestExit]

/-- After a verdict against the credential only a repaint can fail. -/
theorem onVerdict_failure {c : Core β O S σ} (h : c.auth.phase = .validating) :
    ∃ r backend outputs, tried (onVerdict .failure) c =
      (r,
        { c with
          backend, outputs
          auth := { c.auth with
            phase := .invalid
            failedAttempts := Nat.min (c.auth.failedAttempts + 1) Auth.maxFailedAttempts
            buffer := c.auth.buffer.wiped.wiped } }) := by
  simp only [onVerdict, tried_bind, tried_attempt, judging, Auth.handleVerdict_failure h, apply,
    tried_redraw]
  exact ⟨_, _, _, rfl⟩

theorem onVerdict_sink (v : Verdict) (c : Core β O S σ) :
    (tried (onVerdict v) c).2.sink = c.sink := by
  by_cases hphase : c.auth.phase = .validating
  · cases v with
    | success => rw [onVerdict_success hphase]
    | failure =>
      obtain ⟨r, backend, outputs, hv⟩ := onVerdict_failure hphase
      rw [hv]
  · rw [onVerdict_unexpected hphase]

/-- The locker with other replies still to be read. -/
def withReplies (c : Core β O S Channel) (replies : Pipe) : Core β O S Channel :=
  { c with sink := { c.sink with replies } }

/-- A poll for a reply comes first; a verdict, if there is one, is then taken as any other. -/
theorem tried_onReply (c : Core β O S Channel) : ∃ replies,
    c.sink.replies.queue = c.sink.replies.reading.bytes ++ replies.queue ∧
    tried onReply c =
      match c.sink.replies.reading.verdict with
      | .ok (some v) => tried (onVerdict v) (c.withReplies replies)
      | .ok none => (.ok (), c.withReplies replies)
      | .error e => (.error e, c.withReplies replies) := by
  obtain ⟨replies, hpoll, hqueue⟩ := Channel.tried_poll c.sink
  refine ⟨replies, hqueue, ?_⟩
  simp only [onReply, tried_bind, tried_attempt, sinking, hpoll]
  rcases c.sink.replies.reading.verdict with e | _ | v <;> rfl

/-- A call that reads takes what it reads off the front of the replies. -/
theorem onReply_sink (c : Core β O S Channel) : ∃ replies,
    c.sink.replies.queue = c.sink.replies.reading.bytes ++ replies.queue ∧
    (tried onReply c).2.sink = { c.sink with replies } := by
  obtain ⟨replies, hqueue, hreply⟩ := tried_onReply c
  refine ⟨replies, hqueue, ?_⟩
  rw [hreply]
  split
  · rw [onVerdict_sink]
    rfl
  · rfl
  · rfl

/-- What comes of an input: a request on the pipe and a verification under way, or neither. -/
inductive InputOutcome (c c' : Core β O S Channel) : Prop where
  | kept : c'.sink = c.sink → (c'.auth.phase = .validating ↔ c.auth.phase = .validating) →
      c'.exit = c.exit → InputOutcome c c'
  | submitted : c.auth.phase ≠ .validating → c.exit = none →
      c.auth.buffer.content.length < UInt32.size →
      c'.sink =
        { c.sink with requests := c.sink.requests.push (Frame.encode c.auth.buffer.content) } →
      c'.auth.phase = .validating → c'.exit = none → InputOutcome c c'

omit [Compositor β O S] in
/-- Inputs leave the replies alone, whatever the channel makes of a submission. -/
theorem InputOutcome.replies {c c' : Core β O S Channel} (h : InputOutcome c c') :
    c'.sink.replies = c.sink.replies := by
  cases h with
  | kept hsink => rw [hsink]
  | submitted _ _ _ hsink => rw [hsink]

theorem input_outcome (event : Input) (c : Core β O S Channel) :
    InputOutcome c (outcome (onInput event) c).2 := by
  cases hleave : c.shouldExit with
  | true =>
    rw [onInput_leaving hleave]
    exact .kept rfl Iff.rfl rfl
  | false =>
  obtain ⟨hauth, hsink, hexit, -⟩ := onInput_effect hleave event
  by_cases hphase : c.auth.phase = .validating
  · rw [Auth.handleInput_validating hphase] at hauth hsink
    exact .kept hsink (by rw [hauth]) hexit
  by_cases hsubmit : event = .submit
  · subst hsubmit
    have hnone : c.exit = none := by
      simp only [shouldExit, Bool.or_eq_false_iff] at hleave
      simpa using hleave.1
    rw [Auth.handleInput_submit hphase] at hauth hsink
    by_cases hskip : c.auth.buffer.isEmpty && c.auth.ignoreEmpty
    · rw [if_pos hskip] at hauth hsink
      exact .kept hsink (by rw [hauth]) hexit
    rw [if_neg hskip] at hauth hsink
    cases hsent : tried (CredentialSink.submit c.auth.buffer.content) c.sink with
    | mk r ch =>
    rw [hsent] at hauth hsink
    cases r with
    | ok u =>
      obtain ⟨hfit, rfl⟩ := Channel.submit_ok hsent
      exact .submitted hphase hnone hfit hsink (by rw [hauth]) (hexit.trans hnone)
    | error e => exact .kept (hsink.trans (Channel.submit_error hsent)) (by rw [hauth]) hexit
  · obtain ⟨r, hr, hedit⟩ := Auth.handleInput_edit hphase hsubmit c.sink
    rw [hr] at hauth hsink
    exact .kept hsink (iff_of_false (by rw [hauth]; exact hedit.2) hphase) hexit

/-- Nothing is different but the replies still to be read. -/
def Undisturbed (c c' : Core β O S Channel) : Prop := ∃ replies, c' = c.withReplies replies

omit [Compositor β O S] in
theorem Undisturbed.exit {c c' : Core β O S Channel} (h : Undisturbed c c') : c'.exit = c.exit := by
  obtain ⟨replies, rfl⟩ := h
  rfl

/-- What comes of a reply, by what was read and whether a verification was under way. -/
inductive ReplyOutcome (c c' : Core β O S Channel) : Reading → Answer → Prop where
  | accepted (replies : Pipe) : c.auth.phase = .validating →
      c' = { c.withReplies replies with
        auth := { c.auth with phase := .idle, buffer := c.auth.buffer.wiped }
        exit := c.exit.or (some .authenticated) } →
      ReplyOutcome c c' (.byte 1) .done
  | rejected (answer : Answer) : c.auth.phase = .validating →
      c'.auth = { c.auth with
        phase := .invalid
        failedAttempts := Nat.min (c.auth.failedAttempts + 1) Auth.maxFailedAttempts
        buffer := c.auth.buffer.wiped.wiped } →
      c'.exit = c.exit →
      ReplyOutcome c c' (.byte 0) answer
  | unpaired (v : Verdict) : c.auth.phase ≠ .validating → Undisturbed c c' →
      ReplyOutcome c c' (.byte v.toByte) (.failed .unexpectedVerdict)
  | malformed (b : UInt8) : b ≠ 0 → b ≠ 1 → Undisturbed c c' →
      ReplyOutcome c c' (.byte b) (.failed (.malformedVerdict b))
  | closed : Undisturbed c c' →
      ReplyOutcome c c' .closed (.failed (.authChannelCrash "verifier closed its reply pipe"))
  | broken (f : Fault) : Undisturbed c c' →
      ReplyOutcome c c' (.fault f) (.failed (.authChannelCrash f.message))
  | nothing : Undisturbed c c' → ReplyOutcome c c' .nothing .done

theorem reply_outcome (c : Core β O S Channel) :
    ReplyOutcome c (tried onReply c).2 c.sink.replies.reading (.ofResult (tried onReply c).1) := by
  obtain ⟨replies, -, h⟩ := tried_onReply c
  cases hread : c.sink.replies.reading with
  | nothing =>
    simp only [hread, Reading.verdict] at h
    rw [h]
    exact .nothing ⟨replies, rfl⟩
  | closed =>
    simp only [hread, Reading.verdict] at h
    rw [h]
    exact .closed ⟨replies, rfl⟩
  | fault f =>
    simp only [hread, Reading.verdict] at h
    rw [h]
    exact .broken f ⟨replies, rfl⟩
  | byte b =>
    by_cases h1 : b = 1
    · subst h1
      simp only [hread, Reading.verdict, Verdict.ofByte, if_true, Except.map] at h
      by_cases hphase : c.auth.phase = .validating
      · rw [h, onVerdict_success (c := c.withReplies replies) hphase]
        exact .accepted replies hphase rfl
      · rw [h, onVerdict_unexpected (c := c.withReplies replies) hphase]
        exact .unpaired .success hphase ⟨replies, rfl⟩
    by_cases h0 : b = 0
    · subst h0
      simp only [hread, Reading.verdict, Verdict.ofByte, h1, if_true, if_false, Except.map] at h
      by_cases hphase : c.auth.phase = .validating
      · obtain ⟨r, backend, outputs, hv⟩ := onVerdict_failure (c := c.withReplies replies) hphase
        rw [h, hv]
        exact .rejected _ hphase rfl rfl
      · rw [h, onVerdict_unexpected (c := c.withReplies replies) hphase]
        exact .unpaired .failure hphase ⟨replies, rfl⟩
    · simp only [hread, Reading.verdict, Verdict.ofByte, h1, h0, if_false, Except.map] at h
      rw [h]
      exact .malformed b h0 h1 ⟨replies, rfl⟩

end ScreenLocker.Core
