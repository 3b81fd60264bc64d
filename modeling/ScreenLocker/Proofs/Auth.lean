import ScreenLocker.Auth
import ScreenLocker.Proofs.SecureBuffer

/-! What inputs and verdicts do to an attempt. `Moved` is the table of all that an event can come to:
only a submission that the sink takes leads to `validating`, and only a verdict leads out of it. -/

namespace ScreenLocker.Auth

theorem outcome_enter (p : AuthPhase) (a : Auth) :
    outcome (enter p) a =
      (if a.phase = p then .unchanged else .redraw,
        { a with
          phase := p
          buffer := if p = .invalid ∨ p = .cleared then a.buffer.wiped else a.buffer }) := by
  by_cases hwipe : p = .invalid ∨ p = .cleared <;> by_cases hp : a.phase = p <;>
    simp [enter, storing, hwipe, hp]
  · simp [← hp]

section Verdict

theorem handleVerdict_unexpected {a : Auth} (h : a.phase ≠ .validating) (v : Verdict) :
    tried (handleVerdict v) a = (.error .unexpectedVerdict, a) := by
  simp [handleVerdict, h]

theorem handleVerdict_success {a : Auth} (h : a.phase = .validating) :
    tried (handleVerdict .success) a =
      (.ok .unlock, { a with phase := .idle, buffer := a.buffer.wiped }) := by
  simp [handleVerdict, h, storing]

theorem handleVerdict_failure {a : Auth} (h : a.phase = .validating) :
    tried (handleVerdict .failure) a =
      (.ok .redraw,
        { a with
          phase := .invalid
          failedAttempts := Nat.min (a.failedAttempts + 1) maxFailedAttempts
          buffer := a.buffer.wiped.wiped }) := by
  simp [handleVerdict, h, storing, outcome_enter]

end Verdict

inductive Event where
  | input (event : Input)
  | verdict (v : Verdict)
deriving DecidableEq

/-- The answer where a phase is entered: only a change asks for a repaint. -/
def turning (a : Auth) (phase : AuthPhase) : AuthOutcome :=
  if a.phase = phase then .unchanged else .redraw

/-- The buffer less its last scalar. -/
def shortened (a : Auth) : SecureBuffer := a.buffer.cut (lastScalarStart a.buffer.content)

variable {S : Type} [CredentialSink S]

def perform : Event → Op (Auth × S) (Except Error AuthOutcome)
  | .input event => (handleInput event).run
  | .verdict v => (entry.attempt (handleVerdict v)).run

/-- What an event comes to, before a sink in state `s`. -/
inductive Moved (a : Auth) (s : S) : Event → Except Error AuthOutcome → Auth × S → Prop where
  | ignored (event : Input) (busy : a.phase = .validating) :
      Moved a s (.input event) (.ok .unchanged) (a, s)
  | inserted (bytes : Bytes) (b : SecureBuffer) (quiet : a.phase ≠ .validating)
      (taken : tried (SecureBuffer.append bytes) a.buffer = (.ok (), b)) :
      Moved a s (.input (.insert bytes)) (.ok (a.turning .idle))
        ({ a with phase := .idle, buffer := b }, s)
  | dropped (bytes : Bytes) (e : BufferError) (b : SecureBuffer) (quiet : a.phase ≠ .validating)
      (refused : tried (SecureBuffer.append bytes) a.buffer = (.error e, b)) :
      Moved a s (.input (.insert bytes)) (.ok .unchanged) ({ a with buffer := b }, s)
  | erased (quiet : a.phase ≠ .validating) (left : a.shortened.length ≠ 0) :
      Moved a s (.input .backspace) (.ok (a.turning .idle))
        ({ a with phase := .idle, buffer := a.shortened }, s)
  | emptied (quiet : a.phase ≠ .validating) (gone : a.shortened.length = 0) :
      Moved a s (.input .backspace) (.ok (a.turning .cleared))
        ({ a with phase := .cleared, buffer := a.shortened.wiped }, s)
  | cleared (event : Input) (quiet : a.phase ≠ .validating)
      (asked : event = .clear ∨ event = .backspace ∧ a.buffer.length = 0) :
      Moved a s (.input event) (.ok (a.turning .cleared))
        ({ a with phase := .cleared, buffer := a.buffer.wiped }, s)
  | withheld (quiet : a.phase ≠ .validating) (empty : a.buffer.length = 0)
      (policy : a.ignoreEmpty = true) : Moved a s (.input .submit) (.ok .unchanged) (a, s)
  | sent (s' : S) (quiet : a.phase ≠ .validating)
      (taken : tried (CredentialSink.submit a.buffer.content) s = (.ok (), s')) :
      Moved a s (.input .submit) (.ok .redraw)
        ({ a with phase := .validating, buffer := a.buffer.wiped }, s')
  | refused (s' : S) (e : Error) (quiet : a.phase ≠ .validating)
      (failed : tried (CredentialSink.submit a.buffer.content) s = (.error e, s')) :
      Moved a s (.input .submit) (.error e) ({ a with buffer := a.buffer.wiped }, s')
  | accepted (busy : a.phase = .validating) :
      Moved a s (.verdict .success) (.ok .unlock)
        ({ a with phase := .idle, buffer := a.buffer.wiped }, s)
  | rejected (busy : a.phase = .validating) :
      Moved a s (.verdict .failure) (.ok .redraw)
        ({ a with
            phase := .invalid
            failedAttempts := Nat.min (a.failedAttempts + 1) maxFailedAttempts
            buffer := a.buffer.wiped.wiped }, s)
  | unexpected (v : Verdict) (quiet : a.phase ≠ .validating) :
      Moved a s (.verdict v) (.error .unexpectedVerdict) (a, s)

theorem handleInput_validating {a : Auth} (h : a.phase = .validating) (event : Input) (s : S) :
    tried (handleInput event) (a, s) = (.ok .unchanged, (a, s)) := by
  simp [handleInput, h]

/-- The buffer is wiped whatever the sink answers. -/
theorem handleInput_submit {a : Auth} (h : a.phase ≠ .validating) (s : S) :
    tried (handleInput .submit) (a, s) =
      if a.buffer.isEmpty && a.ignoreEmpty then (.ok .unchanged, (a, s))
      else
        match tried (CredentialSink.submit a.buffer.content) s with
        | (.ok (), s') =>
          (.ok .redraw, ({ a with phase := .validating, buffer := a.buffer.wiped }, s'))
        | (.error e, s') => (.error e, ({ a with buffer := a.buffer.wiped }, s')) := by
  by_cases hskip : a.buffer.isEmpty && a.ignoreEmpty
  · simp only [Bool.and_eq_true] at hskip
    simp [handleInput, h, submit, hskip]
  · have hsend : ¬(a.buffer.isEmpty = true ∧ a.ignoreEmpty = true) := by simpa using hskip
    cases hsent : tried (CredentialSink.submit a.buffer.content : Try S Unit) s with
    | mk r s' =>
      cases r <;>
        simp [handleInput, submit, h, hsend, hsent, entry, sink, storing, Part.left, Part.right]

theorem moved_insert {a : Auth} (quiet : a.phase ≠ .validating) (bytes : Bytes) (s : S) :
    Moved a s (.input (.insert bytes)) (tried (handleInput (.insert bytes)) (a, s)).1
      (tried (handleInput (.insert bytes)) (a, s)).2 := by
  rcases happend : tried (SecureBuffer.append bytes) a.buffer with ⟨e | u, b⟩
  · have hinput : tried (handleInput (.insert bytes)) (a, s) =
        (.ok .unchanged, ({ a with buffer := b }, s)) := by
      cases e <;> simp [handleInput, quiet, insert, storing, happend, entry, Part.left]
    rw [hinput]
    exact .dropped bytes e b quiet happend
  · have hinput : tried (handleInput (.insert bytes)) (a, s) =
        (.ok (a.turning .idle), ({ a with phase := .idle, buffer := b }, s)) := by
      simp [handleInput, quiet, insert, storing, happend, outcome_enter, turning, entry, Part.left]
    rw [hinput]
    exact .inserted bytes b quiet happend

theorem moved_backspace {a : Auth} (quiet : a.phase ≠ .validating) (s : S) :
    Moved a s (.input .backspace) (tried (handleInput .backspace) (a, s)).1
      (tried (handleInput .backspace) (a, s)).2 := by
  by_cases hempty : a.buffer.length = 0
  · have hinput : tried (handleInput .backspace) (a, s) =
        (.ok (a.turning .cleared), ({ a with phase := .cleared, buffer := a.buffer.wiped }, s)) := by
      simp [handleInput, quiet, backspace, SecureBuffer.isEmpty, hempty, outcome_enter, turning,
        entry, Part.left]
    rw [hinput]
    exact .cleared .backspace quiet (.inr ⟨rfl, hempty⟩)
  by_cases hgone : a.shortened.length = 0
  · have hcut : (a.buffer.cut (lastScalarStart a.buffer.content)).length = 0 := hgone
    have hinput : tried (handleInput .backspace) (a, s) =
        (.ok (a.turning .cleared),
          ({ a with phase := .cleared, buffer := a.shortened.wiped }, s)) := by
      simp [handleInput, quiet, backspace, SecureBuffer.isEmpty, hempty, storing, hcut,
        outcome_enter, turning, shortened, entry, Part.left]
    rw [hinput]
    exact .emptied quiet hgone
  · have hcut : ¬(a.buffer.cut (lastScalarStart a.buffer.content)).length = 0 := hgone
    have hinput : tried (handleInput .backspace) (a, s) =
        (.ok (a.turning .idle), ({ a with phase := .idle, buffer := a.shortened }, s)) := by
      simp [handleInput, quiet, backspace, SecureBuffer.isEmpty, hempty, storing, hcut,
        outcome_enter, turning, shortened, entry, Part.left]
    rw [hinput]
    exact .erased quiet hgone

theorem moved_submit {a : Auth} (quiet : a.phase ≠ .validating) (s : S) :
    Moved a s (.input .submit) (tried (handleInput .submit) (a, s)).1
      (tried (handleInput .submit) (a, s)).2 := by
  rw [handleInput_submit quiet]
  by_cases hskip : a.buffer.isEmpty && a.ignoreEmpty
  · rw [if_pos hskip]
    simp only [SecureBuffer.isEmpty, Bool.and_eq_true, decide_eq_true_eq] at hskip
    exact .withheld quiet hskip.1 hskip.2
  rw [if_neg hskip]
  rcases hsent : tried (CredentialSink.submit a.buffer.content) s with ⟨e | u, s'⟩
  · exact .refused s' e quiet hsent
  · exact .sent s' quiet hsent

theorem moved_input (event : Input) (a : Auth) (s : S) :
    Moved a s (.input event) (tried (handleInput event) (a, s)).1
      (tried (handleInput event) (a, s)).2 := by
  by_cases hphase : a.phase = .validating
  · rw [handleInput_validating hphase]
    exact .ignored event hphase
  cases event with
  | insert bytes => exact moved_insert hphase bytes s
  | backspace => exact moved_backspace hphase s
  | clear =>
    have hinput : tried (handleInput .clear) (a, s) =
        (.ok (a.turning .cleared), ({ a with phase := .cleared, buffer := a.buffer.wiped }, s)) := by
      simp [handleInput, hphase, outcome_enter, turning, entry, Part.left]
    rw [hinput]
    exact .cleared .clear hphase (.inl rfl)
  | submit => exact moved_submit hphase s

theorem moved_verdict (v : Verdict) (a : Auth) (s : S) :
    Moved a s (.verdict v) (tried (handleVerdict v) a).1 ((tried (handleVerdict v) a).2, s) := by
  by_cases hphase : a.phase = .validating
  · cases v with
    | success =>
      rw [handleVerdict_success hphase]
      exact .accepted hphase
    | failure =>
      rw [handleVerdict_failure hphase]
      exact .rejected hphase
  · rw [handleVerdict_unexpected hphase]
    exact .unexpected v hphase

/-- Every event is in the table. -/
theorem moved_perform (e : Event) (a : Auth) (s : S) :
    Moved a s e (outcome (perform e) (a, s)).1 (outcome (perform e) (a, s)).2 := by
  cases e with
  | input event => exact moved_input event a s
  | verdict v => exact moved_verdict v a s

/-- An input that left the sink alone: no verification is under way after it, and nothing is to be
unlocked. -/
def Edited (r : AuthOutcome × Auth) : Prop := r.1 ≠ .unlock ∧ r.2.phase ≠ .validating

theorem turning_ne_unlock (a : Auth) (p : AuthPhase) : a.turning p ≠ .unlock := by
  unfold turning
  split <;> simp

theorem eq_of_turning {a : Auth} {p : AuthPhase} (h : a.turning p ≠ .redraw) : p = a.phase := by
  unfold turning at h
  split at h
  · next hp => exact hp.symm
  · exact absurd rfl h

theorem handleInput_edit {a : Auth} {event : Input} (h : a.phase ≠ .validating)
    (hevent : event ≠ .submit) (s : S) :
    ∃ r : AuthOutcome × Auth,
      tried (handleInput event) (a, s) = (.ok r.1, (r.2, s)) ∧ Edited r := by
  have hmoved := moved_input event a s
  rcases hinput : tried (handleInput event) (a, s) with ⟨answer, after⟩
  rw [hinput] at hmoved
  cases hmoved with
  | ignored _ busy => exact absurd busy h
  | inserted => exact ⟨(_, _), rfl, turning_ne_unlock a _, by simp⟩
  | dropped => exact ⟨(_, _), rfl, by simp, h⟩
  | erased => exact ⟨(_, _), rfl, turning_ne_unlock a _, by simp⟩
  | emptied => exact ⟨(_, _), rfl, turning_ne_unlock a _, by simp⟩
  | cleared => exact ⟨(_, _), rfl, turning_ne_unlock a _, by simp⟩
  | withheld => exact absurd rfl hevent
  | sent => exact absurd rfl hevent
  | refused => exact absurd rfl hevent

/-- No input unlocks anything. -/
theorem handleInput_answer (event : Input) (a : Auth) (s : S) :
    (tried (handleInput event) (a, s)).1 ≠ .ok .unlock := by
  have hmoved := moved_input event a s
  rcases hinput : tried (handleInput event) (a, s) with ⟨answer, after⟩
  rw [hinput] at hmoved
  intro hunlock
  cases hmoved with
  | inserted => exact turning_ne_unlock a _ (Except.ok.inj hunlock)
  | erased => exact turning_ne_unlock a _ (Except.ok.inj hunlock)
  | emptied => exact turning_ne_unlock a _ (Except.ok.inj hunlock)
  | cleared => exact turning_ne_unlock a _ (Except.ok.inj hunlock)
  | _ => simp at hunlock

/-- An input that does not ask for a repaint leaves the phase as it is. -/
theorem handleInput_phase (event : Input) (a : Auth) (s : S)
    (h : (tried (handleInput event) (a, s)).1 ≠ .ok .redraw) :
    (tried (handleInput event) (a, s)).2.1.phase = a.phase := by
  have hmoved := moved_input event a s
  rcases hinput : tried (handleInput event) (a, s) with ⟨answer, after⟩
  rw [hinput] at h hmoved
  cases hmoved with
  | ignored => rfl
  | inserted => exact eq_of_turning fun hredraw => h (congrArg Except.ok hredraw)
  | dropped => rfl
  | erased => exact eq_of_turning fun hredraw => h (congrArg Except.ok hredraw)
  | emptied => exact eq_of_turning fun hredraw => h (congrArg Except.ok hredraw)
  | cleared => exact eq_of_turning fun hredraw => h (congrArg Except.ok hredraw)
  | withheld => rfl
  | sent => exact absurd rfl h
  | refused => rfl

end ScreenLocker.Auth
