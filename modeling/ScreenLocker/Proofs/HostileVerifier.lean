import ScreenLocker.Compositor.Recorder
import ScreenLocker.Proofs.Attempt

/-! A locker whose verifier is in other hands. Whoever holds the far ends of the channel may write
any bytes, let reads fail in any way, hang up, and do what it likes to the requests. What it cannot
do is pass for a verifier: one byte in one state authenticates, and every other reply is an answer
against the user or an error that changes nothing. -/

namespace ScreenLocker.Hostile

variable {β O S : Type}

inductive Event (O : Type) where
  | core (e : Core.Event O Unit)
  | send (bytes : Bytes)
  /-- Reads to come meet these faults first. -/
  | hinder (faults : List Fault)
  | hangUp
  | tamper (requests : Pipe)

/-- The far end of the replies at work. -/
def replying (f : Pipe → Pipe) : Op (Core β O S Channel) Core.Answer := do
  modify fun c => c.withReplies (f c.sink.replies)
  pure .done

def perform [Compositor β O S] : Event O → Op (Core β O S Channel) Core.Answer
  | .core e => Core.perform (fun () => Core.onReply) e
  | .send bytes => replying (Pipe.push bytes)
  | .hinder faults => replying fun p => { p with faults := p.faults ++ faults }
  | .hangUp => replying Pipe.closeWriter
  | .tamper requests => do
    modify fun c => { c with sink := { c.sink with requests } }
    pure .done

abbrev Step (β O S : Type) := Moment (Core β O S Channel) (Event O) Core.Answer

/-- What is written to the replies in one step. -/
def Step.sent (m : Step β O S) : Bytes :=
  match m.event with
  | .send bytes => bytes
  | _ => []

/-- What the locker reads in one step. -/
def Step.read (m : Step β O S) : Bytes :=
  match m.event with
  | .core (.judged ()) => m.before.sink.replies.reading.bytes
  | _ => []

variable [Compositor β O S]

/-- Bytes are read in the order in which they were written, and only by calls that read a reply. -/
theorem replies_step (c : Core β O S Channel) (e : Event O) :
    let m : Step β O S := Run.moment perform c e
    c.sink.replies.queue ++ m.sent = m.read ++ m.after.sink.replies.queue := by
  cases e with
  | send bytes => rfl
  | hinder faults => simp [Run.moment, Step.sent, Step.read, perform, replying, Core.withReplies]
  | hangUp =>
    simp [Run.moment, Step.sent, Step.read, perform, replying, Core.withReplies, Pipe.closeWriter]
  | tamper requests => simp [Run.moment, Step.sent, Step.read, perform]
  | core e =>
    by_cases haside : e.IsAside
    · have hsink := (Core.aside_perform (fun () => Core.onReply) haside c).sink
      cases e with
      | input event => exact haside.elim
      | judged v => exact haside.elim
      | _ => simp [Run.moment, Step.sent, Step.read, perform, hsink]
    · cases e with
      | input event =>
        simp [Run.moment, Step.sent, Step.read, perform, Core.perform,
          (Core.input_outcome _ _).replies]
      | judged v =>
        obtain ⟨replies, hqueue, hsink⟩ := Core.onReply_sink c
        simp [Run.moment, Step.sent, Step.read, perform, Core.perform, hsink, hqueue]
      | _ => exact absurd trivial haside

/-- Only a reply that is read authenticates, and only the byte 1 while a verification is under
way. -/
theorem authenticated_step {c : Core β O S Channel} {e : Event O}
    (hafter : (outcome (perform e) c).2.exit = some .authenticated)
    (hbefore : c.exit ≠ some .authenticated) :
    e = .core (.judged ()) ∧ c.auth.phase = .validating ∧ c.sink.replies.reading = .byte 1 := by
  cases e with
  | send bytes => exact absurd hafter hbefore
  | hinder faults => exact absurd hafter hbefore
  | hangUp => exact absurd hafter hbefore
  | tamper requests => exact absurd hafter hbefore
  | core e =>
    by_cases haside : e.IsAside
    · rcases (Core.aside_perform (fun () => Core.onReply) haside c).exit with hsame | ⟨-, hother⟩
      · exact absurd (hsame ▸ hafter) hbefore
      · exact absurd hafter hother
    · cases e with
      | input event =>
        have hsame : (outcome (Core.onInput event) c).2.exit = c.exit := Core.onInput_exit event c
        exact absurd (hsame ▸ hafter) hbefore
      | judged v =>
        refine ⟨rfl, ?_⟩
        have hreply := Core.reply_outcome c
        have hexit : (tried Core.onReply c).2.exit = some .authenticated := hafter
        generalize c.sink.replies.reading = reading,
          Core.Answer.ofResult (tried Core.onReply c).1 = answer at hreply ⊢
        cases hreply with
        | accepted replies hphase _ => exact ⟨hphase, rfl⟩
        | rejected _ _ _ hsame => exact absurd (hsame ▸ hexit) hbefore
        | unpaired _ _ h => exact absurd (h.exit ▸ hexit) hbefore
        | malformed _ _ _ h => exact absurd (h.exit ▸ hexit) hbefore
        | closed h => exact absurd (h.exit ▸ hexit) hbefore
        | broken _ h => exact absurd (h.exit ▸ hexit) hbefore
        | nothing h => exact absurd (h.exit ▸ hexit) hbefore
      | _ => exact absurd trivial haside

/-- A reply that was read while a verification was under way, and said yes. -/
def Step.Accepts (m : Step β O S) : Prop :=
  m.event = .core (.judged ()) ∧ m.before.auth.phase = .validating ∧
    m.before.sink.replies.reading = .byte 1

/-- Every reply has the outcome laid down for it, bytes are read in order and at most one by a call,
and a locker that leaves as authenticated has read the byte 1 while it was validating. -/
theorem no_spoofed_success (backend : β) (sink : Channel) (buffer : SecureBuffer)
    (ignoreEmpty : Bool) (palette : Palette) (es : List (Event O)) :
    let start : Core β O S Channel := Core.fresh backend sink buffer ignoreEmpty palette
    let ms : List (Step β O S) := Run.moments perform es start
    let last := Run.final perform es start
    (∀ m ∈ ms, m.event = .core (.judged ()) →
      Core.ReplyOutcome m.before m.after m.before.sink.replies.reading m.answer) ∧
    (∀ m ∈ ms, m.read.length ≤ 1) ∧
    sink.replies.queue ++ ms.flatMap Step.sent = ms.flatMap Step.read ++ last.sink.replies.queue ∧
    (∀ m ∈ ms, m.after.exit = some .authenticated → m.before.exit ≠ some .authenticated →
      m.Accepts) ∧
    (last.exit = some .authenticated → ∃ m ∈ ms, m.Accepts) := by
  intro start ms last
  refine ⟨?_, ?_, ?_, ?_, ?_⟩
  · intro m hm hevent
    rw [Run.eq_moment_of_mem hm, hevent]
    exact Core.reply_outcome m.before
  · intro m _
    unfold Step.read
    split
    · cases m.before.sink.replies.reading <;> simp [Reading.bytes]
    · simp
  · let P (ms : List (Step β O S)) (c : Core β O S Channel) :=
      sink.replies.queue ++ ms.flatMap Step.sent = ms.flatMap Step.read ++ c.sink.replies.queue
    have hstart : P [] start := by simp [P, start, Core.fresh]
    refine Run.holds_final (P := P) ?_ es hstart
    intro ms c e h
    have hstep := replies_step c e
    simp only [P, List.flatMap_append, List.flatMap_singleton] at h ⊢
    rw [← List.append_assoc, h, List.append_assoc, hstep, List.append_assoc]
  · intro m hm hafter hbefore
    rw [Run.eq_moment_of_mem hm] at hafter
    exact authenticated_step hafter hbefore
  · let P (ms : List (Step β O S)) (c : Core β O S Channel) :=
      c.exit = some .authenticated → ∃ m ∈ ms, m.Accepts
    have hstart : P [] start := fun h => absurd h (by simp [start, Core.fresh])
    refine Run.holds_final (P := P) ?_ es hstart
    intro ms c e ih hafter
    by_cases hbefore : c.exit = some .authenticated
    · obtain ⟨m, hm, haccepts⟩ := ih hbefore
      exact ⟨m, List.mem_append_left _ hm, haccepts⟩
    · exact ⟨Run.moment perform c e, by simp, authenticated_step hafter hbefore⟩

theorem accepted_after_submission :
    let es : List (Event Nat) :=
      [.core (.input (.insert [97])), .core (.input .submit), .send [1], .core (.judged ())]
    let start : Core Recorder Nat Nat Channel := Core.fresh {} {} ⟨zeros 8, 0, 64, 0, {}⟩ false {}
    let m : Step Recorder Nat Nat :=
      Run.moment perform (Run.final perform (es.take 3) start) (.core (.judged ()))
    m ∈ Run.moments perform es start ∧ m.after.exit = some .authenticated ∧ m.before.exit = none ∧
      m.Accepts := by
  intro es start m
  have hm : m ∈ Run.moments perform es start := by simp [Run.moments, m, es, Run.final]
  have hafter : m.after.exit = some .authenticated := by decide +kernel
  have hbefore : m.before.exit = none := by decide +kernel
  exact ⟨hm, hafter, hbefore,
    (no_spoofed_success _ _ _ _ _ es).2.2.2.1 m hm hafter (by rw [hbefore]; simp)⟩

end ScreenLocker.Hostile
