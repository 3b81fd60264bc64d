import ScreenLocker.Compositor.Recorder
import ScreenLocker.Proofs.Attempt
import ScreenLocker.Proofs.VerifierProcess

/-! The locker and its verifier, each in its own process, with two queues of bytes between them.
They take turns in any order, and the verifier may read a request in any pieces and end at any time.
Replies carry no number; that each one answers the request it is taken for rests on there never
being more than one on its way. A submission holds the locker until its whole frame is on the pipe,
and a verifier that has begun a frame waits for the rest of it, so it makes no difference in what
pieces the frame went out. -/

namespace ScreenLocker.Pairing

variable {β O S : Type}

abbrev System (β O S : Type) := Core β O S Channel × VerifierProcess

inductive Event (O : Type) where
  | core (e : Core.Event O Unit)
  | verifier (e : VerifierProcess.Event)
  /-- Reads of replies to come meet these faults first. -/
  | hinder (faults : List Fault)

def locker : Part (System β O S) (Core β O S Channel) := Part.left

def verifier : Part (System β O S) (Channel × VerifierProcess) where
  get s := (s.1.sink, s.2)
  put t s := ({ s.1 with sink := t.1 }, t.2)

def perform [Compositor β O S] : Event O → Op (System β O S) Core.Answer
  | .core e => locker.on (Core.perform (fun () => Core.onReply) e)
  | .verifier e => (fun _ => .done) <$> verifier.on (VerifierProcess.perform e)
  | .hinder faults => do
    modify fun (c, v) =>
      (c.withReplies { c.sink.replies with faults := c.sink.replies.faults ++ faults }, v)
    pure .done

abbrev Step (β O S : Type) := Moment (System β O S) (Event O) Core.Answer

/-- The credential in the buffer, if the step put a request on the pipe. -/
def Step.submitted (m : Step β O S) : List Bytes :=
  match m.event with
  | .core _ =>
    if m.before.1.sink.requests.queue.length < m.after.1.sink.requests.queue.length then
      [m.before.1.auth.buffer.content]
    else []
  | _ => []

/-- The replies that the locker took off the pipe. -/
def Step.consumed (m : Step β O S) : Bytes :=
  match m.event with
  | .core _ =>
    m.before.1.sink.replies.queue.take
      (m.before.1.sink.replies.queue.length - m.after.1.sink.replies.queue.length)
  | _ => []

/-- The reply that a credential deserves. -/
def reply (judge : Verifier.Judge) (credential : Bytes) : UInt8 :=
  (Verifier.verdictOn judge credential).toByte

theorem reply_eq_one {judge : Verifier.Judge} {c : Bytes} (h : reply judge c = 1) :
    judge c = true := by
  cases hc : judge c with
  | true => rfl
  | false => simp [reply, Verifier.verdictOn, hc, Verdict.toByte] at h

/-- Where the request is whose reply has not been taken yet, if there is one: sent and perhaps read
in part, judged, answered, or lost with the verifier. -/
inductive Flight (v : VerifierProcess) (requests replies : Bytes) : Option Bytes → Prop where
  | quiet : replies = [] → v.credential = none ∨ (v.taken = [] ∧ v.owed = none ∧ requests = []) →
      Flight v requests replies none
  | sent (c : Bytes) : replies = [] → v.owed = none → c.length < UInt32.size →
      v.taken ++ requests = Frame.encode c → Flight v requests replies (some c)
  | judged (c : Bytes) : replies = [] → v.owed = some (Verifier.verdictOn v.judge c) →
      v.taken = [] → requests = [] → Flight v requests replies (some c)
  | answered (c : Bytes) : replies = [reply v.judge c] → v.owed = none →
      v.taken = [] → requests = [] → Flight v requests replies (some c)
  | lost (c : Bytes) : replies = [] ∨ replies = [reply v.judge c] → v.credential = none →
      Flight v requests replies (some c)

/-- The verifier moves the request along, and never finds another in its place. -/
theorem Flight.moved {s s' : Channel × VerifierProcess} {outstanding : Option Bytes}
    (hmoved : VerifierProcess.Moved s s')
    (h : Flight s.2 s.1.requests.queue s.1.replies.queue outstanding) :
    Flight s'.2 s'.1.requests.queue s'.1.replies.queue outstanding := by
  cases hmoved with
  | stayed => exact h
  | took piece rest hcred howed hqueue _ =>
    dsimp only at h ⊢
    rw [hqueue] at h
    cases h with
    | quiet hreplies hidle =>
      rcases hidle with hnone | ⟨htaken, -, hempty⟩
      · simp [hcred] at hnone
      · obtain ⟨hpiece, hrest⟩ := List.append_eq_nil_iff.mp hempty
        exact .quiet hreplies (.inr ⟨by simp [htaken, hpiece], howed, hrest⟩)
    | sent c hreplies _ hfit hframe =>
      exact .sent c hreplies howed hfit (by rw [List.append_assoc]; exact hframe)
    | judged c _ hverdict => simp [howed] at hverdict
    | answered c hreplies _ htaken hempty =>
      obtain ⟨hpiece, hrest⟩ := List.append_eq_nil_iff.mp hempty
      exact .answered c hreplies howed (by simp [htaken, hpiece]) hrest
    | lost c _ hnone => simp [hcred] at hnone
  | @judged ch v b verdict state hcred howed hjudged =>
    obtain ⟨c, htaken, hfit, rfl⟩ := Verifier.judgeOne_verdict hjudged
    have htaken : v.taken = Frame.encode c ++ state.requests.pending := htaken
    have hsome : ∀ {bytes : Bytes}, Frame.encode c ++ bytes ≠ [] := fun hnil =>
      Frame.encode_ne_nil c (List.append_eq_nil_iff.mp hnil).1
    dsimp only at h ⊢
    cases h with
    | quiet _ hidle =>
      rcases hidle with hnone | ⟨hnil, -, -⟩
      · simp [hcred] at hnone
      · exact absurd (htaken.symm.trans hnil) hsome
    | sent c' hreplies _ hfit' hframe =>
      rw [htaken, List.append_assoc, ← List.append_nil (Frame.encode c')] at hframe
      obtain ⟨rfl, hrest⟩ := Frame.encode_append_inj hfit hfit' hframe
      exact .judged c hreplies rfl rfl (List.append_eq_nil_iff.mp hrest).2
    | judged c' _ hverdict => simp [howed] at hverdict
    | answered c' _ _ hnil => exact absurd (htaken.symm.trans hnil) hsome
    | lost c' _ hnone => simp [hcred] at hnone
  | answered verdict hcred howed =>
    dsimp only [Pipe.push] at h ⊢
    cases h with
    | quiet _ hidle =>
      rcases hidle with hnone | ⟨-, hverdict, -⟩
      · simp [hcred] at hnone
      · simp [howed] at hverdict
    | sent c _ hverdict => simp [howed] at hverdict
    | judged c hreplies hverdict htaken hempty =>
      obtain rfl : verdict = Verifier.verdictOn _ c := by simpa [howed] using hverdict
      exact .answered c (by rw [hreplies]; rfl) rfl htaken hempty
    | answered c _ hverdict => simp [howed] at hverdict
    | lost c _ hnone => simp [hcred] at hnone
  | ended owed =>
    dsimp only [Pipe.closeReader, Pipe.closeWriter] at h ⊢
    cases h with
    | quiet hreplies => exact .quiet hreplies (.inl rfl)
    | sent c hreplies => exact .lost c (.inl hreplies) rfl
    | judged c hreplies => exact .lost c (.inl hreplies) rfl
    | answered c hreplies => exact .lost c (.inr hreplies) rfl
    | lost c hreplies => exact .lost c hreplies rfl

/-- Requests and replies pair up: the replies to `answered` have been taken, and no other request
than `outstanding` is on its way. -/
structure Paired (judge : Verifier.Judge) (answered : List Bytes) (outstanding : Option Bytes)
    (s : System β O S) : Prop where
  verifier : s.2.judge = judge
  phase : s.1.auth.phase = .validating ↔ outstanding.isSome
  flight : Flight s.2 s.1.sink.requests.queue s.1.sink.replies.queue outstanding
  exit : s.1.exit = some .authenticated →
    outstanding = none ∧ ∃ c, answered.getLast? = some c ∧ judge c = true

variable {judge : Verifier.Judge} {answered : List Bytes} {outstanding : Option Bytes}

theorem Paired.moved {s : System β O S} {t : Channel × VerifierProcess}
    (h : Paired judge answered outstanding s) (hmoved : VerifierProcess.Moved (s.1.sink, s.2) t) :
    Paired judge answered outstanding ({ s.1 with sink := t.1 }, t.2) where
  verifier := hmoved.judge.trans h.verifier
  phase := h.phase
  flight := h.flight.moved hmoved
  exit := h.exit

/-- A step of the locker that puts nothing on the pipes and takes nothing off. -/
theorem Paired.kept {c c' : Core β O S Channel} {v : VerifierProcess}
    (h : Paired judge answered outstanding (c, v))
    (hrequests : c'.sink.requests.queue = c.sink.requests.queue)
    (hreplies : c'.sink.replies.queue = c.sink.replies.queue)
    (hphase : c'.auth.phase = .validating ↔ c.auth.phase = .validating)
    (hexit : c'.exit = some .authenticated → c.exit = some .authenticated) :
    Paired judge answered outstanding (c', v) where
  verifier := h.verifier
  phase := hphase.trans h.phase
  flight := by
    rw [hrequests, hreplies]
    exact h.flight
  exit := fun hauth => h.exit (hexit hauth)

theorem Paired.submitted {c c' : Core β O S Channel} {v : VerifierProcess} {credential : Bytes}
    (h : Paired judge answered none (c, v)) (hfit : credential.length < UInt32.size)
    (hsink : c'.sink = { c.sink with requests := c.sink.requests.push (Frame.encode credential) })
    (hphase : c'.auth.phase = .validating) (hexit : c'.exit = none) :
    Paired judge answered (some credential) (c', v) where
  verifier := h.verifier
  phase := by simp [hphase]
  flight := by
    have hflight := h.flight
    rw [hsink]
    dsimp only at hflight ⊢
    cases hflight with
    | quiet hreplies hidle =>
      rcases hidle with hnone | ⟨htaken, howed, hempty⟩
      · exact .lost credential (.inl hreplies) hnone
      · exact .sent credential hreplies howed hfit (by simp [Pipe.push, htaken, hempty])
  exit := by simp [hexit]

/-- A reply that is taken is the one to the request on its way, which ends with it. -/
theorem Flight.taken {v : VerifierProcess} {requests rest : Bytes} {b : UInt8}
    (h : Flight v requests (b :: rest) outstanding) :
    ∃ c, outstanding = some c ∧ b = reply v.judge c ∧ Flight v requests rest none := by
  cases h with
  | quiet hreplies => simp at hreplies
  | sent c hreplies => simp at hreplies
  | judged c hreplies => simp at hreplies
  | answered c hreplies howed htaken hempty =>
    obtain ⟨rfl, rfl⟩ := List.cons.inj hreplies
    exact ⟨c, rfl, rfl, .quiet rfl (.inr ⟨htaken, howed, hempty⟩)⟩
  | lost c hreplies hnone =>
    rcases hreplies with hreplies | hreplies
    · simp at hreplies
    · obtain ⟨rfl, rfl⟩ := List.cons.inj hreplies
      exact ⟨c, rfl, rfl, .quiet rfl (.inl hnone)⟩

/-- The request on its way is over when its reply is taken, and no other reply can be. -/
theorem Paired.replied {c c' : Core β O S Channel} {v : VerifierProcess} {reading : Reading}
    {answer : Core.Answer}
    (h : Paired judge answered outstanding (c, v)) (hreply : Core.ReplyOutcome c c' reading answer)
    (hqueue : c.sink.replies.queue = reading.bytes ++ c'.sink.replies.queue)
    (hrequests : c'.sink.requests.queue = c.sink.requests.queue) :
    ∃ answered' outstanding', Paired judge answered' outstanding' (c', v) ∧
      answered' ++ outstanding'.toList = answered ++ outstanding.toList ∧
      answered'.map (reply judge) = answered.map (reply judge) ++ reading.bytes := by
  have hverifier : v.judge = judge := h.verifier
  have hphase : c.auth.phase = .validating ↔ outstanding.isSome := h.phase
  have hflight : Flight v c.sink.requests.queue c.sink.replies.queue outstanding := h.flight
  rw [hqueue] at hflight
  have kept {replies : Pipe} (hc : c' = c.withReplies replies) (hbytes : reading.bytes = []) :
      ∃ answered' outstanding', Paired judge answered' outstanding' (c', v) ∧
        answered' ++ outstanding'.toList = answered ++ outstanding.toList ∧
        answered'.map (reply judge) = answered.map (reply judge) ++ reading.bytes := by
    rw [hbytes, List.nil_append] at hqueue
    refine ⟨answered, outstanding, h.kept hrequests hqueue.symm ?_ ?_, rfl, by simp [hbytes]⟩
    · rw [hc]
      exact Iff.rfl
    · rw [hc]
      exact id
  cases hreply with
  | accepted replies hvalidating hc =>
    obtain ⟨credential, rfl, hb, hquiet⟩ := hflight.taken
    have hjudge : judge credential = true := reply_eq_one (hverifier ▸ hb.symm)
    refine ⟨answered ++ [credential], none, ⟨hverifier, ?_, ?_, ?_⟩, by simp,
      by simp [hb, hverifier, Reading.bytes]⟩
    · simp [hc]
    · exact hrequests ▸ hquiet
    · exact fun _ => ⟨rfl, credential, by simp, hjudge⟩
  | rejected _ hvalidating hauth hexit =>
    obtain ⟨credential, rfl, hb, hquiet⟩ := hflight.taken
    refine ⟨answered ++ [credential], none, ⟨hverifier, ?_, ?_, ?_⟩, by simp,
      by simp [hb, hverifier, Reading.bytes]⟩
    · simp [hauth]
    · exact hrequests ▸ hquiet
    · exact fun hleft => absurd (h.exit (hexit.symm.trans hleft)).1 (by simp)
  | unpaired verdict hidle =>
    obtain ⟨credential, rfl, -, -⟩ := hflight.taken
    exact absurd (hphase.mpr rfl) hidle
  | malformed b h0 h1 =>
    obtain ⟨credential, rfl, hb, -⟩ := hflight.taken
    cases hv : v.judge credential with
    | true => exact absurd (by simp [hb, reply, Verifier.verdictOn, hv, Verdict.toByte]) h1
    | false => exact absurd (by simp [hb, reply, Verifier.verdictOn, hv, Verdict.toByte]) h0
  | closed hsame =>
    obtain ⟨replies, hc⟩ := hsame
    exact kept hc rfl
  | broken _ hsame =>
    obtain ⟨replies, hc⟩ := hsame
    exact kept hc rfl
  | nothing hsame =>
    obtain ⟨replies, hc⟩ := hsame
    exact kept hc rfl

variable [Compositor β O S]

theorem Paired.core {c : Core β O S Channel} {v : VerifierProcess}
    (h : Paired judge answered outstanding (c, v)) (e : Core.Event O Unit) :
    let m : Step β O S := Run.moment perform (c, v) (.core e)
    ∃ answered' outstanding', Paired judge answered' outstanding' m.after ∧
      answered' ++ outstanding'.toList = answered ++ outstanding.toList ++ m.submitted ∧
      answered'.map (reply judge) = answered.map (reply judge) ++ m.consumed := by
  intro m
  let c' := (outcome (Core.perform (fun () => Core.onReply) e) c).2
  have hafter : m.after = (c', v) := rfl
  have hsubmitted : m.submitted =
      if c.sink.requests.queue.length < c'.sink.requests.queue.length then
        [c.auth.buffer.content]
      else [] := rfl
  have hconsumed : m.consumed =
      c.sink.replies.queue.take (c.sink.replies.queue.length - c'.sink.replies.queue.length) := rfl
  rw [hafter, hsubmitted, hconsumed]
  by_cases haside : e.IsAside
  · have hstep : Core.Aside c c' := Core.aside_perform (fun () => Core.onReply) haside c
    refine ⟨answered, outstanding,
      h.kept (by rw [hstep.sink]) (by rw [hstep.sink]) (by rw [hstep.auth]) ?_,
      by simp [hstep.sink], by simp [hstep.sink]⟩
    intro hauth
    rcases hstep.exit with hsame | ⟨-, hother⟩
    · exact hsame.symm.trans hauth
    · exact absurd hauth hother
  · cases e with
    | input event =>
      have hinput : Core.InputOutcome c c' := Core.input_outcome event c
      cases hinput with
      | kept hsink hphase hexit =>
        exact ⟨answered, outstanding,
          h.kept (by rw [hsink]) (by rw [hsink]) hphase (fun hauth => hexit ▸ hauth),
          by simp [hsink], by simp [hsink]⟩
      | submitted hidle _ hfit hsink hphase hexit =>
        have hnone : outstanding = none := by
          simpa using fun hsome => hidle (h.phase.mpr hsome)
        subst hnone
        have hgrown : 0 < (Frame.encode c.auth.buffer.content).length :=
          List.length_pos_iff.mpr (Frame.encode_ne_nil _)
        refine ⟨answered, some c.auth.buffer.content, h.submitted hfit hsink hphase hexit, ?_,
          by simp [hsink]⟩
        simp [hsink, Pipe.push, hgrown]
    | judged u =>
      obtain ⟨replies, hqueue, hsink⟩ := Core.onReply_sink c
      have hsink : c'.sink = { c.sink with replies } := hsink
      have hreply :
          Core.ReplyOutcome c c' c.sink.replies.reading (.ofResult (tried Core.onReply c).1) :=
        Core.reply_outcome c
      have htaken := h.replied hreply (by rw [hsink]; exact hqueue) (by rw [hsink])
      simpa [hsink, hqueue] using htaken
    | _ => exact absurd trivial haside

/-- Every step keeps requests and replies paired. -/
theorem Paired.next {s : System β O S} (h : Paired judge answered outstanding s) (e : Event O) :
    let m : Step β O S := Run.moment perform s e
    ∃ answered' outstanding', Paired judge answered' outstanding' m.after ∧
      answered' ++ outstanding'.toList = answered ++ outstanding.toList ++ m.submitted ∧
      answered'.map (reply judge) = answered.map (reply judge) ++ m.consumed := by
  have nothing {s' : System β O S} (h' : Paired judge answered outstanding s') :
      ∃ answered' outstanding', Paired judge answered' outstanding' s' ∧
        answered' ++ outstanding'.toList = answered ++ outstanding.toList ++ [] ∧
        answered'.map (reply judge) = answered.map (reply judge) ++ [] :=
    ⟨answered, outstanding, h', by simp, by simp⟩
  cases e with
  | core e => exact h.core e
  | verifier e => exact nothing (h.moved (VerifierProcess.moved_perform e _))
  | hinder faults => exact nothing (h.kept rfl rfl Iff.rfl id)

/-- What the locker and its verifier have done in any order of steps: requests are answered in turn
and by what the verifier makes of exactly the bytes that were submitted, at most one is on its way,
and a locker that leaves as authenticated leaves on the last one. Errors on the way take nothing
from this. The process here serves in pieces; `Serving.serves_in_pieces` says that it answers as the
serving loop does. -/
theorem authentication_sound (judge : Verifier.Judge) (memory : Option SecureBuffer) (backend : β)
    (buffer : SecureBuffer) (ignoreEmpty : Bool) (palette : Palette) (es : List (Event O)) :
    let locker : Core β O S Channel := Core.fresh backend {} buffer ignoreEmpty palette
    let start : System β O S := (locker, { judge, credential := memory })
    let ms : List (Step β O S) := Run.moments perform es start
    let last := (Run.final perform es start).1
    let submitted := ms.flatMap Step.submitted
    let consumed := ms.flatMap Step.consumed
    submitted.length = consumed.length + (if last.auth.phase = .validating then 1 else 0) ∧
    consumed = (submitted.take consumed.length).map (reply judge) ∧
    (last.exit = some .authenticated → ∃ c, submitted.getLast? = some c ∧ judge c = true) := by
  intro locker start ms last submitted consumed
  let P (ms : List (Step β O S)) (s : System β O S) :=
    ∃ answered outstanding, Paired judge answered outstanding s ∧
    answered ++ outstanding.toList = ms.flatMap Step.submitted ∧
    answered.map (reply judge) = ms.flatMap Step.consumed
  have hstart : P [] start := by
    refine ⟨[], none,
      ⟨rfl, by simp [start, locker, Core.fresh], .quiet rfl (.inr ⟨rfl, rfl, rfl⟩), ?_⟩, rfl, rfl⟩
    simp [start, locker, Core.fresh]
  have hnext : ∀ ms s e, P ms s →
      P (ms ++ [Run.moment perform s e]) (Run.moment perform s e).after := by
    rintro ms s e ⟨answered, outstanding, h, hsubmitted, hconsumed⟩
    obtain ⟨answered', outstanding', h', hsubmitted', hconsumed'⟩ := h.next e
    refine ⟨answered', outstanding', h', ?_, ?_⟩
    · rw [hsubmitted', hsubmitted, List.flatMap_append, List.flatMap_singleton]
    · rw [hconsumed', hconsumed, List.flatMap_append, List.flatMap_singleton]
  obtain ⟨answered, outstanding, h, hsubmitted, hconsumed⟩ := Run.holds_final hnext es hstart
  change _ = submitted at hsubmitted
  change _ = consumed at hconsumed
  rw [← hsubmitted, ← hconsumed]
  refine ⟨?_, ?_, ?_⟩
  · have hphase : last.auth.phase = .validating ↔ outstanding.isSome := h.phase
    cases outstanding <;> simp [hphase]
  · simp
  · intro hauth
    obtain ⟨rfl, c, hlast, hjudge⟩ := h.exit hauth
    exact ⟨c, by simpa using hlast, hjudge⟩

example :
    let locker : Core Recorder Nat Nat Channel := Core.fresh {} {} ⟨zeros 8, 0, 64, 0, {}⟩ false {}
    let verifier : VerifierProcess :=
      { judge := (· == [97]), credential := some ⟨zeros 8, 0, 64, 0, {}⟩ }
    let es : List (Event Nat) :=
      [.core (.input (.insert [97])), .core (.input .submit), .verifier (.read 3),
        .verifier (.read 1), .verifier (.read 9), .verifier .judge, .verifier .answer,
        .core (.judged ())]
    (Run.final perform es (locker, verifier)).1.exit = some .authenticated := by
  decide +kernel

end ScreenLocker.Pairing
