import ScreenLocker.Proofs.Channel
import ScreenLocker.Verifier.Process

/-! What one step of the verifier process can do to the pipes and to itself. A step that judges has
a whole request before it, and owes the verdict on exactly that credential. -/

namespace ScreenLocker

namespace Verifier

def verdictOn (judge : Judge) (credential : Bytes) : Verdict :=
  if judge credential then .success else .failure

theorem tried_noting {α : Type} (act : State → State → Except Error α → Act)
    (x : Try State α) (s : State) :
    tried (noting act x) s =
      ((tried x s).1, (tried x s).2.note (act s (tried x s).2 (tried x s).1)) := rfl

/-- The verifier after a read that left this of the stream and of the buffer. -/
def State.fetched (s : State) (left : InStream × SecureBuffer) (r : Except Error Bool) : State :=
  (State.reading.put left s).note (.ofRead s (State.reading.put left s) r)

/-- The verifier after a judgement. The buffer, which held the credential, is wiped. -/
def State.judging (s : State) (left : InStream × SecureBuffer) : State :=
  { (s.fetched left (.ok true)).note (.judged left.2.content) with credential := left.2.wiped }

variable {judge : Judge} {s s' : State} {v : Verdict}

/-- What comes of a request depends on its read alone. -/
theorem tried_judgeOne (judge : Judge) {r : Except Error Bool} {left : InStream × SecureBuffer}
    (h : tried Frame.read (s.requests, s.credential) = (r, left)) :
    tried (judgeOne judge) s =
      match r with
      | .error e => (.error e, s.fetched left r)
      | .ok false => (.ok none, s.fetched left r)
      | .ok true => (.ok (some (verdictOn judge left.2.content)), s.judging left) := by
  have hread : tried Frame.read (State.reading.get s) = (r, left) := h
  have hnoted : tried (noting Act.ofRead (State.reading.attempt Frame.read)) s =
      (r, s.fetched left r) := by
    rw [tried_noting, tried_attempt, hread]
    rfl
  match r with
  | .error e => simp [judgeOne, hnoted]
  | .ok false => simp [judgeOne, hnoted]
  | .ok true =>
    have hcredential : (s.fetched left (.ok true)).credential = left.2 := rfl
    simp [judgeOne, hnoted, verdictOn, hcredential, State.judging, State.storing, State.note]

/-- A judgement takes a whole request, and the buffer is wiped before the verdict is given. -/
theorem judgeOne_iff :
    tried (judgeOne judge) s = (.ok (some v), s') ↔
      ∃ left, tried Frame.read (s.requests, s.credential) = (.ok true, left) ∧
        v = verdictOn judge left.2.content ∧ s' = s.judging left := by
  rcases hread : tried Frame.read (s.requests, s.credential) with ⟨r, left⟩
  rw [tried_judgeOne judge hread]
  match r with
  | .error e => simp
  | .ok false => simp
  | .ok true => simp [eq_comm]

/-- The verifier after a reply that left this of the writer. -/
def State.replied (s : State) (out : OutStream) (r : Except Error Unit) : State :=
  { s with replies := out }.note (.ofReply s { s with replies := out } r)

/-- A request that was judged is served when its reply is written. -/
theorem tried_serveOne {t : State} {out : OutStream} {r : Except Error Unit}
    (h : tried (judgeOne judge) s = (.ok (some v), t))
    (hwrite : tried (Frame.writeVerdict v) t.replies = (r, out)) :
    tried (serveOne judge) s = (r.map fun _ => true, t.replied out r) := by
  have hwrite : tried (Frame.writeVerdict v) (State.answering.get t) = (r, out) := hwrite
  have hnoted : tried (noting Act.ofReply (State.answering.attempt (Frame.writeVerdict v))) t =
      (r, t.replied out r) := by
    rw [tried_noting, tried_attempt, hwrite]
    rfl
  cases r <;> simp [serveOne, h, hnoted]

theorem judgeOne_verdict (h : tried (judgeOne judge) s = (.ok (some v), s')) :
    ∃ c, s.requests.pending = Frame.encode c ++ s'.requests.pending ∧ c.length < UInt32.size ∧
      v = verdictOn judge c := by
  obtain ⟨⟨requests, credential⟩, hread, hv, rfl⟩ := judgeOne_iff.mp h
  obtain ⟨hpending, hfit⟩ := Frame.read_whole hread
  exact ⟨credential.content, hpending, hfit, hv⟩

end Verifier

namespace VerifierProcess

/-- What a step can do. A process that has ended takes, judges and answers nothing. -/
inductive Moved : Channel × VerifierProcess → Channel × VerifierProcess → Prop where
  | stayed (s : Channel × VerifierProcess) : Moved s s
  | took {ch : Channel} {v : VerifierProcess} {b : SecureBuffer} (piece rest : Bytes) :
      v.credential = some b → v.owed = none → ch.requests.queue = piece ++ rest →
      piece.length ≤ Frame.missing b.max v.taken →
      Moved (ch, v)
        ({ ch with requests := { ch.requests with queue := rest } },
          { v with taken := v.taken ++ piece })
  | judged {ch : Channel} {v : VerifierProcess} {b : SecureBuffer} (verdict : Verdict)
      (state : Verifier.State) :
      v.credential = some b → v.owed = none →
      tried (Verifier.judgeOne v.judge) ⟨⟨v.taken, [], 0⟩, {}, b, []⟩ =
        (.ok (some verdict), state) →
      Moved (ch, v)
        (ch, { v with credential := some state.credential, taken := [], owed := some verdict })
  | answered {ch : Channel} {v : VerifierProcess} {b : SecureBuffer} (verdict : Verdict) :
      v.credential = some b → v.owed = some verdict →
      Moved (ch, v)
        ({ ch with replies := ch.replies.push [verdict.toByte] }, { v with owed := none })
  | ended {ch : Channel} {v : VerifierProcess} (owed : Option Verdict) :
      Moved (ch, v)
        ({ ch with requests := ch.requests.closeReader, replies := ch.replies.closeWriter },
          { v with credential := none, owed })

theorem Moved.judge {s s' : Channel × VerifierProcess} (h : Moved s s') :
    s'.2.judge = s.2.judge := by
  cases h <;> rfl

theorem moved_stop (s : Channel × VerifierProcess) : Moved s (outcome stop s).2 := .ended s.2.owed

theorem moved_read (n : Nat) (s : Channel × VerifierProcess) : Moved s (outcome (read n) s).2 := by
  obtain ⟨ch, v⟩ := s
  cases hcred : v.credential with
  | none => simpa [read, hcred] using Moved.stayed (ch, v)
  | some b =>
  cases howed : v.owed with
  | some verdict => simpa [read, hcred, howed] using Moved.stayed (ch, v)
  | none =>
    let piece := ch.requests.queue.take (Nat.min n (Frame.missing b.max v.taken))
    have hqueue : ch.requests.queue = piece ++ ch.requests.queue.drop piece.length :=
      (List.prefix_iff_eq_append.mp (List.take_prefix _ _)).symm
    have hafter : (outcome (read n) (ch, v)).2 =
        ({ ch with requests := { ch.requests with queue := ch.requests.queue.drop piece.length } },
          { v with taken := v.taken ++ piece }) := by
      simp [read, hcred, howed, piece]
    have hpiece : piece.length ≤ Frame.missing b.max v.taken :=
      Nat.le_trans (List.length_take_le _ _) (Nat.min_le_right _ _)
    rw [hafter]
    exact .took piece _ hcred howed hqueue hpiece

theorem moved_judgeTaken (s : Channel × VerifierProcess) : Moved s (outcome judgeTaken s).2 := by
  obtain ⟨ch, v⟩ := s
  cases hcred : v.credential with
  | none => simpa [judgeTaken, hcred] using Moved.stayed (ch, v)
  | some b =>
  cases howed : v.owed with
  | some verdict => simpa [judgeTaken, hcred, howed] using Moved.stayed (ch, v)
  | none =>
  by_cases hready :
      Frame.missing b.max v.taken = 0 ∨ ch.requests.queue = [] ∧ ch.requests.writerOpen = false
  · cases hjudged : tried (Verifier.judgeOne v.judge) ⟨⟨v.taken, [], 0⟩, {}, b, []⟩ with
    | mk r state =>
    match r with
    | .error e => simpa [judgeTaken, hcred, howed, hready, hjudged] using moved_stop (ch, v)
    | .ok none => simpa [judgeTaken, hcred, howed, hready, hjudged] using moved_stop (ch, v)
    | .ok (some verdict) =>
      simpa [judgeTaken, hcred, howed, hready, hjudged] using
        @Moved.judged ch v b verdict state hcred howed hjudged
  · simpa [judgeTaken, hcred, howed, hready] using Moved.stayed (ch, v)

theorem moved_answer (s : Channel × VerifierProcess) : Moved s (outcome answer s).2 := by
  obtain ⟨ch, v⟩ := s
  cases hcred : v.credential with
  | none => simpa [answer, hcred] using Moved.stayed (ch, v)
  | some b =>
  cases howed : v.owed with
  | none => simpa [answer, hcred, howed] using Moved.stayed (ch, v)
  | some verdict =>
  by_cases hopen : ch.replies.readerOpen
  · have hfree : ({} : OutStream).Free := ⟨rfl, rfl⟩
    obtain ⟨calls, hwrite⟩ := Frame.writeVerdict_free verdict hfree
    have hafter : (outcome answer (ch, v)).2 =
        ({ ch with replies := ch.replies.push [verdict.toByte] }, { v with owed := none }) := by
      simp [answer, hcred, howed, Pipe.writing, hopen, hwrite]
    rw [hafter]
    exact .answered verdict hcred howed
  · have hpipe : (Fault.os Errno.brokenPipe).isInterrupted = false := by decide
    obtain ⟨calls, hwrite⟩ := Frame.writeVerdict_refused verdict hpipe
    have hafter : (outcome answer (ch, v)).2 = (outcome stop (ch, { v with owed := none })).2 := by
      simp [answer, hcred, howed, Pipe.writing, hopen, hwrite]
    rw [hafter]
    exact .ended none

inductive Event where
  /-- Reads at most so many bytes. -/
  | read (n : Nat)
  | judge
  | answer
  /-- Ends, for whatever reason. -/
  | quit

def perform : Event → Op (Channel × VerifierProcess) Unit
  | .read n => (fun _ => ()) <$> read n
  | .judge => (fun _ => ()) <$> judgeTaken
  | .answer => (fun _ => ()) <$> answer
  | .quit => stop

theorem moved_perform (e : Event) (s : Channel × VerifierProcess) :
    Moved s (outcome (perform e) s).2 := by
  cases e with
  | read n => exact moved_read n s
  | judge => exact moved_judgeTaken s
  | answer => exact moved_answer s
  | quit => exact moved_stop s

end VerifierProcess

end ScreenLocker
