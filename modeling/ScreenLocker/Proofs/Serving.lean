import ScreenLocker.Proofs.Run
import ScreenLocker.Proofs.VerifierProcess

/-! The verifier process, which reads what has arrived and judges when it can, does in pieces what
the serving loop does on the whole stream: at every point it has answered some number of requests,
with the bytes that the loop writes for them, and holds on to the rest of the stream. -/

namespace ScreenLocker

namespace Verifier

variable {judge : Judge}

/-- So many requests were served from one state to the other. -/
inductive Served (judge : Judge) : Nat → State → State → Prop where
  | refl (s : State) : Served judge 0 s s
  | step {n : Nat} {s t u : State} : Served judge n s t → tried (serveOne judge) t = (.ok true, u) →
      Served judge (n + 1) s u

/-- The loop that has served them goes on from there. -/
theorem Served.serveUpTo {n : Nat} {s t : State} (h : Served judge n s t) (k : Nat) :
    tried (serveUpTo judge (n + k)) s = tried (serveUpTo judge k) t := by
  induction h generalizing k with
  | refl s => rw [Nat.zero_add]
  | step _ hone ih =>
    rw [Nat.add_assoc, Nat.add_comm 1 k, ih]
    simp [Verifier.serveUpTo, hone]

/-- A request is judged by its own bytes, whatever follows it on the stream. -/
theorem judgeOne_more {taken : Bytes} {b : SecureBuffer} {verdict : Verdict} {state : State}
    (h : tried (judgeOne judge) ⟨⟨taken, [], 0⟩, {}, b, []⟩ = (.ok (some verdict), state))
    (more : Bytes) (m : Nat) (replies : OutStream) (acts : List Act) :
    ∃ m' acts', tried (judgeOne judge) ⟨⟨taken ++ more, [], m⟩, replies, b, acts⟩ =
      (.ok (some verdict),
        ⟨⟨state.requests.pending ++ more, [], m'⟩, replies, state.credential, acts'⟩) := by
  obtain ⟨⟨requests, credential⟩, hread, hverdict, rfl⟩ := judgeOne_iff.mp h
  obtain ⟨m', hmore⟩ := Frame.read_more hread more m
  exact ⟨m', _, judgeOne_iff.mpr ⟨(_, credential), hmore, hverdict, rfl⟩⟩

/-- A request is served when it has been judged and the writer takes the reply. -/
theorem serveOne_judged {s t : State} {verdict : Verdict}
    (h : tried (judgeOne judge) s = (.ok (some verdict), t)) (hfree : t.replies.Free) :
    ∃ calls, tried (serveOne judge) s =
      (.ok true,
        t.replied { written := t.replies.written ++ [verdict.toByte], calls } (.ok ())) := by
  obtain ⟨calls, hwrite⟩ := Frame.writeVerdict_free verdict hfree
  exact ⟨calls, tried_serveOne h hwrite⟩

end Verifier

/-- Reading no more than is missing keeps within one frame. -/
theorem Frame.WithinOne.more {max : Nat} {taken piece : Bytes} (h : WithinOne taken)
    (hpiece : piece.length ≤ missing max taken) : WithinOne (taken ++ piece) := by
  unfold WithinOne at h ⊢
  unfold missing at hpiece
  rw [List.length_append]
  split at hpiece
  · omega
  · next hlong =>
    have hhead : (taken ++ piece).take headerLength = taken.take headerLength :=
      List.take_append_of_le_length (by omega)
    rw [hhead]
    dsimp only at hpiece
    split at hpiece
    · omega
    · omega

namespace Serving

/-- The loop that has come to `t` is where the process is: between two requests, or in one that it
has judged. -/
structure At (judge : Verifier.Judge) (t : Verifier.State) (s : Channel × VerifierProcess) :
    Prop where
  verifier : s.2.judge = judge
  written : t.replies.written = s.1.replies.queue
  free : t.replies.Free
  reading : t.requests.script = []
  between : ∀ b, s.2.credential = some b → s.2.owed = none →
    t.credential = b ∧ Frame.WithinOne s.2.taken ∧
    t.requests.pending = s.2.taken ++ s.1.requests.queue
  within : ∀ b verdict, s.2.credential = some b → s.2.owed = some verdict → s.2.taken = [] ∧
    ∃ u, tried (Verifier.judgeOne judge) t = (.ok (some verdict), u) ∧ u.credential = b ∧
      u.requests.pending = s.1.requests.queue ∧ u.requests.script = [] ∧ u.replies = t.replies

variable {judge : Verifier.Judge} {t : Verifier.State} {s s' : Channel × VerifierProcess}

/-- A step of the process leaves the loop where it is, or is the end of the loop's next request. -/
theorem At.moved (h : At judge t s) (hmoved : VerifierProcess.Moved s s') :
    At judge t s' ∨ ∃ u, tried (Verifier.serveOne judge) t = (.ok true, u) ∧ At judge u s' := by
  cases hmoved with
  | stayed => exact .inl h
  | @took ch v b piece rest hcred howed hqueue hpiece =>
    obtain ⟨hbuffer, hone, hpending⟩ := h.between b hcred howed
    refine .inl { h with between := ?_, within := ?_ }
    · intro b' hb' _
      obtain rfl : b = b' := Option.some.inj (hcred.symm.trans hb')
      refine ⟨hbuffer, hone.more hpiece, ?_⟩
      rw [hpending, List.append_assoc]
      exact congrArg (v.taken ++ ·) hqueue
    · intro b' verdict _ hverdict
      exact absurd (howed.symm.trans hverdict) (by simp)
  | @judged ch v b verdict state hcred howed hjudged =>
    obtain ⟨hbuffer, hone, hpending⟩ := h.between b hcred howed
    obtain ⟨c, htaken, hfit, -⟩ := Verifier.judgeOne_verdict hjudged
    have htaken : v.taken = Frame.encode c ++ state.requests.pending := htaken
    have hone : Frame.WithinOne v.taken := hone
    have hrest : state.requests.pending = [] := by
      rw [htaken] at hone
      exact hone.rest hfit
    obtain ⟨m, acts, hmore⟩ :=
      Verifier.judgeOne_more hjudged ch.requests.queue t.requests.consumed t.replies t.acts
    have ht : t =
        ⟨⟨v.taken ++ ch.requests.queue, [], t.requests.consumed⟩, t.replies, b, t.acts⟩ := by
      rw [← hpending, ← hbuffer, ← h.reading]
    have hverifier : v.judge = judge := h.verifier
    rw [← ht, hverifier] at hmore
    refine .inl { h with between := ?_, within := ?_ }
    · intro b' _ howed'
      simp at howed'
    · intro b' verdict' hb' hverdict
      obtain rfl : state.credential = b' := Option.some.inj hb'
      obtain rfl : verdict = verdict' := Option.some.inj hverdict
      exact ⟨rfl, _, hmore, rfl, by rw [hrest]; rfl, rfl, rfl⟩
  | @answered ch v b verdict hcred howed =>
    obtain ⟨htaken, u, hjudged, hbuffer, hpending, hscript, hreplies⟩ :=
      h.within b verdict hcred howed
    have htaken : v.taken = [] := htaken
    obtain ⟨calls, hserved⟩ := Verifier.serveOne_judged hjudged (hreplies ▸ h.free)
    refine .inr ⟨_, hserved, h.verifier, ?_, ⟨rfl, rfl⟩, hscript, ?_, ?_⟩
    · change u.replies.written ++ [verdict.toByte] = ch.replies.queue ++ [verdict.toByte]
      rw [hreplies]
      exact congrArg (· ++ [verdict.toByte]) h.written
    · intro b' hb' _
      obtain rfl : b = b' := Option.some.inj (hcred.symm.trans hb')
      refine ⟨hbuffer, ?_, ?_⟩
      · rw [Frame.WithinOne, htaken]
        exact Nat.zero_le _
      · rw [htaken]
        exact hpending
    · intro b' verdict' _ hverdict
      simp at hverdict
  | @ended ch v owed =>
    refine .inl ⟨h.verifier, h.written, h.free, h.reading, ?_, ?_⟩
    · intro b hb
      simp at hb
    · intro b verdict hb
      simp at hb

/-- At any point the process has answered as the loop answers the first requests of the stream,
however the stream came to it; and between two requests the rest of the stream is still before
it. -/
theorem serves_in_pieces (judge : Verifier.Judge) (buffer : SecureBuffer) (stream : Bytes)
    (es : List VerifierProcess.Event) :
    let start : Channel × VerifierProcess :=
      ({ requests := { queue := stream } }, { judge, credential := some buffer })
    let first : Verifier.State :=
      { requests := { pending := stream }, replies := {}, credential := buffer }
    let last := Run.final VerifierProcess.perform es start
    ∃ n, let served := tried (Verifier.serveUpTo judge n) first
      served.1 = .ok () ∧ served.2.replies.written = last.1.replies.queue ∧
      (last.2.credential.isSome → last.2.owed = none →
        served.2.requests.pending = last.2.taken ++ last.1.requests.queue) := by
  intro start first last
  have hstart : ∃ n t, Verifier.Served judge n first t ∧ At judge t start := by
    refine ⟨0, first, .refl first, rfl, rfl, ⟨rfl, rfl⟩, rfl, ?_, ?_⟩
    · intro b hb _
      exact ⟨Option.some.inj hb, Nat.zero_le _, rfl⟩
    · intro b verdict _ hverdict
      simp [start] at hverdict
  have hlast : ∃ n t, Verifier.Served judge n first t ∧ At judge t last := by
    refine Run.holds_final
      (P := fun _ s => ∃ n t, Verifier.Served judge n first t ∧ At judge t s) ?_ es hstart
    rintro ms s e ⟨n, t, hserved, hat⟩
    rcases hat.moved (VerifierProcess.moved_perform e s) with hsame | ⟨u, hone, hnext⟩
    · exact ⟨n, t, hserved, hsame⟩
    · exact ⟨n + 1, u, hserved.step hone, hnext⟩
  obtain ⟨n, t, hserved, hat⟩ := hlast
  have hloop : tried (Verifier.serveUpTo judge n) first = (.ok (), t) := hserved.serveUpTo 0
  refine ⟨n, ?_⟩
  change (tried (Verifier.serveUpTo judge n) first).1 = _ ∧ _
  rw [hloop]
  refine ⟨rfl, hat.written, fun hrunning howed => ?_⟩
  obtain ⟨b, hb⟩ := Option.isSome_iff_exists.mp hrunning
  exact (hat.between b hb howed).2.2

end Serving

end ScreenLocker
