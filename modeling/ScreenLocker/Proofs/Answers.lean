import ScreenLocker.Proofs.CredentialLifetime
import ScreenLocker.Proofs.Service

/-! What the verifier answers. The acts that it notes are those of a `Service`, and what they used up of the
streams and of the memory is what is gone from them. -/

namespace ScreenLocker

namespace Frame

/-- The limit stays what it was, and what was read is within it. -/
theorem read_fits {s s' : InStream} {b b' : SecureBuffer}
    (h : tried read (s, b) = (.ok true, (s', b'))) : b'.max = b.max ∧ Fits b.max b'.content := by
  obtain ⟨hpending, hsize⟩ := read_whole h
  obtain ⟨head, s₁, start, room, body, hhead, hwithin, hroom, -, rfl⟩ := read_iff.mp h
  obtain ⟨hfront, hfour⟩ := InStream.readExactly_whole hhead
  rw [hfront, encode, List.append_assoc] at hpending
  obtain ⟨rfl, -⟩ := List.append_inj hpending (by rw [hfour, length_header])
  rw [ofLittleEndian_header hsize] at hwithin
  obtain ⟨-, -, hmax, -⟩ := SecureBuffer.extendZeroed_ok hroom
  exact ⟨hmax, hwithin, hsize⟩

/-- What reading does to the buffer: nothing, or it is emptied, and has room made in it, and that is filled. -/
theorem read_buffer (s : InStream) (b : SecureBuffer) :
    let after := (tried read (s, b)).2.2
    after = b ∨ ∃ n, let asked := tried (SecureBuffer.extendZeroed n) b.wiped
      after = asked.2 ∨ ∃ start body, asked.1 = .ok start ∧
        after = (outcome (SecureBuffer.fill start body) asked.2).2 := by
  intro after
  have hafter : after = (tried read (s, b)).2.2 := rfl
  rcases hhead : InStream.readExactly headerLength s with ⟨⟨head, _ | f⟩, s₁⟩
  · by_cases hmax : b.max < ofLittleEndian head
    · left
      simp [hafter, tried_read, hhead, hmax]
    · right
      refine ⟨ofLittleEndian head, ?_⟩
      rcases hroom : tried (SecureBuffer.extendZeroed (ofLittleEndian head)) b.wiped with
        ⟨e | start, room⟩
      · left
        simp [hafter, tried_read, hhead, hmax, hroom]
      · right
        rcases hbody : InStream.readExactly (ofLittleEndian head) s₁ with ⟨⟨body, _ | f⟩, s₂⟩ <;>
          exact ⟨start, body, rfl, by simp [hafter, tried_read, hhead, hmax, hroom, hbody]⟩
  · left
    cases hend : f.isEndOfStream <;> simp [hafter, tried_read, hhead, hend]

end Frame

namespace SecureBuffer

/-- A buffer that is on record stays on record through a read, however that ends. -/
theorem Recorded.read {b : SecureBuffer} (h : Recorded b) (s : InStream) :
    Recorded (tried Frame.read (s, b)).2.2 := by
  have hwiped : Recorded b.wiped := h.edited (length_zeros _) _
  rcases Frame.read_buffer s b with hsame | ⟨n, hasked⟩
  · rw [hsame]
    exact h
  have hroom : Recorded (tried (extendZeroed n) b.wiped).2 := by
    have hreserved := hwiped.reserved (SecureBuffer.reserved n b.wiped)
    rcases hres : tried (reserve n) b.wiped with ⟨_ | _, room⟩
    · simpa [extendZeroed, hres] using hreserved
    · rw [hres] at hreserved
      have hlonger : Recorded { room with length := room.length + n } :=
        ⟨hreserved.tells, hreserved.numbered⟩
      simpa [extendZeroed, hres] using hlonger
  rcases hasked with hleft | ⟨start, body, hstart, hfilled⟩
  · rw [hleft]
    exact hroom
  · rw [hfilled]
    have hok := extendZeroed_ok (Prod.ext hstart rfl)
    refine hroom.edited (length_overwrite body ?_) _
    rw [hok.1]
    exact Nat.zero_le _

/-- Nothing is pinned any more, and each block that was pinned has been zeroed and unpinned. -/
def Released (m : Memory) : Prop :=
  Custody.pinned m.events = [] ∧ ∀ block, Custody.Past block (Custody.history block m.events) none

theorem Recorded.released {b : SecureBuffer} (h : Recorded b) : Released b.drop := by
  refine ⟨?_, h.past_drop⟩
  change Custody.pinned (_ ++ [MemoryEvent.unpin _ (zeros _)]) = []
  rw [Custody.pinned_snoc, h.tells.pinned]
  simp [MemoryEvent.pins, Custody.Blocks.pinned]

theorem released_of_refused {initial max : Nat} {memory left : Memory} {e : BufferError}
    (hnew : memory.events = []) (h : create initial max memory = .error (e, left)) : Released left := by
  obtain ⟨length, hevents⟩ := refused_create hnew h
  rw [Released, hevents]
  refine ⟨rfl, fun block => ?_⟩
  by_cases hblock : memory.nextBlock = block
  · subst hblock
    simpa [Custody.history, MemoryEvent.block] using Custody.Past.refused length
  · simpa [Custody.history, MemoryEvent.block, hblock] using Custody.Past.unseen

end SecureBuffer

namespace Verifier

open ScreenLocker.Frame (Fits Stuck ReadEnd ReplyEnd encodeAll)

variable {judge : Judge}

/-- From one state of the verifier to a later one: what was done, with all that is used up. -/
structure Does (s t : State) (acts : List Act) : Prop where
  noted : t.acts = s.acts ++ acts
  requests : s.requests.Passed t.requests (acts.flatMap Act.taken) (acts.flatMap Act.reads)
  replies : s.replies.Passed t.replies (acts.flatMap Act.written) (acts.flatMap Act.writes)
    (acts.flatMap Act.flushes)
  memory : s.credential.memory.Asked t.credential.memory (acts.flatMap Act.pins)
  recorded : s.credential.Recorded → t.credential.Recorded

theorem Does.trans {s t u : State} {acts more : List Act} (h : Does s t acts) (h' : Does t u more) :
    Does s u (acts ++ more) where
  noted := by rw [h'.noted, h.noted, List.append_assoc]
  requests := by
    simp only [List.flatMap_append]
    exact h.requests.trans h'.requests
  replies := by
    simp only [List.flatMap_append]
    exact h.replies.trans h'.replies
  memory := by
    rw [List.flatMap_append]
    exact h.memory.trans h'.memory
  recorded := h'.recorded ∘ h.recorded

/-- One act, by what it used up. -/
theorem Does.single {s t : State} {act : Act} (noted : t.acts = s.acts ++ [act])
    (requests : s.requests.Passed t.requests act.taken act.reads)
    (replies : s.replies.Passed t.replies act.written act.writes act.flushes)
    (memory : s.credential.memory.Asked t.credential.memory act.pins)
    (recorded : s.credential.Recorded → t.credential.Recorded) : Does s t [act] where
  noted := noted
  requests := by simpa using requests
  replies := by simpa using replies
  memory := by simpa using memory
  recorded := recorded

theorem spent_append {α : Type} (front rest : List α) : spent (front ++ rest) rest = front := by
  rw [spent, List.length_append, Nat.add_sub_cancel, List.take_left]

theorem spent_met {α : Type} {worth : α → Nat} {script rest met : List α} {moved : Nat}
    (h : Met worth script rest moved met) : spent script rest = met := by
  rw [h.front, spent_append]

theorem Act.ofOpening_asked {m m' : Memory} {pins : List Nat} (h : m.Asked m' pins)
    (r : Except Error Unit) : Act.ofOpening m m' r = .opened pins r := by
  obtain ⟨_, -, hmet⟩ := h
  rw [ofOpening, spent_met hmet]

section Acts

variable {s t : State}

theorem does_fetch {r : Except Error Bool} {left : InStream × SecureBuffer}
    (h : tried Frame.read (s.requests, s.credential) = (r, left)) :
    ∃ taken reads pins, Does s (s.fetched left r) [.read taken reads pins r] ∧
      ReadEnd s.credential.max s.requests.pending taken reads pins r := by
  obtain ⟨taken, reads, pins, hpassed, hasked, hend⟩ :=
    Frame.read_readEnd s.requests s.credential
  have hrecorded : s.credential.Recorded → _ := fun hstart => hstart.read s.requests
  rw [h] at hpassed hasked hend hrecorded
  have hact : Act.ofRead s (State.reading.put left s) r = .read taken reads pins r := by
    obtain ⟨events, -, hpins⟩ := hasked
    have htaken : spent s.requests.pending left.1.pending = taken := by
      rw [hpassed.pending, spent_append]
    change Act.read (spent s.requests.pending left.1.pending) _ _ r = _
    rw [htaken]
    congr 1
    · exact spent_met hpassed.met
    · exact spent_met hpins
  refine ⟨taken, reads, pins, .single ?_ hpassed (.refl _) hasked hrecorded, hend⟩
  rw [← hact]
  rfl

theorem does_judge (s : State) (left : InStream × SecureBuffer) :
    Does (s.fetched left (.ok true)) (s.judging left) [.judged left.2.content] :=
  .single rfl (.refl _) (.refl _) (Memory.asked_store _ _ _) fun h => h.edited (length_zeros _) _

theorem does_reply {v : Verdict} {r : Except Error Unit} {out : OutStream}
    (h : tried (Frame.writeVerdict v) t.replies = (r, out)) :
    ∃ bytes writes flushes,
      Does t (t.replied out r) [.replied t.credential.storage bytes writes flushes r] ∧
      ReplyEnd v bytes writes flushes r := by
  obtain ⟨bytes, writes, flushes, hpassed, hend⟩ := Frame.writeVerdict_replyEnd v t.replies
  rw [h] at hpassed hend
  have hact : Act.ofReply t { t with replies := out } r =
      .replied t.credential.storage bytes writes flushes r := by
    have hwritten : out.written.drop t.replies.written.length = bytes := by
      rw [hpassed.written, List.drop_left]
    change Act.replied _ (out.written.drop t.replies.written.length) _ _ r = _
    rw [hwritten]
    congr 1
    · exact spent_met hpassed.met
    · exact spent_met hpassed.flushed
  refine ⟨bytes, writes, flushes, .single ?_ (.refl _) hpassed (.refl _) id, hend⟩
  rw [← hact]
  rfl

end Acts

/-- One request from its read to its reply. The buffer is blank when the reply is written. -/
theorem does_round {s : State} {left : InStream × SecureBuffer} {v : Verdict}
    {r : Except Error Unit} {out : OutStream}
    (hread : tried Frame.read (s.requests, s.credential) = (.ok true, left))
    (hwrite : tried (Frame.writeVerdict v) s.replies = (r, out)) :
    let c := left.2.content
    ∃ storage bytes reads writes pins flushes,
      Does s ((s.judging left).replied out r)
        [.read (Frame.encode c) reads pins (.ok true), .judged c,
          .replied storage bytes writes flushes r] ∧
      ReadEnd s.credential.max s.requests.pending (Frame.encode c) reads pins (.ok true) ∧
      (∀ byte ∈ storage, byte = 0) ∧ ReplyEnd v bytes writes flushes r := by
  intro c
  obtain ⟨taken, reads, pins, hfetch, hend⟩ := does_fetch hread
  have htaken : taken = Frame.encode c := by
    have hpending : s.requests.pending = (taken ++ []) ++ left.1.pending := hfetch.requests.pending
    rw [List.append_nil, (Frame.read_whole hread).1] at hpending
    exact (List.append_cancel_right hpending).symm
  subst htaken
  obtain ⟨bytes, writes, flushes, hreply, hreplied⟩ := does_reply (t := s.judging left) hwrite
  exact ⟨_, bytes, reads, writes, pins, flushes,
    (hfetch.trans (does_judge s left)).trans hreply, hend,
    (SecureBuffer.blank_wiped left.2).2, hreplied⟩

/-- The loop comes to an end, since each round takes a frame from the stream. -/
theorem serveUpTo_course (judge : Judge) (n : Nat) (s : State)
    (hn : s.requests.pending.length < n) :
    let after := tried (serveUpTo judge n) s
    ∃ acts, Does s after.2 acts ∧
      Course judge s.credential.max s.requests.pending acts after.1 := by
  intro after
  induction n generalizing s with
  | zero => exact absurd hn (Nat.not_lt_zero _)
  | succ n ih =>
    rcases hread : tried Frame.read (s.requests, s.credential) with ⟨r, left⟩
    have hjudged := tried_judgeOne judge hread
    match r with
    | .error e =>
      obtain ⟨taken, reads, pins, hfetch, hend⟩ := does_fetch hread
      have hafter : after = (.error e, s.fetched left (.error e)) := by
        simp [after, serveUpTo, serveOne, hjudged]
      rw [hafter]
      exact ⟨_, hfetch, .failed hend⟩
    | .ok false =>
      obtain ⟨taken, reads, pins, hfetch, hend⟩ := does_fetch hread
      have hafter : after = (.ok (), s.fetched left (.ok false)) := by
        simp [after, serveUpTo, serveOne, hjudged]
      rw [hafter]
      exact ⟨_, hfetch, .ended hend⟩
    | .ok true =>
      let v := verdictOn judge left.2.content
      obtain ⟨hpending, -⟩ := Frame.read_whole hread
      rcases hwrite : tried (Frame.writeVerdict v) s.replies with ⟨r, out⟩
      obtain ⟨storage, bytes, reads, writes, pins, flushes, hround, hend, hblank, hreply⟩ :=
        does_round hread hwrite
      have hserved := tried_serveOne hjudged hwrite
      let t := (s.judging left).replied out r
      rw [hpending] at hend ⊢
      cases r with
      | error e =>
        have hafter : after = (.error e, t) := by
          simp [after, serveUpTo, hserved, t]
        rw [hafter]
        exact ⟨_, hround, .unanswered hend hblank hreply⟩
      | ok _ =>
        have hafter : after = tried (serveUpTo judge n) t := by
          simp [after, serveUpTo, hserved, t]
        have hshorter : t.requests.pending.length < n := by
          change left.1.pending.length < n
          have hframe : 0 < (Frame.encode left.2.content).length :=
            List.length_pos_iff.mpr (Frame.encode_ne_nil _)
          rw [hpending, List.length_append] at hn
          omega
        have hmax : t.credential.max = s.credential.max := (Frame.read_fits hread).1
        obtain ⟨acts, hrest, hcourse⟩ := ih t hshorter
        rw [hmax] at hcourse
        rw [hafter]
        exact ⟨_, hround.trans hrest, .answered hend hblank hreply hcourse⟩

section Serve

variable {max : Nat} {requests : InStream} {replies : OutStream} {memory : Memory}

theorem serve_refused {e : BufferError} {left : Memory}
    (h : SecureBuffer.create (Nat.min Credential.initialLength max) max memory = .error (e, left)) :
    (serve judge max requests replies memory).value =
      ⟨.error (.buffer e), requests, replies, [.ofOpening memory left (.error (.buffer e))], left⟩ := by
  unfold serve
  rw [h]
  rfl

theorem serve_opened {credential : SecureBuffer}
    (h : SecureBuffer.create (Nat.min Credential.initialLength max) max memory = .ok credential) :
    let acts : List Act := [.ofOpening memory credential.memory (.ok ())]
    let after := tried (serveUpTo judge (requests.pending.length + 1))
      { requests, replies, credential, acts }
    (serve judge max requests replies memory).value =
      ⟨after.1, after.2.requests, after.2.replies, after.2.acts, after.2.credential.drop⟩ := by
  unfold serve
  rw [h]
  rfl

/-- What a service used up, by its acts. -/
structure Accounted (requests : InStream) (replies : OutStream) (memory : Memory)
    (served : Outcome) : Prop where
  requests : requests.Passed served.requests (served.acts.flatMap Act.taken)
    (served.acts.flatMap Act.reads)
  replies : replies.Passed served.replies (served.acts.flatMap Act.written)
    (served.acts.flatMap Act.writes) (served.acts.flatMap Act.flushes)
  memory : memory.Asked served.memory (served.acts.flatMap Act.pins)

/-- A service is refused its buffer, or it has one and the loop runs with it. -/
theorem serve_service (judge : Judge) (max : Nat) (requests : InStream) (replies : OutStream)
    {memory : Memory} (hnew : memory.events = []) :
    let served := (serve judge max requests replies memory).value
    Service judge max requests.pending served.acts served.result ∧
      Accounted requests replies memory served ∧ SecureBuffer.Released served.memory := by
  intro served
  rcases SecureBuffer.create_asked (Nat.min Credential.initialLength max) max memory with
    ⟨hpin, credential, hcreate, hasked⟩ | ⟨hpin, left, hcreate, hasked⟩
  · let opened : Act := .opened (memory.answers.take 1) (.ok ())
    let start : State := ⟨requests, replies, credential, [opened]⟩
    obtain ⟨acts, hdoes, hcourse⟩ :=
      serveUpTo_course judge (requests.pending.length + 1) start (Nat.lt_succ_self _)
    have hserved : served = _ := serve_opened hcreate
    rw [Act.ofOpening_asked hasked] at hserved
    rcases hloop : tried (serveUpTo judge (requests.pending.length + 1)) start with ⟨r, last⟩
    rw [hloop] at hdoes hcourse
    have hserved : served = ⟨r, last.requests, last.replies, last.acts, last.credential.drop⟩ := by
      rw [hserved, hloop]
    have hmax : credential.max = max := (SecureBuffer.sound_create hcreate).2.1
    have hcourse : Course judge max requests.pending acts r := hmax ▸ hcourse
    have hdrop : last.credential.memory.Asked last.credential.drop [] := Memory.asked_release _ _ _
    have hmemory := (hasked.trans hdoes.memory).trans hdrop
    rw [List.append_nil] at hmemory
    have hlast := hdoes.recorded (SecureBuffer.recorded_create hnew hcreate)
    have hnoted : last.acts = opened :: acts := hdoes.noted
    rw [hserved, hnoted]
    exact ⟨.opened (Memory.granted_take hpin) hcourse, ⟨hdoes.requests, hdoes.replies, hmemory⟩,
      hlast.released⟩
  · have hserved : served = _ := serve_refused hcreate
    rw [Act.ofOpening_asked hasked, Memory.refused_take hpin] at hserved
    rw [Memory.refused_take hpin] at hasked
    rw [hserved]
    exact ⟨.refused hpin, ⟨.refl _, .refl _, hasked⟩, SecureBuffer.released_of_refused hnew hcreate⟩

end Serve

/-- Whatever the streams, the memory and the judge do, the verifier answers what it judged and no more. Its
acts are those of a `Service`, and account for all that it used up of the streams and of the memory. What was
judged is the front of the frames that the stream begins with, each frame once and in order, and is all of
them if no act met a fault or a refusal. Only the last act can have met one, and then the service ends as
that has it. Each verdict is one byte written, and only the last can be missing, when its own write failed.
While a reply is written the buffer is blank, and in the end no block is pinned and none was let go
unwiped. -/
theorem answers_what_it_judged (judge : Judge) (max : Nat) (requests : InStream) (replies : OutStream)
    (answers : List Nat) :
    let served := (serve judge max requests replies { answers }).value
    let verdicts : Bytes := served.seen.map fun c => if judge c then 1 else 0
    Service judge max requests.pending served.acts served.result ∧
    Accounted requests replies { answers } served ∧
    (∃ more tail ending, requests.pending = encodeAll (served.seen ++ more) ++ tail ∧
      (∀ c ∈ served.seen ++ more, Fits max c) ∧ Stuck max tail ending ∧
      ((∀ act ∈ served.acts, act.Untroubled) → more = [] ∧ served.result = ending)) ∧
    (∀ act ∈ served.acts.dropLast, act.Untroubled) ∧
    (∀ act ∈ served.acts, act.Decides served.result) ∧
    (served.replies.written = replies.written ++ verdicts ∨ ∃ missing storage writes f,
      served.replies.written ++ [missing] = replies.written ++ verdicts ∧
        served.acts.getLast? = some (.replied storage [] writes [] (.error (.io f)))) ∧
    (∀ storage bytes writes flushes r,
      .replied storage bytes writes flushes r ∈ served.acts → ∀ byte ∈ storage, byte = 0) ∧
    Custody.pinned served.memory.events = [] ∧
    ∀ block, Custody.Past block (Custody.history block served.memory.events) none := by
  intro served verdicts
  have hnew : ({ answers } : Memory).events = [] := rfl
  obtain ⟨hservice, haccounted, hreleased⟩ :=
    serve_service judge max requests replies hnew
  have hservice : Service judge max requests.pending served.acts served.result := hservice
  obtain ⟨front, last, hacts, hfront, hlast⟩ := hservice.closes
  have hverdicts : verdicts = (judged served.acts).map fun c => (verdictOn judge c).toByte := by
    refine List.map_congr_left fun c _ => ?_
    rw [verdictOn]
    split <;> rfl
  have hwritten : served.replies.written = replies.written ++ served.acts.flatMap Act.written :=
    haccounted.replies.written
  refine ⟨hservice, haccounted, hservice.leading, ?_, ?_, ?_, fun _ _ _ _ _ => hservice.blank, hreleased⟩
  · rw [hacts, List.dropLast_concat]
    exact hfront
  · rw [hacts]
    intro act hact
    rcases List.mem_append.mp hact with hearlier | hend
    · exact (hfront act hearlier).decides _
    · exact List.mem_singleton.mp hend ▸ hlast.decides
  · rw [hwritten, hverdicts]
    rcases hservice.delivered with hall | ⟨missing, storage, writes, f, hmissing, hend⟩
    · exact .inl (congrArg _ hall)
    · refine .inr ⟨missing, storage, writes, f, ?_, hend⟩
      rw [List.append_assoc, hmissing]

/-- The pipe breaks under the first reply, and the second request is left where it is. -/
example :
    let requests : InStream := { pending := encodeAll [[97], [98]] }
    let replies : OutStream := { script := [.fail (.os Errno.brokenPipe)] }
    let served := (serve (· == [97]) 1 requests replies {}).value
    served.acts = [.opened [] (.ok ()), .read [1, 0, 0, 0, 97] [] [] (.ok true), .judged [97],
      .replied [0] [] [.fail (.os Errno.brokenPipe)] [] (.error (.io (.os Errno.brokenPipe)))] :=
  rfl

end Verifier

end ScreenLocker
