import ScreenLocker.Proofs.Requests
import ScreenLocker.Proofs.VerifierProcess

/-! Which streams are read to their end. A reader takes frames within its limit off the stream and ends
without an error if less than a header is left, be it nothing or the beginning of a header. Of every other
stream it takes the frames at the front, and then fails. The verifier, which serves what it reads, ends in
the same way. -/

namespace ScreenLocker

namespace Frame

/-- Frames within the limit, one for each credential, and then less than a header. -/
def Framed (max : Nat) (credentials : List Bytes) (stream : Bytes) : Prop :=
  (∀ c ∈ credentials, Fits max c) ∧
    ∃ tail, stream = encodeAll credentials ++ tail ∧ tail.length < headerLength

theorem Stuck.short {max : Nat} {tail : Bytes} (h : Stuck max tail (.ok ())) :
    tail.length < headerLength := by
  cases h with
  | ended short => exact short

theorem length_encodeAll (cs : List Bytes) : cs.length ≤ (encodeAll cs).length := by
  induction cs with
  | nil => exact Nat.zero_le _
  | cons c cs ih =>
    have hsome : 0 < (encode c).length := List.length_pos_iff.mpr (encode_ne_nil c)
    rw [encodeAll_cons, List.length_append, List.length_cons]
    omega

theorem writeVerdict_reliable (v : Verdict) {out : OutStream} (h : out.Reliable) :
    ∃ out', tried (writeVerdict v) out = (.ok (), out') ∧ out'.Reliable := by
  obtain ⟨out₁, hwrite, -, h₁⟩ := OutStream.writeAll_reliable h [v.toByte]
  obtain ⟨out₂, hflush, -, h₂⟩ := OutStream.flush_reliable h₁
  exact ⟨out₂, by simp [writeVerdict, hwrite, hflush], h₂⟩

end Frame

namespace Verifier

open ScreenLocker.Frame (Fits Stuck Ready Framed encodeAll headerLength)

variable {judge : Judge} {max : Nat} {s : State}

/-- A request that is there is judged, and the buffer is ready for the next. -/
theorem serveOne_frame (h : Ready max (s.requests, s.credential)) (hreplies : s.replies.Reliable)
    {c rest : Bytes} (hpending : s.requests.pending = Frame.encode c ++ rest) (hfits : Fits max c) :
    ∃ t, tried (serveOne judge) s = (.ok true, t) ∧ Ready max (t.requests, t.credential) ∧
      t.replies.Reliable ∧ t.requests.pending = rest := by
  obtain ⟨⟨requests, credential⟩, hread, hready, -, hrest, -⟩ := Frame.read_frame h hpending hfits
  let judged := s.judging (requests, credential)
  have hjudged : tried (judgeOne judge) s =
      (.ok (some (verdictOn judge credential.content)), judged) :=
    judgeOne_iff.mpr ⟨_, hread, rfl, rfl⟩
  obtain ⟨out, hwrite, hreliable⟩ :=
    Frame.writeVerdict_reliable (verdictOn judge credential.content) hreplies
  have hserved : tried (serveOne judge) s = (.ok true, judged.replied out (.ok ())) :=
    tried_serveOne hjudged hwrite
  exact ⟨_, hserved, hready.wiped, hreliable, hrest⟩

/-- What no frame begins with ends the serving, as it ends the reading. -/
theorem serveOne_stuck (h : Ready max (s.requests, s.credential)) {r : Except Error Unit}
    (hstuck : Stuck max s.requests.pending r) :
    (tried (serveOne judge) s).1 = r.map fun _ => false := by
  have hread := Frame.read_stuck h hstuck
  rcases hresult : tried Frame.read (s.requests, s.credential) with ⟨answer, left⟩
  rw [hresult] at hread
  have hjudged := tried_judgeOne judge hresult
  cases r with
  | error e =>
    obtain rfl : answer = .error e := hread
    simp [serveOne, hjudged]
  | ok _ =>
    obtain rfl : answer = .ok false := hread
    simp [serveOne, hjudged]

/-- The loop serves the frames and ends as the rest of the stream has it, if it may serve more than that
many. -/
theorem serveUpTo_all {cs : List Bytes} (hall : ∀ c ∈ cs, Fits max c) {tail : Bytes}
    {r : Except Error Unit} (hstuck : Stuck max tail r) (h : Ready max (s.requests, s.credential))
    (hreplies : s.replies.Reliable) (hpending : s.requests.pending = encodeAll cs ++ tail)
    {n : Nat} (hn : cs.length < n) : (tried (serveUpTo judge n) s).1 = r := by
  obtain ⟨n, rfl⟩ : ∃ k, n = k + 1 := ⟨n - 1, by omega⟩
  induction cs generalizing s n with
  | nil =>
    have hpending : s.requests.pending = tail := hpending
    have hone : (tried (serveOne judge) s).1 = r.map fun _ => false :=
      serveOne_stuck h (hpending ▸ hstuck)
    cases r with
    | error e => simp [serveUpTo, hone]
    | ok _ => simp [serveUpTo, hone]
  | cons c cs ih =>
    obtain ⟨hfits, hothers⟩ := List.forall_mem_cons.mp hall
    rw [Frame.encodeAll_cons, List.append_assoc] at hpending
    obtain ⟨t, hone, hready, hreliable, hrest⟩ :
        ∃ t, tried (serveOne judge) s = (.ok true, t) ∧ _ := serveOne_frame h hreplies hpending hfits
    have hmore : cs.length < n := by
      rw [List.length_cons] at hn
      omega
    obtain ⟨k, rfl⟩ : ∃ k, n = k + 1 := ⟨n - 1, by omega⟩
    simpa [serveUpTo, hone] using ih hothers hready hreliable hrest k hmore

/-- A verifier whose memory and streams do not fail it ends as the tail of its requests has it. -/
theorem serve_all {cs : List Bytes} (hall : ∀ c ∈ cs, Fits max c) {tail : Bytes}
    {r : Except Error Unit} (hstuck : Stuck max tail r) {requests : InStream}
    (hrequests : Harmless requests.script) (hpending : requests.pending = encodeAll cs ++ tail)
    {replies : OutStream} (hreplies : replies.Reliable) {memory : Memory}
    (hwilling : memory.Willing) (judge : Judge) :
    (serve judge max requests replies memory).value.result = r := by
  let size := SecureBuffer.firstCapacity (Nat.min Credential.initialLength max) max
  let credential : SecureBuffer :=
    ⟨zeros size, 0, max, memory.nextBlock, (memory.allocate size).2⟩
  have hcreate : SecureBuffer.create (Nat.min Credential.initialLength max) max memory =
      .ok credential := by
    rw [SecureBuffer.create_eq, if_pos hwilling.errno]
  have hready : Ready max (requests, credential) :=
    ⟨hrequests, (SecureBuffer.sound_create hcreate).1, rfl, hwilling.allocate size⟩
  have hcount : cs.length < requests.pending.length + 1 := by
    have hframes : cs.length ≤ (encodeAll cs).length := Frame.length_encodeAll cs
    rw [hpending, List.length_append]
    omega
  let opened := Act.ofOpening memory credential.memory (.ok ())
  have hloop : (tried (serveUpTo judge (requests.pending.length + 1))
      { requests, replies, credential, acts := [opened] }).1 = r :=
    serveUpTo_all hall hstuck hready hreplies hpending hcount
  unfold serve
  rw [hcreate]
  exact hloop

end Verifier

namespace Frame

/-- A stream is read to its end, and served to its end, just if it is frames within the limit and then less
than a header; what is read of it then is those frames. Every other stream is frames at the front and an
error after them. -/
theorem ends_iff_framed {initial max : Nat} {memory : Memory} {fresh : SecureBuffer}
    (h : SecureBuffer.create initial max memory = .ok fresh) (edits : List SecureBuffer.Event)
    (willing : (Run.final SecureBuffer.perform edits fresh).memory.Willing) {reads : List Move}
    (hreads : Harmless reads) (stream : Bytes) (judge : Verifier.Judge) {replies : List Move}
    (hreplies : Harmless replies) {own : Memory} (hown : own.Willing) :
    let requests : InStream := { pending := stream, script := reads }
    let start := (requests, Run.final SecureBuffer.perform edits fresh)
    let served := (Verifier.serve judge max requests { script := replies } own).value.result
    (∀ cs, (∃ last, Reads start cs (.ok ()) last) ↔ Framed max cs stream) ∧
    (served = .ok () ↔ ∃ cs, Framed max cs stream) ∧
    ((¬∃ cs, Framed max cs stream) → ∃ cs tail e last, (∀ c ∈ cs, Fits max c) ∧
      stream = encodeAll cs ++ tail ∧ Stuck max tail (.error e) ∧ Reads start cs (.error e) last ∧
      served = .error e) := by
  intro requests start served
  have hready : Ready max start := ready_edited h edits willing hreads stream
  obtain ⟨cs, tail, r, hsplit, hall, hstuck⟩ := split_frames max stream
  obtain ⟨last, hlast, -⟩ := reads_all hall hstuck hready hsplit
  have hserved : served = r :=
    Verifier.serve_all hall hstuck hreads hsplit (OutStream.reliable hreplies) hown judge
  have hread : ∀ {cs}, Framed max cs stream → ∃ last, Reads start cs (.ok ()) last := by
    rintro cs ⟨hall, tail, hsplit, hshort⟩
    obtain ⟨last, hlast, -⟩ := reads_all hall (.ended hshort) hready hsplit
    exact ⟨last, hlast⟩
  have hframed : r = .ok () → Framed max cs stream := by
    rintro rfl
    exact ⟨hall, tail, hsplit, hstuck.short⟩
  refine ⟨fun cs' => ⟨?_, hread⟩, ⟨?_, ?_⟩, ?_⟩
  · rintro ⟨last', hlast'⟩
    obtain ⟨rfl, rfl⟩ := hlast.unique hlast'
    exact hframed rfl
  · intro hok
    exact ⟨cs, hframed (hserved.symm.trans hok)⟩
  · rintro ⟨cs', hcs'⟩
    obtain ⟨last', hlast'⟩ := hread hcs'
    exact hserved.trans (hlast.unique hlast').2
  · intro hnone
    cases r with
    | ok _ => exact absurd ⟨cs, hframed rfl⟩ hnone
    | error e => exact ⟨cs, tail, e, last, hall, hsplit, hstuck, hlast, hserved⟩

/-- A frame in two pieces with an interruption between them, and a byte of a header after it. -/
theorem ends_after_a_frame :
    let fresh : SecureBuffer := ⟨zeros 2, 0, 8, 0, (({} : Memory).allocate 2).2⟩
    let edits : List SecureBuffer.Event := [.append [120, 121, 122]]
    let stream : Bytes := [1, 0, 0, 0, 97, 9]
    let reads : List Move := [.upTo 3, .fail (.kind .interrupted)]
    let replies : List Move := [.fail (.os 4)]
    let judge : Verifier.Judge := (· == [97])
    let requests : InStream := { pending := stream, script := reads }
    let buffer := Run.final SecureBuffer.perform edits fresh
    Framed 8 [[97]] stream ∧ (∃ last, Reads (requests, buffer) [[97]] (.ok ()) last) ∧
      (Verifier.serve judge 8 requests { script := replies } {}).value.result = .ok () := by
  intro fresh edits stream reads replies judge requests buffer
  have hcreate : SecureBuffer.create 2 8 {} = .ok fresh := rfl
  have hwilling : buffer.memory.Willing := Memory.willing_of_unscripted rfl
  have hown : ({} : Memory).Willing := Memory.willing_of_unscripted rfl
  have hreads : Harmless reads := by decide
  have hreplies : Harmless replies := by decide
  have hframed : Framed 8 [[97]] stream := ⟨by decide, [9], by decide, by decide⟩
  obtain ⟨hread, hserved, -⟩ :=
    ends_iff_framed hcreate edits hwilling hreads stream judge hreplies hown
  refine ⟨hframed, (hread [[97]]).mpr hframed, ?_⟩
  rw [hserved]
  exact ⟨[[97]], hframed⟩

/-- Half a header is left, and the stream ends all the same; it is no row of whole frames. -/
theorem cut_header_ends :
    let fresh : SecureBuffer := ⟨zeros 2, 0, 8, 0, (({} : Memory).allocate 2).2⟩
    let stream : Bytes := [5, 0]
    (∃ last, Reads ({ pending := stream }, fresh) [] (.ok ()) last) ∧
      (Verifier.serve (fun _ => true) 8 { pending := stream } {} {}).value.result = .ok () ∧
      ¬∃ cs, stream = encodeAll cs := by
  intro fresh stream
  refine ⟨⟨_, .ended (Prod.ext rfl rfl)⟩, rfl, ?_⟩
  rintro ⟨cs, hcs⟩
  cases cs with
  | nil => simp [encodeAll, stream] at hcs
  | cons c cs =>
    have hlength := congrArg List.length hcs
    rw [encodeAll_cons, List.length_append, encode, List.length_append, length_header] at hlength
    simp [stream, headerLength] at hlength
    omega

end Frame

end ScreenLocker
