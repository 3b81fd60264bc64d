import ScreenLocker.Proofs.BoundedBytes
import ScreenLocker.Proofs.Fragments

/-! Reading requests one after another. A reader whose calls do no harm, into a buffer that can be
pinned, takes one frame off the stream at each read, until it comes to what no frame begins with. -/

namespace ScreenLocker

namespace Memory

/-- No request to pin will be refused. -/
def Willing (m : Memory) : Prop := ∀ answer ∈ m.answers, answer = 0

theorem willing_of_unscripted {m : Memory} (h : m.answers = []) : m.Willing := by
  simp [Willing, h]

theorem Willing.errno {m : Memory} (h : m.Willing) : m.errno = 0 := by
  unfold Memory.errno
  cases hanswers : m.answers with
  | nil => rfl
  | cons answer rest => exact h answer (hanswers ▸ List.mem_cons_self)

theorem answers_allocate (m : Memory) (length : Nat) :
    (m.allocate length).2.answers = m.answers.tail := by
  unfold allocate
  dsimp only
  split <;> rfl

theorem Willing.allocate {m : Memory} (h : m.Willing) (length : Nat) :
    (m.allocate length).2.Willing := by
  intro answer hanswer
  rw [answers_allocate] at hanswer
  exact h answer (List.mem_of_mem_tail hanswer)

end Memory

namespace SecureBuffer

variable {b : SecureBuffer}

theorem Reserved.willing {n : Nat} {r : Except BufferError Unit} {b' : SecureBuffer}
    (hr : Reserved n b r b') (h : b.memory.Willing) : b'.memory.Willing := by
  cases hr with
  | exceeded => exact h
  | roomy => exact h
  | refused => exact h.allocate _
  | grown => exact h.allocate _

theorem Event.memory_inPlace (e : Event) (b : SecureBuffer) :
    (e.inPlace b).memory.answers = b.memory.answers := by
  cases e with
  | truncate n =>
    change (b.cut n).memory.answers = _
    unfold cut
    split <;> rfl
  | _ => rfl

theorem willing_perform (hsound : Sound b) (h : b.memory.Willing) (e : Event) :
    (outcome (perform e) b).2.memory.Willing := by
  obtain ⟨r, room, hres, hperform⟩ := perform_cases e hsound
  have hroom : room.memory.Willing := hres.willing h
  rw [hperform]
  cases r with
  | error err => exact hroom
  | ok _ =>
    unfold Memory.Willing
    rw [e.memory_inPlace]
    exact hroom

/-- Room within the limit is granted, and what is filled in stands after the content. -/
theorem extend_willing (hsound : Sound b) (h : b.memory.Willing) (filling : Bytes)
    (hlimit : b.length + filling.length ≤ b.max) :
    ∃ start room, tried (extendZeroed filling.length) b = (.ok start, room) ∧
      let b' := (outcome (fill start filling) room).2
      Sound b' ∧ b'.max = b.max ∧ b'.memory.Willing ∧ b'.content = b.content ++ filling := by
  have hlawful : Lawful (Run.moment perform b (.extend filling)) := lawful_perform hsound _
  have hwilling : (outcome (perform (.extend filling)) b).2.memory.Willing :=
    willing_perform hsound h _
  have hgranted : due (.extend filling) b = .ok (zeros filling.length) := by
    simp [due, Event.asks, Event.hands, Nat.not_lt.mpr hlimit, h.errno]
  rcases hroom : tried (extendZeroed filling.length) b with ⟨_ | start, room⟩
  · have hanswer := hlawful.answer
    simp [Run.moment, perform, hroom, hgranted] at hanswer
  · have hperform : (outcome (perform (.extend filling)) b).2 =
        (outcome (fill start filling) room).2 := by
      simp [perform, hroom]
    refine ⟨start, room, rfl, ?_⟩
    dsimp only
    rw [← hperform]
    refine ⟨hlawful.sound, hlawful.max, hwilling, ?_⟩
    have hcontent := hlawful.content
    have hanswer : (Run.moment perform b (.extend filling)).answer = .ok (zeros filling.length) :=
      hlawful.answer.trans hgranted
    rw [Step.onList, hanswer] at hcontent
    refine hcontent.trans ?_
    change (b.content ++ zeros filling.length).take b.content.length ++ filling = _
    rw [List.take_left]

end SecureBuffer

namespace Frame

open SecureBuffer (Sound)

/-- A reader and a buffer of which no failure is to be feared. -/
structure Ready (max : Nat) (s : InStream × SecureBuffer) : Prop where
  script : Harmless s.1.script
  sound : Sound s.2
  max : s.2.max = max
  willing : s.2.memory.Willing

theorem Ready.wiped {max : Nat} {requests : InStream} {b : SecureBuffer}
    (h : Ready max (requests, b)) : Ready max (requests, b.wiped) :=
  ⟨h.script, SecureBuffer.sound_wiped h.sound, h.max, h.willing⟩

/-- A buffer that was edited, whatever it went through, is ready if it can still be pinned. -/
theorem ready_edited {initial max : Nat} {memory : Memory} {fresh : SecureBuffer}
    (h : SecureBuffer.create initial max memory = .ok fresh) (edits : List SecureBuffer.Event)
    (willing : (Run.final SecureBuffer.perform edits fresh).memory.Willing) {script : List Move}
    (hscript : Harmless script) (pending : Bytes) :
    Ready max ({ pending, script }, Run.final SecureBuffer.perform edits fresh) := by
  obtain ⟨hsound, hmax, -⟩ := SecureBuffer.sound_create h
  have hlast : Sound (Run.final SecureBuffer.perform edits fresh) ∧
      (Run.final SecureBuffer.perform edits fresh).max = max := by
    refine Run.holds_final (P := fun _ b => Sound b ∧ b.max = max) ?_ edits ⟨hsound, hmax⟩
    rintro _ b e ⟨hsound, hmax⟩
    have hstep := SecureBuffer.lawful_perform hsound e
    exact ⟨hstep.sound, hstep.max.trans hmax⟩
  exact ⟨hscript, hlast.1, hlast.2, willing⟩

/-- Short enough for a buffer with this limit, and for a header. -/
def Fits (max : Nat) (credential : Bytes) : Prop :=
  credential.length ≤ max ∧ credential.length < UInt32.size

instance (max : Nat) (credential : Bytes) : Decidable (Fits max credential) :=
  inferInstanceAs (Decidable (_ ∧ _))

/-- The bytes of requests one after another. -/
def encodeAll (credentials : List Bytes) : Bytes := credentials.flatMap encode

theorem encodeAll_cons (c : Bytes) (cs : List Bytes) :
    encodeAll (c :: cs) = encode c ++ encodeAll cs := List.flatMap_cons

/-- What no frame within the limit begins with, and what a reader makes of it: less than a header is the
end of the stream, a header without its bytes a fault. -/
inductive Stuck (max : Nat) : Bytes → Except Error Unit → Prop where
  | ended {tail : Bytes} (short : tail.length < headerLength) : Stuck max tail (.ok ())
  | oversized {tail : Bytes} (whole : headerLength ≤ tail.length)
      (above : max < ofLittleEndian (tail.take headerLength)) :
      Stuck max tail (.error (.process ("request frame of " ++
        toString (ofLittleEndian (tail.take headerLength)) ++ " bytes exceeds limit of " ++
        toString max)))
  | cut {tail : Bytes} (whole : headerLength ≤ tail.length)
      (within : ofLittleEndian (tail.take headerLength) ≤ max)
      (short : tail.length < headerLength + ofLittleEndian (tail.take headerLength)) :
      Stuck max tail (.error (.io .shortRead))

/-- A stream begins with a frame or is stuck. -/
theorem front_cases (max : Nat) (stream : Bytes) :
    (∃ r, Stuck max stream r) ∨ ∃ c rest, stream = encode c ++ rest ∧ Fits max c := by
  by_cases hshort : stream.length < headerLength
  · exact .inl ⟨_, .ended hshort⟩
  have hwhole : headerLength ≤ stream.length := Nat.not_lt.mp hshort
  let head := stream.take headerLength
  have hhead : head.length = headerLength := List.length_take_of_le hwhole
  by_cases hover : max < ofLittleEndian head
  · exact .inl ⟨_, .oversized hwhole hover⟩
  have hwithin : ofLittleEndian head ≤ max := Nat.not_lt.mp hover
  by_cases hcut : stream.length < headerLength + ofLittleEndian head
  · exact .inl ⟨_, .cut hwhole hwithin hcut⟩
  let c := (stream.drop headerLength).take (ofLittleEndian head)
  have hc : c.length = ofLittleEndian head := by
    rw [List.length_take, List.length_drop]
    omega
  have hsize : ofLittleEndian head < 256 ^ head.length := ofLittleEndian_lt head
  have hheader : header c = head := by
    rw [header, hc, ← hhead, littleEndian_ofLittleEndian]
  refine .inr ⟨c, (stream.drop headerLength).drop (ofLittleEndian head), ?_, by omega, ?_⟩
  · rw [encode, hheader, List.append_assoc, List.take_append_drop, List.take_append_drop]
  · rw [hhead] at hsize
    exact hc ▸ hsize

/-- Every stream is some frames, one after another, and a tail that no frame begins. -/
theorem split_frames (max : Nat) (stream : Bytes) :
    ∃ cs tail r, stream = encodeAll cs ++ tail ∧ (∀ c ∈ cs, Fits max c) ∧ Stuck max tail r := by
  induction hlength : stream.length using Nat.strongRecOn generalizing stream with
  | ind n ih =>
    rcases front_cases max stream with ⟨r, hstuck⟩ | ⟨c, rest, hsplit, hfits⟩
    · exact ⟨[], stream, r, rfl, by simp, hstuck⟩
    · have hshorter : rest.length < n := by
        have hsome : 0 < (encode c).length := List.length_pos_iff.mpr (encode_ne_nil c)
        rw [← hlength, hsplit, List.length_append]
        omega
      obtain ⟨cs, tail, r, hrest, hall, hstuck⟩ := ih _ hshorter rest rfl
      refine ⟨c :: cs, tail, r, ?_, List.forall_mem_cons.mpr ⟨hfits, hall⟩, hstuck⟩
      rw [hsplit, hrest, encodeAll_cons, List.append_assoc]

section Read

variable {max : Nat} {s : InStream × SecureBuffer}

theorem read_frame (h : Ready max s) {c rest : Bytes} (hpending : s.1.pending = encode c ++ rest)
    (hfits : Fits max c) :
    ∃ s', tried read s = (.ok true, s') ∧ Ready max s' ∧ s'.2.content = c ∧ s'.1.pending = rest ∧
      s'.1.consumed = s.1.consumed + (encode c).length := by
  obtain ⟨requests, b⟩ := s
  obtain ⟨hwithin, hsize⟩ := hfits
  have hpending : requests.pending = header c ++ (c ++ rest) := by
    rw [← List.append_assoc]
    exact hpending
  have hready : Ready max (requests, b.wiped) := h.wiped
  have hroomy : b.wiped.length + c.length ≤ b.wiped.max := by
    rw [SecureBuffer.wiped_length, Nat.zero_add, hready.max]
    exact hwithin
  obtain ⟨script₁, hscript₁, hhead⟩ := InStream.readExactly_there h.script hpending
  rw [length_header] at hhead
  let s₁ : InStream := ⟨c ++ rest, script₁, requests.consumed + headerLength⟩
  have hleft : s₁.pending = c ++ rest := rfl
  obtain ⟨script₂, hscript₂, hbody⟩ := InStream.readExactly_there hscript₁ hleft
  obtain ⟨start, room, hroom, hsound, hmax, hwilling, hcontent⟩ :=
    SecureBuffer.extend_willing hready.sound hready.willing c hroomy
  let s' : InStream × SecureBuffer :=
    (⟨rest, script₂, requests.consumed + headerLength + c.length⟩,
      (outcome (SecureBuffer.fill start c) room).2)
  have hread : tried read (requests, b) = (.ok true, s') := by
    refine read_iff.mpr ⟨header c, _, start, room, c, hhead, ?_⟩
    rw [ofLittleEndian_header hsize]
    exact ⟨h.max ▸ hwithin, hroom, hbody, rfl⟩
  refine ⟨s', hread, ⟨hscript₂, hsound, hmax.trans h.max, hwilling⟩, hcontent, rfl, ?_⟩
  rw [encode, List.length_append, length_header, ← Nat.add_assoc]

/-- The end of a stream leaves the buffer alone and nothing unread. -/
theorem read_end (h : Ready max s) (hshort : s.1.pending.length < headerLength) :
    ∃ s', tried read s = (.ok false, s') ∧ s'.2 = s.2 ∧ s'.1.pending = [] ∧
      s'.1.consumed = s.1.consumed + s.1.pending.length := by
  obtain ⟨requests, b⟩ := s
  obtain ⟨script, -, hhead⟩ := InStream.readExactly_short h.script hshort
  have hend : Fault.shortRead.isEndOfStream = true := rfl
  let s' : InStream × SecureBuffer := (⟨[], script, requests.consumed + requests.pending.length⟩, b)
  have hread : tried read (requests, b) = (.ok false, s') := by
    simp [tried_read, hhead, hend, s']
  exact ⟨s', hread, rfl, rfl, rfl⟩

theorem read_stuck (h : Ready max s) {r : Except Error Unit} (hstuck : Stuck max s.1.pending r) :
    (tried read s).1 = r.map fun _ => false := by
  obtain ⟨requests, b⟩ := s
  generalize htail : requests.pending = tail at hstuck
  cases hstuck with
  | ended short =>
    obtain ⟨s', hread, -⟩ := read_end h (htail ▸ short)
    rw [hread]
    rfl
  | oversized whole above =>
    obtain ⟨script, -, hhead⟩ := InStream.readExactly_there h.script
      (htail.trans (List.take_append_drop headerLength tail).symm)
    rw [List.length_take_of_le whole] at hhead
    have hmax : b.max = max := h.max
    simp [tried_read, hhead, hmax, above]
  | cut whole within short =>
    obtain ⟨script, hscript, hhead⟩ := InStream.readExactly_there h.script
      (htail.trans (List.take_append_drop headerLength tail).symm)
    rw [List.length_take_of_le whole] at hhead
    generalize hlength : ofLittleEndian (tail.take headerLength) = length at within short
    have hready : Ready max (requests, b.wiped) := h.wiped
    obtain ⟨start, room, hroom, -⟩ := SecureBuffer.extend_willing hready.sound hready.willing
      (zeros length) (by
        rw [SecureBuffer.wiped_length, Nat.zero_add, hready.max, length_zeros]
        exact within)
    rw [length_zeros] at hroom
    let s₁ : InStream := ⟨tail.drop headerLength, script, requests.consumed + headerLength⟩
    have hleft : s₁.pending.length < length := by
      change (tail.drop headerLength).length < length
      rw [List.length_drop]
      omega
    obtain ⟨_, -, hbody⟩ := InStream.readExactly_short hscript hleft
    have hfit : ¬b.max < length := by
      have hmax : b.max = max := h.max
      omega
    have hbody : InStream.readExactly length
        ⟨tail.drop headerLength, script, requests.consumed + headerLength⟩ = _ := hbody
    simp [tried_read, hhead, hlength, hfit, hroom, hbody]

end Read

/-- Reading until a read finds the end of the stream, or fails: the contents that the buffer had after
each request, and how it ended. -/
inductive Reads : InStream × SecureBuffer → List Bytes → Except Error Unit →
    InStream × SecureBuffer → Prop where
  | ended {s s' : InStream × SecureBuffer} :
      tried read s = (.ok false, s') → Reads s [] (.ok ()) s'
  | failed {s s' : InStream × SecureBuffer} {e : Error} :
      tried read s = (.error e, s') → Reads s [] (.error e) s'
  | request {s s' last : InStream × SecureBuffer} {contents : List Bytes} {r : Except Error Unit} :
      tried read s = (.ok true, s') → Reads s' contents r last →
      Reads s (s'.2.content :: contents) r last

theorem Reads.unique {s last last' : InStream × SecureBuffer} {contents contents' : List Bytes}
    {r r' : Except Error Unit} (h : Reads s contents r last) (h' : Reads s contents' r' last') :
    contents = contents' ∧ r = r' := by
  induction h generalizing contents' with
  | ended hread =>
    cases h' with
    | ended => exact ⟨rfl, rfl⟩
    | failed hread' => simp [hread] at hread'
    | request hread' => simp [hread] at hread'
  | failed hread =>
    cases h' with
    | ended hread' => simp [hread] at hread'
    | failed hread' =>
      obtain ⟨he, -⟩ := Prod.mk.inj (hread.symm.trans hread')
      exact ⟨rfl, congrArg Except.error (Except.error.inj he)⟩
    | request hread' => simp [hread] at hread'
  | request hread _ ih =>
    cases h' with
    | ended hread' => simp [hread] at hread'
    | failed hread' => simp [hread] at hread'
    | request hread' hrest =>
      obtain ⟨-, rfl⟩ := Prod.mk.inj (hread.symm.trans hread')
      obtain ⟨rfl, rfl⟩ := ih hrest
      exact ⟨rfl, rfl⟩

/-- Each request is read in its turn, and then what no frame begins with is met. -/
theorem reads_all {max : Nat} {cs : List Bytes} (hall : ∀ c ∈ cs, Fits max c) {tail : Bytes}
    {r : Except Error Unit} (hstuck : Stuck max tail r) {s : InStream × SecureBuffer}
    (h : Ready max s) (hpending : s.1.pending = encodeAll cs ++ tail) :
    ∃ last, Reads s cs r last ∧
      (r = .ok () → last.1.pending = [] ∧ last.1.consumed = s.1.consumed + s.1.pending.length) := by
  induction cs generalizing s with
  | nil =>
    have hpending : s.1.pending = tail := hpending
    subst hpending
    cases r with
    | error e =>
      have hread : tried read s = (.error e, (tried read s).2) :=
        Prod.ext (read_stuck h hstuck) rfl
      exact ⟨_, .failed hread, fun hok => by simp at hok⟩
    | ok _ =>
      cases hstuck with
      | ended short =>
        obtain ⟨last, hread, -, hempty, hconsumed⟩ := read_end h short
        exact ⟨last, .ended hread, fun _ => ⟨hempty, hconsumed⟩⟩
  | cons c cs ih =>
    obtain ⟨hfits, hothers⟩ := List.forall_mem_cons.mp hall
    rw [encodeAll_cons, List.append_assoc] at hpending
    obtain ⟨s', hread, hready, rfl, hrest, hconsumed⟩ := read_frame h hpending hfits
    obtain ⟨last, hreads, hlast⟩ := ih hothers hready hrest
    refine ⟨last, .request hread hreads, fun hok => ?_⟩
    obtain ⟨hempty, htotal⟩ := hlast hok
    refine ⟨hempty, ?_⟩
    calc last.1.consumed
        = s.1.consumed + (encode s'.2.content).length + (encodeAll cs ++ tail).length := by
          rw [htotal, hconsumed, hrest]
      _ = s.1.consumed + s.1.pending.length := by rw [hpending, Nat.add_assoc, ← List.length_append]

end Frame

end ScreenLocker
