import ScreenLocker.Proofs.Run
import ScreenLocker.Proofs.SecureBuffer

/-! A buffer stands for a list of bytes with a limit. What is appended, filled in, cut off or cleared
shows in its content as it would in the list, and what is refused shows nowhere but in the memory. That
room is handed out clean rests on one thing: past its content the block is always zero, whatever the
content was before and in whichever block it lay. -/

namespace ScreenLocker.SecureBuffer

inductive Event where
  | append (bytes : Bytes)
  /-- Asks for zero bytes and fills them in place. -/
  | extend (filling : Bytes)
  | truncate (n : Nat)
  | clear
deriving DecidableEq, Repr

/-- The answer is the stretch that was handed out, as it was before it was filled. -/
def perform : Event → Op SecureBuffer (Except BufferError Bytes)
  | .append bytes => ExceptT.run do
    append bytes
    pure []
  | .extend filling => ExceptT.run do
    let start ← extendZeroed filling.length
    let handed := (← get).content.drop start
    fill start filling
    pure handed
  | .truncate n => do
    truncate n
    pure (.ok [])
  | .clear => do
    clear
    pure (.ok [])

namespace Event

/-- How many bytes there has to be room for. -/
def asks : Event → Nat
  | append bytes => bytes.length
  | extend filling => filling.length
  | truncate _ | clear => 0

def hands : Event → Bytes
  | extend filling => zeros filling.length
  | _ => []

/-- What the event makes of a list: zeros are appended to be filled, and give way to the filling. -/
def onList : Event → Bytes → Bytes
  | append bytes, held => held ++ bytes
  | extend filling, held => (held ++ zeros filling.length).take held.length ++ filling
  | truncate n, held => held.take n
  | clear, _ => []

end Event

/-- The content lies within the block and the limit, and past it the block is zero. -/
structure Sound (b : SecureBuffer) : Prop where
  within : b.length ≤ b.capacity
  limited : b.length ≤ b.max
  bounded : b.capacity ≤ Nat.max b.max 1
  clean : ∀ byte ∈ b.storage.drop b.length, byte = 0

theorem Sound.length_content {b : SecureBuffer} (h : Sound b) : b.content.length = b.length := by
  have hwithin : b.length ≤ b.storage.length := h.within
  rw [content, List.length_take]
  omega

/-- What `extendZeroed` hands out. -/
theorem Sound.handed {b : SecureBuffer} (h : Sound b) {n : Nat} (hroom : b.length + n ≤ b.capacity) :
    (b.storage.take (b.length + n)).drop b.length = zeros n := by
  have hroom : b.length + n ≤ b.storage.length := hroom
  rw [zeros, List.eq_replicate_iff]
  constructor
  · rw [List.length_drop, List.length_take]
    omega
  · intro byte hbyte
    rw [List.drop_take] at hbyte
    exact h.clean byte (List.mem_of_mem_take hbyte)

theorem sound_create {initial max : Nat} {memory : Memory} {b : SecureBuffer}
    (h : create initial max memory = .ok b) : Sound b ∧ b.max = max ∧ b.content = [] := by
  have hsize : Nat.min (Nat.max initial 1) (Nat.max max 1) ≤ Nat.max max 1 := Nat.min_le_right _ _
  unfold create at h
  dsimp only at h
  split at h
  · obtain rfl := Except.ok.inj h
    refine ⟨⟨Nat.zero_le _, Nat.zero_le _, ?_, ?_⟩, rfl, rfl⟩
    · simpa [capacity, zeros] using hsize
    · intro byte hbyte
      exact List.eq_of_mem_replicate (List.mem_of_mem_drop hbyte)
  · simp at h

/-- The same content, in the same block or in a larger one. -/
structure Roomier (b b' : SecureBuffer) : Prop where
  length : b'.length = b.length
  max : b'.max = b.max
  content : b'.content = b.content
  capacity : b.capacity ≤ b'.capacity
  growth : b.capacity < b'.capacity → Nat.min b.max (b.capacity * 2) ≤ b'.capacity

theorem Roomier.same {b b' : SecureBuffer} (hlength : b'.length = b.length) (hmax : b'.max = b.max)
    (hstorage : b'.storage = b.storage) : Roomier b b' where
  length := hlength
  max := hmax
  content := by rw [SecureBuffer.content, hlength, hstorage, SecureBuffer.content]
  capacity := Nat.le_of_eq (congrArg List.length hstorage.symm)
  growth := by
    rw [SecureBuffer.capacity, SecureBuffer.capacity, hstorage]
    omega

section Moved

variable {b : SecureBuffer} {target : Nat}

theorem storage_moved (h : Sound b) (hroom : b.length ≤ target) :
    (b.moved target).storage = b.content ++ zeros (target - b.length) := by
  change overwrite 0 b.content (zeros target) = _
  rw [overwrite_eq (by simpa [zeros, h.length_content] using hroom), h.length_content]
  simp [zeros]

theorem sound_moved (h : Sound b) (hroom : b.length ≤ target) (hbound : target ≤ b.max) :
    Sound (b.moved target) where
  within := by
    rw [capacity_moved]
    exact hroom
  limited := h.limited
  bounded := by
    rw [capacity_moved]
    exact Nat.le_trans hbound (Nat.le_max_left _ _)
  clean := by
    intro byte hbyte
    change byte ∈ (b.moved target).storage.drop b.length at hbyte
    rw [storage_moved h hroom, List.drop_left' h.length_content] at hbyte
    exact List.eq_of_mem_replicate hbyte

theorem roomier_moved (h : Sound b) (hroom : b.length ≤ target) (hlarger : b.capacity ≤ target)
    (hgrowth : Nat.min b.max (b.capacity * 2) ≤ target) : Roomier b (b.moved target) where
  length := rfl
  max := rfl
  content := by
    change (b.moved target).storage.take b.length = _
    rw [storage_moved h hroom, List.take_left' h.length_content]
  capacity := by
    rw [capacity_moved]
    exact hlarger
  growth := by
    intro _
    rw [capacity_moved]
    exact hgrowth

end Moved

/-- Whatever a request for room comes to, a user sees the same content. -/
theorem Reserved.keeps {n : Nat} {b b' : SecureBuffer} {r : Except BufferError Unit} (h : Sound b)
    (hr : Reserved n b r b') : Sound b' ∧ Roomier b b' := by
  cases hr with
  | exceeded => exact ⟨h, .same rfl rfl rfl⟩
  | roomy => exact ⟨h, .same rfl rfl rfl⟩
  | refused => exact ⟨⟨h.within, h.limited, h.bounded, h.clean⟩, .same rfl rfl rfl⟩
  | grown fits full =>
    have hneeded := le_nextCapacity fits
    have hgrowth : Nat.min b.max (b.capacity * 2) ≤ b.nextCapacity (b.length + n) :=
      Nat.le_min.mpr
        ⟨Nat.le_trans (Nat.min_le_right _ _) (Nat.le_max_right _ _), Nat.min_le_left _ _⟩
    have hbound : b.nextCapacity (b.length + n) ≤ b.max := Nat.min_le_right _ _
    exact ⟨sound_moved h (by omega) hbound, roomier_moved h (by omega) (by omega) hgrowth⟩

theorem Reserved.room {n : Nat} {b b' : SecureBuffer} (hr : Reserved n b (.ok ()) b') :
    b.length + n ≤ b.max ∧ b.length + n ≤ b'.capacity := by
  cases hr with
  | roomy fits room => exact ⟨fits, room⟩
  | grown fits =>
    refine ⟨fits, Nat.le_trans (le_nextCapacity fits) ?_⟩
    exact Nat.le_of_eq (capacity_moved (b.nextCapacity (b.length + n)) b).symm

/-- The buffer with `bytes` put after its content. -/
def written (bytes : Bytes) (b : SecureBuffer) : SecureBuffer :=
  { b.withStorage (overwrite b.length bytes b.storage) with length := b.length + bytes.length }

/-- An edit in place that leaves the block clean past what is now its content. -/
theorem sound_edited {b : SecureBuffer} (h : Sound b) {storage : Bytes} {length : Nat}
    (hsize : storage.length = b.storage.length) (hwithin : length ≤ b.capacity)
    (hlimit : length ≤ b.max) (hclean : ∀ byte ∈ storage.drop length, byte = 0) :
    Sound { b.withStorage storage with length } where
  within := by
    change length ≤ storage.length
    rw [hsize]
    exact hwithin
  limited := hlimit
  bounded := by
    change storage.length ≤ Nat.max b.max 1
    rw [hsize]
    exact h.bounded
  clean := hclean

section Written

variable {b : SecureBuffer} {bytes : Bytes} (hroom : b.length + bytes.length ≤ b.capacity)

include hroom

theorem storage_written :
    (b.written bytes).storage =
      (b.content ++ bytes) ++ b.storage.drop (b.length + bytes.length) :=
  overwrite_eq hroom

theorem content_written (h : Sound b) : (b.written bytes).content = b.content ++ bytes := by
  change (b.written bytes).storage.take (b.length + bytes.length) = _
  rw [storage_written hroom]
  exact List.take_left' (by rw [List.length_append, h.length_content])

theorem sound_written (h : Sound b) (hlimit : b.length + bytes.length ≤ b.max) :
    Sound (b.written bytes) := by
  refine sound_edited h (length_overwrite bytes h.within) hroom hlimit ?_
  intro byte hbyte
  have hstorage : overwrite b.length bytes b.storage = _ := storage_written hroom
  rw [hstorage, List.drop_left' (by rw [List.length_append, h.length_content]),
    ← List.drop_drop] at hbyte
  exact h.clean byte (List.mem_of_mem_drop hbyte)

end Written

section Cut

variable {b : SecureBuffer} {n : Nat}

theorem storage_cut (h : Sound b) (hn : n < b.length) :
    (b.cut n).storage = b.storage.take n ++ zeros (b.length - n) ++ b.storage.drop b.length := by
  have hwithin : b.length ≤ b.storage.length := h.within
  have hlength : n + (zeros (b.length - n)).length = b.length := by
    rw [zeros, List.length_replicate]
    omega
  rw [cut, if_pos hn]
  change overwrite n (zeros (b.length - n)) b.storage = _
  rw [overwrite_eq (by omega), hlength]

theorem content_cut (h : Sound b) : (b.cut n).content = b.content.take n := by
  by_cases hn : n < b.length
  · have hwithin : b.length ≤ b.storage.length := h.within
    have hlength : (b.cut n).length = n := by
      rw [cut, if_pos hn]
    rw [content, hlength, storage_cut h hn, List.append_assoc,
      List.take_left' (by rw [List.length_take]; omega), content, List.take_take,
      Nat.min_eq_left (by omega)]
  · rw [cut, if_neg hn, List.take_of_length_le]
    rw [h.length_content]
    omega

theorem sound_cut (h : Sound b) : Sound (b.cut n) := by
  by_cases hn : n < b.length
  · have hwithin : b.length ≤ b.storage.length := h.within
    have hlimited : b.length ≤ b.max := h.limited
    have hstorage := storage_cut h hn
    rw [cut, if_pos hn] at hstorage ⊢
    refine sound_edited h (length_overwrite _ (by omega)) (by unfold capacity; omega) (by omega) ?_
    intro byte hbyte
    have hstorage : overwrite n (zeros (b.length - n)) b.storage = _ := hstorage
    rw [hstorage, List.append_assoc, List.drop_left' (by rw [List.length_take]; omega)] at hbyte
    rcases List.mem_append.mp hbyte with hgone | hpast
    · exact List.eq_of_mem_replicate hgone
    · exact h.clean byte hpast
  · rw [cut, if_neg hn]
    exact h

end Cut

theorem sound_wiped {b : SecureBuffer} (h : Sound b) : Sound b.wiped := by
  refine sound_edited h (by simp [zeros, capacity]) (Nat.zero_le _) (Nat.zero_le _) ?_
  intro byte hbyte
  exact List.eq_of_mem_replicate (List.mem_of_mem_drop hbyte)

/-- What an event does to a buffer that has room for it. -/
def Event.inPlace : Event → SecureBuffer → SecureBuffer
  | append bytes => written bytes
  | extend filling => written filling
  | truncate n => cut n
  | clear => wiped

/-- Every event asks for room first, and edits in place once it is there. -/
theorem perform_cases (e : Event) {b : SecureBuffer} (h : Sound b) :
    ∃ r room, Reserved e.asks b r room ∧
      outcome (perform e) b =
        match r with
        | .ok () => (.ok e.hands, e.inPlace room)
        | .error err => (.error err, room) := by
  cases e with
  | append bytes =>
    refine ⟨_, _, reserved bytes.length b, ?_⟩
    rcases hres : tried (reserve bytes.length) b with ⟨_ | _, room⟩ <;>
      simp [perform, append, hres, Event.hands, Event.inPlace, written]
  | extend filling =>
    refine ⟨_, _, reserved filling.length b, ?_⟩
    have htable := reserved filling.length b
    rcases hres : tried (reserve filling.length) b with ⟨_ | _, room⟩
    · simp [perform, extendZeroed, hres]
    · rw [hres] at htable
      obtain ⟨hsound, hroomier⟩ := htable.keeps h
      have hroom : room.length + filling.length ≤ room.capacity := by
        rw [hroomier.length]
        exact htable.room.2
      simp [perform, extendZeroed, fill, hres, Event.hands, Event.inPlace, written, content,
        withStorage, hsound.handed hroom]
  | truncate n => exact ⟨_, _, .roomy h.limited h.within, rfl⟩
  | clear => exact ⟨_, _, .roomy h.limited h.within, rfl⟩

/-- What an event does in place keeps the buffer sound and shows in its content as in a list. -/
theorem Event.inPlace_keeps {e : Event} {b : SecureBuffer} (h : Sound b)
    (hlimit : b.length + e.asks ≤ b.max) (hroom : b.length + e.asks ≤ b.capacity) :
    Sound (e.inPlace b) ∧ (e.inPlace b).max = b.max ∧ (e.inPlace b).capacity = b.capacity ∧
      (e.inPlace b).content = e.onList b.content := by
  cases e with
  | append bytes =>
    exact ⟨sound_written hroom h hlimit, rfl, length_overwrite bytes h.within,
      content_written hroom h⟩
  | extend filling =>
    refine ⟨sound_written hroom h hlimit, rfl, length_overwrite filling h.within, ?_⟩
    rw [onList, List.take_left]
    exact content_written hroom h
  | truncate n =>
    refine ⟨sound_cut h, ?_, ?_, content_cut h⟩
    · by_cases hn : n < b.length <;> simp [inPlace, cut, hn, withStorage]
    · by_cases hn : n < b.length
      · have hwithin : b.length ≤ b.storage.length := h.within
        simp only [inPlace, cut, hn, if_true]
        exact length_overwrite _ (by omega)
      · simp [inPlace, cut, hn]
  | clear =>
    refine ⟨sound_wiped h, rfl, ?_, rfl⟩
    change (zeros b.capacity).length = b.capacity
    exact List.length_replicate

abbrev Step := Moment SecureBuffer Event (Except BufferError Bytes)

/-- What a step makes of the list that the buffer stands for. -/
def Step.onList (held : Bytes) (m : Step) : Bytes :=
  match m.answer with
  | .ok _ => m.event.onList held
  | .error _ => held

/-- The answer to an event, from what it needs, the room there is and the next request to pin. -/
def due (e : Event) (b : SecureBuffer) : Except BufferError Bytes :=
  let needed := b.length + e.asks
  if b.max < needed then .error (.capacityExceeded b.max)
  else if b.capacity < needed ∧ b.memory.errno ≠ 0 then
    .error (.pin (Fault.os b.memory.errno).message)
  else .ok e.hands

structure Lawful (m : Step) : Prop where
  sound : Sound m.after
  max : m.after.max = m.before.max
  content : m.after.content = Step.onList m.before.content m
  answer : m.answer = due m.event m.before
  refusal : ∀ e, m.answer = .error e → m.after = { m.before with memory := m.after.memory }
  capacity : m.before.capacity ≤ m.after.capacity
  growth : m.before.capacity < m.after.capacity →
    Nat.min m.before.max (m.before.capacity * 2) ≤ m.after.capacity

theorem lawful_done {e : Event} {b room : SecureBuffer} (h : Sound b)
    (hres : Reserved e.asks b (.ok ()) room) (hdue : due e b = .ok e.hands) :
    Lawful ⟨b, e, .ok e.hands, e.inPlace room⟩ := by
  obtain ⟨hsound, hroomier⟩ := hres.keeps h
  obtain ⟨hlimit, hroom⟩ := hres.room
  rw [← hroomier.length] at hlimit hroom
  rw [← hroomier.max] at hlimit
  obtain ⟨hafter, hmax, hcapacity, hcontent⟩ := Event.inPlace_keeps hsound hlimit hroom
  refine ⟨hafter, hmax.trans hroomier.max, ?_, hdue.symm, fun err herr => ?_, ?_, ?_⟩
  · exact hcontent.trans (congrArg e.onList hroomier.content)
  · simp at herr
  · exact hcapacity ▸ hroomier.capacity
  · exact hcapacity ▸ hroomier.growth

theorem lawful_refused {e : Event} {err : BufferError} {b : SecureBuffer} (h : Sound b)
    (memory : Memory) (hdue : due e b = .error err) :
    Lawful ⟨b, e, .error err, { b with memory }⟩ :=
  ⟨⟨h.within, h.limited, h.bounded, h.clean⟩, rfl, rfl, hdue.symm, fun _ _ => rfl, Nat.le_refl _,
    fun hgrown => absurd hgrown (Nat.lt_irrefl _)⟩

theorem lawful_perform {b : SecureBuffer} (h : Sound b) (e : Event) :
    Lawful (Run.moment perform b e) := by
  obtain ⟨r, room, hres, hperform⟩ := perform_cases e h
  rw [Run.moment, hperform]
  cases hres with
  | exceeded beyond => exact lawful_refused h b.memory (by simp [due, beyond])
  | refused fits full unpinned =>
    exact lawful_refused h _ (by simp [due, Nat.not_lt.mpr fits, full, unpinned])
  | roomy fits room =>
    exact lawful_done h (.roomy fits room) (by simp [due, Nat.not_lt.mpr fits, Nat.not_lt.mpr room])
  | grown fits full pinned =>
    exact lawful_done h (.grown fits full pinned) (by simp [due, Nat.not_lt.mpr fits, pinned])

theorem outcome_perform_append (bytes : Bytes) (b : SecureBuffer) :
    outcome (perform (.append bytes)) b =
      ((tried (append bytes) b).1.map fun _ => [], (tried (append bytes) b).2) := by
  rcases happend : tried (append bytes) b with ⟨_ | _, _⟩ <;> simp [perform, happend]

theorem sound_append {bytes : Bytes} {b b' : SecureBuffer} {r : Except BufferError Unit}
    (h : Sound b) (happend : tried (append bytes) b = (r, b')) : Sound b' := by
  have hsound := (lawful_perform h (.append bytes)).sound
  rw [Run.moment, outcome_perform_append, happend] at hsound
  exact hsound

theorem append_refused {bytes : Bytes} {b b' : SecureBuffer} {e : BufferError} (h : Sound b)
    (happend : tried (append bytes) b = (.error e, b')) : b' = { b with memory := b'.memory } := by
  have hrefusal := (lawful_perform h (.append bytes)).refusal
  rw [Run.moment, outcome_perform_append, happend] at hrefusal
  exact hrefusal e rfl

/-- The buffer is the list that its steps make, and no longer than the limit. An event is answered by
what it needs, the room there is and the next request to pin; if it is refused, it leaves a mark on the
memory alone. What is handed out is zero. -/
theorem refines_bounded_list {initial max : Nat} {memory : Memory} {fresh : SecureBuffer}
    (h : create initial max memory = .ok fresh) (es : List Event) :
    let ms : List Step := Run.moments perform es fresh
    let last := Run.final perform es fresh
    last.content = ms.foldl Step.onList [] ∧
    last.content.length = last.length ∧ last.length ≤ last.capacity ∧
    last.capacity ≤ Nat.max max 1 ∧
    ∀ m ∈ ms,
      let needed := m.before.length + m.event.asks
      (m.answer =
        if max < needed then .error (.capacityExceeded max)
        else if m.before.capacity < needed ∧ m.before.memory.errno ≠ 0 then
          .error (.pin (Fault.os m.before.memory.errno).message)
        else .ok m.event.hands) ∧
      (∀ e, m.answer = .error e → m.after = { m.before with memory := m.after.memory }) ∧
      m.before.capacity ≤ m.after.capacity ∧
      (m.before.capacity < m.after.capacity →
        Nat.min max (m.before.capacity * 2) ≤ m.after.capacity) := by
  intro ms last
  let P (ms : List Step) (b : SecureBuffer) :=
    Sound b ∧ b.max = max ∧ b.content = ms.foldl Step.onList []
  have hstart : P [] fresh := sound_create h
  have hnext : ∀ ms b e, P ms b →
      P (ms ++ [Run.moment perform b e]) (Run.moment perform b e).after := by
    rintro ms b e ⟨hsound, hmax, hcontent⟩
    have hstep := lawful_perform hsound e
    refine ⟨hstep.sound, hstep.max.trans hmax, ?_⟩
    rw [hstep.content, List.foldl_append, ← hcontent]
    rfl
  obtain ⟨hsound, hmax, hcontent⟩ := Run.holds_final (P := P) hnext es hstart
  refine ⟨hcontent, hsound.length_content, hsound.within, hmax ▸ hsound.bounded, ?_⟩
  intro m hm needed
  obtain ⟨pre, ⟨hbefore, hmax, -⟩, hmoment⟩ := Run.holds_at (P := P) hnext hstart hm
  have hstep : Lawful m := hmoment ▸ lawful_perform hbefore m.event
  have hanswer := hstep.answer
  have hgrowth := hstep.growth
  rw [due, hmax] at hanswer
  rw [hmax] at hgrowth
  exact ⟨hanswer, hstep.refusal, hstep.capacity, hgrowth⟩

/-- The second block is not pinned, the third is; what was cut off does not come back in it. -/
theorem refined_after_refusals :
    let memory : Memory := { answers := [0, 12] }
    let fresh : SecureBuffer := ⟨zeros 2, 0, 8, 0, (memory.allocate 2).2⟩
    let es : List Event :=
      [.append [1, 2], .append [3], .truncate 1, .extend [4, 0, 6], .append [7, 8, 9, 7, 8]]
    create 2 8 memory = .ok fresh ∧
    (Run.moments perform es fresh).map (·.answer.toOption) =
      [some [], none, some [], some [0, 0, 0], none] ∧
    (Run.final perform es fresh).content = [1, 4, 0, 6] := by
  intro memory fresh es
  have hcreate : create 2 8 memory = .ok fresh := rfl
  refine ⟨hcreate, by decide +kernel, ?_⟩
  rw [(refines_bounded_list hcreate es).1]
  decide +kernel

end ScreenLocker.SecureBuffer
