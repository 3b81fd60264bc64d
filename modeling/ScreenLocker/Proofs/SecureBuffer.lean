import ScreenLocker.Proofs.Op
import ScreenLocker.SecureBuffer

/-! The buffer as its users see it: its length, its content and the room it has. -/

namespace ScreenLocker

/-- The error number that the next request to pin meets; zero stands for success. -/
def Memory.errno (m : Memory) : Nat := m.answers.headD 0

theorem Memory.allocate_granted {m : Memory} (h : m.errno = 0) (length : Nat) :
    (m.allocate length).1 = .ok m.nextBlock := by
  have hanswer : m.answers.headD 0 = 0 := h
  simp only [allocate, hanswer, if_true]

theorem Memory.allocate_refused {m : Memory} (h : m.errno ≠ 0) (length : Nat) :
    (m.allocate length).1 = .error (.os m.errno) := by
  have hanswer : ¬m.answers.headD 0 = 0 := h
  simp only [allocate, hanswer, if_false]
  rfl

namespace SecureBuffer

/-- The buffer after `clear`. -/
def wiped (b : SecureBuffer) : SecureBuffer := { b.withStorage (zeros b.capacity) with length := 0 }

@[simp] theorem outcome_clear (b : SecureBuffer) : outcome clear b = ((), b.wiped) := rfl

@[simp] theorem wiped_length (b : SecureBuffer) : b.wiped.length = 0 := rfl

/-- The buffer after `truncate n`. -/
def cut (n : Nat) (b : SecureBuffer) : SecureBuffer :=
  if n < b.length then
    { b.withStorage (overwrite n (zeros (b.length - n)) b.storage) with length := n }
  else b

@[simp] theorem outcome_truncate (n : Nat) (b : SecureBuffer) :
    outcome (truncate n) b = ((), b.cut n) := rfl

/-- The size of the first block. -/
def firstCapacity (initial max : Nat) : Nat := Nat.min (Nat.max initial 1) (Nat.max max 1)

theorem create_eq (initial max : Nat) (memory : Memory) :
    create initial max memory =
      let given := (memory.allocate (firstCapacity initial max)).2
      if memory.errno = 0 then
        .ok ⟨zeros (firstCapacity initial max), 0, max, memory.nextBlock, given⟩
      else .error (.pin (Fault.os memory.errno).message, given) := by
  unfold create firstCapacity
  generalize Nat.min (Nat.max initial 1) (Nat.max max 1) = size
  by_cases hpin : memory.errno = 0
  · have hanswer := Memory.allocate_granted hpin size
    rcases hgiven : memory.allocate size with ⟨_, given⟩
    rw [hgiven] at hanswer
    subst hanswer
    simp [hgiven, hpin]
  · have hanswer := Memory.allocate_refused hpin size
    rcases hgiven : memory.allocate size with ⟨_, given⟩
    rw [hgiven] at hanswer
    subst hanswer
    simp [hgiven, hpin]

theorem overwrite_eq {start : Nat} {bytes storage : Bytes}
    (h : start + bytes.length ≤ storage.length) :
    overwrite start bytes storage =
      storage.take start ++ bytes ++ storage.drop (start + bytes.length) := by
  unfold overwrite
  apply List.take_of_length_le
  simp only [List.length_append, List.length_take, List.length_drop]
  omega

theorem length_overwrite {start : Nat} (bytes : Bytes) {storage : Bytes}
    (h : start ≤ storage.length) :
    (overwrite start bytes storage).length = storage.length := by
  simp only [overwrite, List.length_take, List.length_append, List.length_drop]
  omega

/-- The buffer in a new block of `target` bytes, with the old block given up. -/
def moved (target : Nat) (b : SecureBuffer) : SecureBuffer :=
  let storage := overwrite 0 b.content (zeros target)
  { b with
    storage
    block := b.memory.nextBlock
    memory := ((b.memory.allocate target).2.store b.memory.nextBlock storage).release b.block b.storage }

/-- What a request for room for `n` more bytes comes to. A refusal leaves a mark on the memory alone. -/
inductive Reserved (n : Nat) (b : SecureBuffer) : Except BufferError Unit → SecureBuffer → Prop where
  | exceeded (beyond : b.max < b.length + n) : Reserved n b (.error (.capacityExceeded b.max)) b
  | roomy (fits : b.length + n ≤ b.max) (room : b.length + n ≤ b.capacity) : Reserved n b (.ok ()) b
  | refused (fits : b.length + n ≤ b.max) (full : b.capacity < b.length + n)
      (unpinned : b.memory.errno ≠ 0) :
      Reserved n b (.error (.pin (Fault.os b.memory.errno).message))
        { b with memory := (b.memory.allocate (b.nextCapacity (b.length + n))).2 }
  | grown (fits : b.length + n ≤ b.max) (full : b.capacity < b.length + n)
      (pinned : b.memory.errno = 0) :
      Reserved n b (.ok ()) (b.moved (b.nextCapacity (b.length + n)))

theorem tried_grow (needed : Nat) (b : SecureBuffer) :
    tried (grow needed) b =
      if b.memory.errno = 0 then (.ok (), b.moved (b.nextCapacity needed))
      else
        (.error (.pin (Fault.os b.memory.errno).message),
          { b with memory := (b.memory.allocate (b.nextCapacity needed)).2 }) := by
  by_cases hpin : b.memory.errno = 0
  · rw [if_pos hpin]
    have hanswer := Memory.allocate_granted hpin (b.nextCapacity needed)
    rcases hgiven : b.memory.allocate (b.nextCapacity needed) with ⟨_, memory⟩
    rw [hgiven] at hanswer
    subst hanswer
    simp [grow, hgiven, moved]
  · rw [if_neg hpin]
    have hanswer := Memory.allocate_refused hpin (b.nextCapacity needed)
    rcases hgiven : b.memory.allocate (b.nextCapacity needed) with ⟨_, memory⟩
    rw [hgiven] at hanswer
    subst hanswer
    simp [grow, hgiven]

theorem reserved (n : Nat) (b : SecureBuffer) :
    Reserved n b (tried (reserve n) b).1 (tried (reserve n) b).2 := by
  by_cases hover : b.max < b.length + n
  · simpa [reserve, hover] using Reserved.exceeded hover
  have hfits : b.length + n ≤ b.max := by omega
  by_cases hfull : b.capacity < b.length + n
  · by_cases hpin : b.memory.errno = 0
    · simpa [reserve, hover, hfull, tried_grow, hpin] using Reserved.grown hfits hfull hpin
    · simpa [reserve, hover, hfull, tried_grow, hpin] using Reserved.refused hfits hfull hpin
  · have hroom : b.length + n ≤ b.capacity := by omega
    simpa [reserve, hover, hfull] using Reserved.roomy hfits hroom

theorem le_nextCapacity {needed : Nat} {b : SecureBuffer} (h : needed ≤ b.max) :
    needed ≤ b.nextCapacity needed :=
  Nat.le_min.mpr ⟨Nat.le_max_left _ _, h⟩

theorem capacity_moved (target : Nat) (b : SecureBuffer) : (b.moved target).capacity = target := by
  change (overwrite 0 b.content (zeros target)).length = target
  rw [length_overwrite _ (Nat.zero_le _)]
  exact List.length_replicate

/-- Room that was asked for is there, and nothing else is different to a user. -/
theorem reserve_ok {n : Nat} {b b' : SecureBuffer} (h : tried (reserve n) b = (.ok (), b')) :
    b'.length = b.length ∧ b'.max = b.max ∧ b.length + n ≤ b'.capacity := by
  have htable := reserved n b
  rw [h] at htable
  cases htable with
  | roomy _ room => exact ⟨rfl, rfl, room⟩
  | grown fits =>
    refine ⟨rfl, rfl, ?_⟩
    calc b.length + n
        ≤ b.nextCapacity (b.length + n) := le_nextCapacity fits
      _ = (b.moved (b.nextCapacity (b.length + n))).capacity := (capacity_moved _ b).symm

theorem extendZeroed_ok {n start : Nat} {b b' : SecureBuffer}
    (h : tried (extendZeroed n) b = (.ok start, b')) :
    start = b.length ∧ b'.length = b.length + n ∧ b'.max = b.max ∧ b.length + n ≤ b'.capacity := by
  cases hres : tried (reserve n) b with
  | mk answer room =>
    cases answer with
    | error e => simp [extendZeroed, hres] at h
    | ok _ =>
      obtain ⟨hlen, hmax, hcap⟩ := reserve_ok hres
      simp [extendZeroed, hres] at h
      obtain ⟨rfl, rfl⟩ := h
      exact ⟨hlen, by simp [hlen], hmax, hcap⟩

/-- Filling a stretch at the end of the content leaves what stood before it, and the filling. -/
theorem content_fill {start : Nat} {bytes : Bytes} {b : SecureBuffer}
    (hend : b.length = start + bytes.length) (hcap : b.length ≤ b.capacity) :
    (outcome (fill start bytes) b).2.content = b.storage.take start ++ bytes := by
  have hroom : start + bytes.length ≤ b.storage.length := hend ▸ hcap
  have hstart : (b.storage.take start).length = start := by
    rw [List.length_take]
    omega
  change (overwrite start bytes b.storage).take b.length = _
  rw [overwrite_eq hroom, hend]
  exact List.take_left' (by rw [List.length_append, hstart])

end SecureBuffer

end ScreenLocker
