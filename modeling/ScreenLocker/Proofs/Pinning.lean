import ScreenLocker.Proofs.BoundedBytes
import ScreenLocker.Proofs.Custody

/-! A buffer and the record of its memory. Whatever is done to a buffer, the record has one block pinned
after each operation, the present storage with its present content, and every block that was pinned
before it has been zeroed and unpinned. -/

namespace ScreenLocker

namespace Memory

theorem events_granted {m : Memory} (h : m.errno = 0) (length : Nat) :
    (m.allocate length).2.events = m.events ++ [.pin m.nextBlock length true] := by
  have hanswer : m.answers.headD 0 = 0 := h
  simp only [allocate, hanswer, if_true]
  rfl

theorem events_refused {m : Memory} (h : m.errno ≠ 0) (length : Nat) :
    (m.allocate length).2.events = m.events ++ [.pin m.nextBlock length false] := by
  have hanswer : ¬m.answers.headD 0 = 0 := h
  simp only [allocate, hanswer, if_false]
  rfl

theorem nextBlock_allocate (m : Memory) (length : Nat) :
    (m.allocate length).2.nextBlock = m.nextBlock + 1 := by
  unfold allocate
  dsimp only
  split <;> rfl

/-- Every block of the record has been numbered. -/
def Numbered (m : Memory) : Prop := ∀ e ∈ m.events, e.block < m.nextBlock

theorem Numbered.snoc {m m' : Memory} (h : m.Numbered) {e : MemoryEvent}
    (hevents : m'.events = m.events ++ [e]) (hnext : m.nextBlock ≤ m'.nextBlock)
    (hblock : e.block < m'.nextBlock) : m'.Numbered := by
  intro e' he'
  rw [hevents] at he'
  rcases List.mem_append.mp he' with hold | hnew
  · exact Nat.lt_of_lt_of_le (h e' hold) hnext
  · rw [List.mem_singleton.mp hnew]
    exact hblock

end Memory

namespace SecureBuffer

open Custody (Tells)

/-- The record of the memory is that of a buffer with this block and this content. -/
structure Recorded (b : SecureBuffer) : Prop where
  tells : Tells b.memory.events (.one b.block b.storage)
  numbered : b.memory.Numbered

namespace Recorded

variable {b : SecureBuffer}

theorem numbered_block (h : Recorded b) : b.block < b.memory.nextBlock := by
  obtain ⟨e, he, hblock⟩ := h.tells.heard (Custody.Blocks.content?_one b.block b.storage)
  exact hblock ▸ h.numbered e he

theorem edited (h : Recorded b) {storage : Bytes} (hsize : storage.length = b.storage.length)
    (length : Nat) : Recorded { b.withStorage storage with length } where
  tells := h.tells.next (.edited hsize)
  numbered := h.numbered.snoc (e := .store b.block storage) rfl (Nat.le_refl _) h.numbered_block

theorem refused (h : Recorded b) {length : Nat} (hlarger : b.capacity < length)
    (hpin : b.memory.errno ≠ 0) : Recorded { b with memory := (b.memory.allocate length).2 } where
  tells := by
    change Tells (b.memory.allocate length).2.events _
    rw [Memory.events_refused hpin]
    exact h.tells.next (.refused h.numbered hlarger)
  numbered := by
    have hnext := Memory.nextBlock_allocate b.memory length
    refine h.numbered.snoc (Memory.events_refused hpin length) ?_ ?_
    · rw [hnext]
      exact Nat.le_succ _
    · rw [hnext]
      exact Nat.lt_succ_self _

/-- The new block is pinned before the old one is let go. -/
theorem moved (h : Recorded b) {target : Nat} (hlarger : b.capacity < target)
    (hpin : b.memory.errno = 0) : Recorded (b.moved target) := by
  let pinned := (b.memory.allocate target).2
  let filled := pinned.store b.memory.nextBlock (b.moved target).storage
  have hnext : pinned.nextBlock = b.memory.nextBlock + 1 := Memory.nextBlock_allocate b.memory target
  have hapart : b.memory.nextBlock ≠ b.block := Nat.ne_of_gt h.numbered_block
  have hsize : (b.moved target).storage.length = (zeros target).length := by
    rw [length_zeros]
    exact capacity_moved target b
  constructor
  · have hpinned : Tells pinned.events
        (.two b.block b.storage b.memory.nextBlock (zeros target)) := by
      rw [Memory.events_granted hpin]
      exact h.tells.next (.granted h.numbered hlarger)
    exact (hpinned.next (.copied hsize)).next (.replaced hapart)
  · have hpinned : pinned.Numbered := by
      refine h.numbered.snoc (Memory.events_granted hpin target) ?_ ?_
      · exact hnext ▸ Nat.le_succ _
      · exact hnext ▸ Nat.lt_succ_self _
    have hfilled : filled.Numbered :=
      hpinned.snoc (e := .store b.memory.nextBlock _) rfl (Nat.le_refl _) (hnext ▸ Nat.lt_succ_self _)
    refine hfilled.snoc (e := .unpin b.block _) rfl (Nat.le_refl _) ?_
    exact Nat.lt_of_lt_of_le h.numbered_block (hnext ▸ Nat.le_succ _)

/-- A request for room leaves the buffer in a block that is on record. -/
theorem reserved (h : Recorded b) {n : Nat} {r : Except BufferError Unit} {b' : SecureBuffer}
    (hr : Reserved n b r b') : Recorded b' := by
  cases hr with
  | exceeded => exact h
  | roomy => exact h
  | refused fits full unpinned =>
    exact h.refused (Nat.lt_of_lt_of_le full (le_nextCapacity fits)) unpinned
  | grown fits full pinned =>
    exact h.moved (Nat.lt_of_lt_of_le full (le_nextCapacity fits)) pinned

theorem inPlace (h : Recorded b) (hsound : Sound b) (e : Event) : Recorded (e.inPlace b) := by
  have hwithin : b.length ≤ b.storage.length := hsound.within
  cases e with
  | append bytes => exact h.edited (length_overwrite bytes hwithin) _
  | extend filling => exact h.edited (length_overwrite filling hwithin) _
  | truncate n =>
    change Recorded (b.cut n)
    by_cases hn : n < b.length
    · rw [cut, if_pos hn]
      exact h.edited (length_overwrite _ (by omega)) _
    · rw [cut, if_neg hn]
      exact h
  | clear => exact h.edited (length_zeros _) _

theorem perform (h : Recorded b) (hsound : Sound b) (e : Event) :
    Recorded (outcome (perform e) b).2 := by
  obtain ⟨r, room, hres, hperform⟩ := perform_cases e hsound
  have hroom : Recorded room := h.reserved hres
  rw [hperform]
  cases r with
  | error err => exact hroom
  | ok _ => exact hroom.inPlace (hres.keeps hsound).1 e

end Recorded

section Create

variable {initial max : Nat} {memory : Memory} (hnew : memory.events = [])

include hnew

theorem recorded_create {b : SecureBuffer} (h : create initial max memory = .ok b) : Recorded b := by
  rw [create_eq] at h
  dsimp only at h
  split at h
  · next hpin =>
    have hnext := Memory.nextBlock_allocate memory (firstCapacity initial max)
    have hevents := Memory.events_granted hpin (firstCapacity initial max)
    rw [hnew, List.nil_append] at hevents
    obtain rfl := Except.ok.inj h
    constructor
    · change Tells (memory.allocate _).2.events _
      rw [hevents]
      exact .made memory.nextBlock _
    · change (memory.allocate _).2.Numbered
      intro e he
      rw [hevents] at he
      rw [List.mem_singleton.mp he, hnext]
      exact Nat.lt_succ_self _
  · simp at h

theorem refused_create {e : BufferError} {left : Memory}
    (h : create initial max memory = .error (e, left)) :
    ∃ length, left.events = [.pin memory.nextBlock length false] := by
  rw [create_eq] at h
  dsimp only at h
  split at h
  · simp at h
  · next hpin =>
    obtain ⟨-, rfl⟩ := Prod.mk.inj (Except.error.inj h)
    have hevents := Memory.events_refused hpin (firstCapacity initial max)
    rw [hnew, List.nil_append] at hevents
    exact ⟨_, hevents⟩

end Create

theorem recorded_final {b : SecureBuffer} (hsound : Sound b) (h : Recorded b) (es : List Event) :
    Recorded (Run.final perform es b) := by
  have hlast : Sound (Run.final perform es b) ∧ Recorded (Run.final perform es b) := by
    refine Run.holds_final (P := fun _ b => Sound b ∧ Recorded b) ?_ es ⟨hsound, h⟩
    rintro _ b e ⟨hsound, h⟩
    exact ⟨(lawful_perform hsound e).sound, h.perform hsound e⟩
  exact hlast.2

/-- What is on record of a block once the buffer has ended. -/
theorem Recorded.past_drop {b : SecureBuffer} (h : Recorded b) (block : Nat) :
    Custody.Past block (Custody.history block b.drop.events) none := by
  let e : MemoryEvent := .unpin b.block (zeros b.storage.length)
  change Custody.Past block (Custody.history block (b.memory.events ++ [e])) none
  have hpast := h.tells.past block
  by_cases hblock : b.block = block
  · rw [Custody.history_snoc_same (e := e) hblock]
    subst hblock
    rw [Custody.Blocks.content?_one] at hpast
    exact hpast.released
  · rw [Custody.history_snoc_other (e := e) hblock]
    rw [Custody.Blocks.content?_one_other hblock] at hpast
    exact hpast

/-- A growth that is refused, and then one that is granted. -/
example :
    let memory : Memory := { answers := [0, 12] }
    let fresh : SecureBuffer := ⟨zeros 1, 0, 8, 0, (memory.allocate 1).2⟩
    let last := Run.final SecureBuffer.perform [.append [97, 98], .append [97, 98]] fresh
    create 1 8 memory = .ok fresh ∧ last.drop.events =
      [.pin 0 1 true, .pin 1 2 false, .pin 2 2 true, .store 2 [0, 0], .unpin 0 [0], .store 2 [97, 98],
        .unpin 2 [0, 0]] :=
  ⟨rfl, by decide +kernel⟩

end SecureBuffer

end ScreenLocker
