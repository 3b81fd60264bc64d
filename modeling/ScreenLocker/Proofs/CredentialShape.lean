import ScreenLocker.Auth
import ScreenLocker.Proofs.SecureBuffer
import ScreenLocker.Proofs.Twins

/-! The shape of a credential is where its scalars begin: its length, and which of its bytes continue
a scalar. Two credentials of one shape lead to the same log lines, the same results and the same
requests to pin, whatever is done to them. -/

namespace ScreenLocker

/-- As long as each other, and with the same continuation bytes. -/
def SameShape (bytes bytes' : Bytes) : Prop :=
  bytes.map Auth.isContinuation = bytes'.map Auth.isContinuation

instance (bytes bytes' : Bytes) : Decidable (SameShape bytes bytes') :=
  inferInstanceAs (Decidable (_ = _))

namespace SameShape

variable {x x' y y' : Bytes}

theorem refl (x : Bytes) : SameShape x x := rfl

theorem length (h : SameShape x x') : x.length = x'.length := by
  have hlen := congrArg List.length h
  rwa [List.length_map, List.length_map] at hlen

theorem take (h : SameShape x x') (n : Nat) : SameShape (x.take n) (x'.take n) := by
  unfold SameShape
  rw [List.map_take, List.map_take, h]

theorem drop (h : SameShape x x') (n : Nat) : SameShape (x.drop n) (x'.drop n) := by
  unfold SameShape
  rw [List.map_drop, List.map_drop, h]

theorem append (hx : SameShape x x') (hy : SameShape y y') : SameShape (x ++ y) (x' ++ y') := by
  unfold SameShape
  rw [List.map_append, List.map_append, hx, hy]

theorem overwrite (start : Nat) (hx : SameShape x x') (hy : SameShape y y') :
    SameShape (SecureBuffer.overwrite start x y) (SecureBuffer.overwrite start x' y') := by
  unfold SecureBuffer.overwrite
  rw [hx.length, hy.length]
  exact (((hy.take _).append hx).append (hy.drop _)).take _

/-- The start of the last scalar is read off the shape. -/
theorem lastScalarStart (h : SameShape x x') : Auth.lastScalarStart x = Auth.lastScalarStart x' := by
  have hread : ∀ bytes : Bytes, Auth.lastScalarStart bytes =
      ((bytes.map Auth.isContinuation).reverse.dropWhile id).length - 1 := by
    intro bytes
    rw [← List.map_reverse, List.dropWhile_map, List.length_map]
    rfl
  rw [hread, hread, h]

end SameShape

/-- An event of the memory without the bytes that were stored. -/
def MemoryEvent.hidden : MemoryEvent → MemoryEvent
  | store block content => store block (zeros content.length)
  | other => other

theorem MemoryEvent.call?_hidden (e : MemoryEvent) : e.hidden.call? = e.call? := by
  cases e <;> rfl

namespace Memory

structure Alike (m m' : Memory) : Prop where
  nextBlock : m.nextBlock = m'.nextBlock
  answers : m.answers = m'.answers
  events : m.events.map MemoryEvent.hidden = m'.events.map MemoryEvent.hidden

namespace Alike

variable {m m' : Memory}

theorem refl (m : Memory) : Alike m m := ⟨rfl, rfl, rfl⟩

theorem record (h : Alike m m') {e e' : MemoryEvent} (he : e.hidden = e'.hidden) :
    Alike (m.record e) (m'.record e') where
  nextBlock := h.nextBlock
  answers := h.answers
  events := by
    simp only [Memory.record, List.map_append, List.map_singleton]
    rw [h.events, he]

theorem store (h : Alike m m') (block : Nat) {x x' : Bytes} (hx : SameShape x x') :
    Alike (m.store block x) (m'.store block x') := by
  refine h.record ?_
  simp only [MemoryEvent.hidden]
  rw [hx.length]

theorem release (h : Alike m m') (block : Nat) {x x' : Bytes} (hx : SameShape x x') :
    Alike (m.release block x) (m'.release block x') := by
  unfold Memory.release
  rw [hx.length]
  exact h.record rfl

/-- The same request is answered the same. -/
theorem allocate (h : Alike m m') (length : Nat) :
    (m.allocate length).1 = (m'.allocate length).1 ∧
      Alike (m.allocate length).2 (m'.allocate length).2 := by
  have hrest : Alike { m with nextBlock := m'.nextBlock + 1, answers := m'.answers.tail }
      { m' with nextBlock := m'.nextBlock + 1, answers := m'.answers.tail } := ⟨rfl, rfl, h.events⟩
  unfold Memory.allocate
  rw [h.answers, h.nextBlock]
  dsimp only
  split
  · exact ⟨rfl, hrest.record rfl⟩
  · exact ⟨rfl, hrest.record rfl⟩

theorem calls (h : Alike m m') :
    m.events.filterMap MemoryEvent.call? = m'.events.filterMap MemoryEvent.call? := by
  have hread : ∀ events : List MemoryEvent, events.filterMap MemoryEvent.call? =
      (events.map MemoryEvent.hidden).filterMap MemoryEvent.call? := by
    intro events
    rw [List.filterMap_map]
    congr 1
    funext e
    exact (MemoryEvent.call?_hidden e).symm
  rw [hread m.events, h.events, ← hread]

end Alike

end Memory

namespace SecureBuffer

/-- Buffers that differ in no more than the bytes of two contents of one shape. -/
structure Alike (b b' : SecureBuffer) : Prop where
  storage : SameShape b.storage b'.storage
  length : b.length = b'.length
  max : b.max = b'.max
  block : b.block = b'.block
  memory : Memory.Alike b.memory b'.memory

namespace Alike

variable {b b' : SecureBuffer}

theorem refl (b : SecureBuffer) : Alike b b := ⟨rfl, rfl, rfl, rfl, Memory.Alike.refl _⟩

theorem capacity (h : Alike b b') : b.capacity = b'.capacity := h.storage.length

theorem isEmpty (h : Alike b b') : b.isEmpty = b'.isEmpty := by
  unfold SecureBuffer.isEmpty
  rw [h.length]

theorem content (h : Alike b b') : SameShape b.content b'.content := by
  unfold SecureBuffer.content
  rw [h.length]
  exact h.storage.take _

theorem nextCapacity (h : Alike b b') (needed : Nat) :
    b.nextCapacity needed = b'.nextCapacity needed := by
  unfold SecureBuffer.nextCapacity
  rw [h.capacity, h.max]

theorem describe (h : Alike b b') : b.describe = b'.describe := by
  unfold SecureBuffer.describe
  rw [h.length, h.capacity, h.max]

theorem drop (h : Alike b b') : Memory.Alike b.drop b'.drop := by
  unfold SecureBuffer.drop
  rw [h.block]
  exact h.memory.release _ h.storage

theorem resized (h : Alike b b') (n : Nat) :
    Alike { b with length := n } { b' with length := n } :=
  ⟨h.storage, rfl, h.max, h.block, h.memory⟩

theorem withStorage (h : Alike b b') {x x' : Bytes} (hx : SameShape x x') :
    Alike (b.withStorage x) (b'.withStorage x') := by
  refine ⟨hx, h.length, h.max, h.block, ?_⟩
  change Memory.Alike (b.memory.store b.block x) (b'.memory.store b'.block x')
  rw [h.block]
  exact h.memory.store _ hx

end Alike

theorem discreet_grow (needed : Nat) : Discreet Alike (grow needed).run := by
  refine Twins.tryGetBind fun b b' h => ?_
  obtain ⟨hanswer, hmemory⟩ := h.memory.allocate (b.nextCapacity needed)
  rw [← h.nextCapacity needed]
  dsimp only
  rw [← hanswer]
  -- Both requests are for the same size, so both are refused or both blocks replaced.
  cases (b.memory.allocate (b.nextCapacity needed)).1 with
  | error fault =>
    refine Twins.tryBind (Twins.trySet ?_) fun _ => ?_
    · exact ⟨h.storage, h.length, h.max, h.block, hmemory⟩
    · exact Twins.tryBind (Twins.tryLog _) fun _ => Twins.tryThrow _
  | ok block =>
    refine Twins.tryBind (Twins.trySet ?_) fun _ => Twins.tryLog _
    have hstorage := SameShape.overwrite 0 h.content (SameShape.refl (zeros (b.nextCapacity needed)))
    refine ⟨hstorage, h.length, h.max, rfl, ?_⟩
    rw [h.block]
    exact (hmemory.store block hstorage).release _ h.storage

theorem discreet_reserve (n : Nat) : Discreet Alike (reserve n).run := by
  refine Twins.tryGetBind fun b b' h => ?_
  rw [h.max, h.length, h.capacity]
  refine Twins.tryWhen (Twins.tryThrow _) ?_
  split
  · exact discreet_grow _
  · exact Twins.tryPure ()

theorem twins_append {x x' : Bytes} (hx : SameShape x x') :
    Twins Alike (append x).run (append x').run := by
  unfold append
  rw [hx.length]
  refine Twins.tryBind (discreet_reserve _) fun _ => Twins.tryChange fun b b' h => ?_
  rw [h.length]
  exact (h.withStorage (SameShape.overwrite _ hx h.storage)).resized _

theorem discreet_truncate (n : Nat) : Discreet Alike (truncate n) := by
  refine Twins.change fun b b' h => ?_
  rw [h.length]
  split
  · exact (h.withStorage (SameShape.overwrite n (SameShape.refl _) h.storage)).resized n
  · exact h

theorem discreet_clear : Discreet Alike clear := by
  refine Twins.change fun b b' h => ?_
  rw [h.capacity]
  exact (h.withStorage (SameShape.refl _)).resized 0

end SecureBuffer

namespace Auth

structure Alike (a a' : Auth) : Prop where
  phase : a.phase = a'.phase
  failedAttempts : a.failedAttempts = a'.failedAttempts
  buffer : SecureBuffer.Alike a.buffer a'.buffer
  ignoreEmpty : a.ignoreEmpty = a'.ignoreEmpty

theorem Alike.refl (a : Auth) : Alike a a := ⟨rfl, rfl, SecureBuffer.Alike.refl _, rfl⟩

theorem carries_storing : storing.Carries Alike SecureBuffer.Alike where
  get _ _ h := h.buffer
  put _ _ _ _ h hbuffer := ⟨h.phase, h.failedAttempts, hbuffer, h.ignoreEmpty⟩

theorem discreet_wipe : Discreet Alike (storing.on SecureBuffer.clear : Op Auth Unit) :=
  Twins.on carries_storing SecureBuffer.discreet_clear

theorem discreet_enter (phase : AuthPhase) : Discreet Alike (enter phase) := by
  refine Twins.when discreet_wipe (Twins.getBind fun a a' h => ?_)
  dsimp only
  rw [h.phase]
  split
  · exact Twins.pure _
  · refine Twins.bind (Twins.log _) fun _ => Twins.bind (Twins.change ?_) fun _ => Twins.pure _
    exact fun _ _ h => ⟨rfl, h.failedAttempts, h.buffer, h.ignoreEmpty⟩

theorem twins_insert {x x' : Bytes} (hx : SameShape x x') : Twins Alike (insert x) (insert x') := by
  refine Twins.bind (Twins.on carries_storing (SecureBuffer.twins_append hx)) fun r => ?_
  match r with
  | .ok () => exact discreet_enter .idle
  | .error (.capacityExceeded max) => exact Twins.bind (Twins.log _) fun _ => Twins.pure _
  | .error (.pin reason) => exact Twins.bind (Twins.log _) fun _ => Twins.pure _

theorem discreet_backspace : Discreet Alike backspace := by
  refine Twins.getBind fun a a' h => ?_
  dsimp only
  -- The only place where the bytes decide: how much goes is read off the shape.
  rw [h.buffer.isEmpty, h.buffer.content.lastScalarStart]
  split
  · exact discreet_enter .cleared
  · have hcut := SecureBuffer.discreet_truncate (lastScalarStart a'.buffer.content)
    refine Twins.bind (Twins.on carries_storing hcut) fun _ => Twins.getBind fun a a' h => ?_
    rw [h.buffer.isEmpty]
    split
    · exact discreet_enter .cleared
    · exact discreet_enter .idle

theorem discreet_handleVerdict (v : Verdict) : Discreet Alike (handleVerdict v).run := by
  refine Twins.tryGetBind fun a a' h => ?_
  rw [h.phase]
  refine Twins.tryWhen (Twins.tryThrow _) (Twins.tryBind (Twins.host discreet_wipe) fun _ => ?_)
  cases v with
  | success =>
    refine Twins.tryBind (Twins.tryLog _) fun _ => Twins.tryBind (Twins.tryChange ?_) fun _ => ?_
    · exact fun _ _ h => ⟨rfl, h.failedAttempts, h.buffer, h.ignoreEmpty⟩
    · exact Twins.tryPure _
  | failure =>
    refine Twins.tryBind (Twins.tryChange ?_) fun _ => Twins.tryGetBind fun a a' h => ?_
    · intro a a' h
      rw [h.failedAttempts]
      exact ⟨h.phase, rfl, h.buffer, h.ignoreEmpty⟩
    · rw [h.failedAttempts]
      refine Twins.tryBind (Twins.tryLog _) fun _ => ?_
      exact Twins.tryBind (Twins.host (discreet_enter .invalid)) fun _ => Twins.tryPure _

end Auth

end ScreenLocker
