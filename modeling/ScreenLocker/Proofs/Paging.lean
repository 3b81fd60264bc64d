import Mathlib.Data.Finset.Image
import Mathlib.Data.Finset.SDiff
import ScreenLocker.Proofs.Pinning

/-! Pinning page by page. The kernel locks and unlocks whole pages and keeps no count, so unpinning a
block unlocks whatever shares a page with it. A buffer that moves to a larger block pins the new one
first and unpins the old one last: then the pages of its storage are locked but for those that the old
block touched too. -/

namespace ScreenLocker

/-- Where each block of a memory lies. -/
structure AddressSpace where
  pageSize : Nat
  place : Nat → Nat

namespace AddressSpace

open Custody (Blocks Tells)

variable (space : AddressSpace)

/-- The pages that a block with this number and length touches. -/
def pages (block : Nat × Nat) : Finset Nat :=
  (Finset.range block.2).image fun offset => (space.place block.1 + offset) / space.pageSize

/-- A block that is pinned locks its pages; one that is unpinned unlocks them, whoever locked them. A
request that is refused does neither. -/
def locking (locked : Finset Nat) : MemoryEvent → Finset Nat
  | .pin block length true => locked ∪ space.pages (block, length)
  | .pin _ _ false => locked
  | .store _ _ => locked
  | .unpin block content => locked \ space.pages (block, content.length)

def locked (events : List MemoryEvent) : Finset Nat := events.foldl space.locking ∅

/-- A block that is allocated lies apart from those in use. -/
def Clear (used : List (Nat × Nat)) : MemoryEvent → Prop
  | .pin block length _ =>
    ∀ other ∈ used, space.place other.1 + other.2 ≤ space.place block ∨
      space.place block + length ≤ space.place other.1
  | .store _ _ => True
  | .unpin _ _ => True

instance (used : List (Nat × Nat)) (e : MemoryEvent) : Decidable (space.Clear used e) :=
  match e with
  | .pin _ _ _ => inferInstanceAs (Decidable (∀ _ ∈ _, _))
  | .store _ _ => inferInstanceAs (Decidable True)
  | .unpin _ _ => inferInstanceAs (Decidable True)

/-- No two blocks overlap while both are in use. -/
def Apart : (used : List (Nat × Nat)) → List MemoryEvent → Prop
  | _, [] => True
  | used, e :: rest => space.Clear used e ∧ Apart (e.pins used) rest

instance decidableApart : (used : List (Nat × Nat)) → (events : List MemoryEvent) →
    Decidable (space.Apart used events)
  | _, [] => inferInstanceAs (Decidable True)
  | used, e :: rest =>
    have := decidableApart (e.pins used) rest
    inferInstanceAs (Decidable (_ ∧ _))

end AddressSpace

namespace MemoryEvent

/-- The block that was unpinned last, as the event leaves it. -/
def replaces (last : Option (Nat × Nat)) : MemoryEvent → Option (Nat × Nat)
  | unpin block content => some (block, content.length)
  | pin _ _ _ => last
  | store _ _ => last

end MemoryEvent

/-- The storage that the present one took over from. -/
def replaced (events : List MemoryEvent) : Option (Nat × Nat) :=
  events.foldl MemoryEvent.replaces none

theorem replaced_snoc (events : List MemoryEvent) (e : MemoryEvent) :
    replaced (events ++ [e]) = e.replaces (replaced events) := by
  rw [replaced, List.foldl_append]
  rfl

namespace AddressSpace

open Custody (Blocks Tells)

variable (space : AddressSpace)

theorem locked_snoc (events : List MemoryEvent) (e : MemoryEvent) :
    space.locked (events ++ [e]) = space.locking (space.locked events) e := by
  rw [locked, List.foldl_append]
  rfl

/-- The pages of these blocks that are locked, if those of `gone` were unlocked last. -/
def remaining (gone : Option (Nat × Nat)) : Blocks → Finset Nat
  | .one block content => space.pages (block, content.length) \ gone.elim ∅ space.pages
  | .two old left block content =>
    (space.pages (old, left.length) \ gone.elim ∅ space.pages) ∪ space.pages (block, content.length)

theorem locked_eq {events : List MemoryEvent} {b : Blocks} (h : Tells events b) :
    space.locked events = space.remaining (replaced events) b := by
  induction h with
  | made block length => simp [locked, locking, remaining, replaced, MemoryEvent.replaces]
  | @next events e b b' _ hnext ih =>
    rw [locked_snoc, replaced_snoc, ih]
    cases hnext with
    | refused => rfl
    | granted => simp [locking, remaining, MemoryEvent.replaces]
    | edited same => simp [locking, remaining, MemoryEvent.replaces, same]
    | copied same => simp [locking, remaining, MemoryEvent.replaces, same]
    | @replaced old k left content =>
      -- What was left of the old block's pages goes with them.
      simp only [locking, remaining, MemoryEvent.replaces, length_zeros, Option.elim]
      rw [Finset.union_sdiff_distrib, sdiff_right_comm, Finset.sdiff_self, Finset.empty_sdiff,
        Finset.empty_union]

end AddressSpace

namespace SecureBuffer

variable {initial max : Nat} {answers : List Nat} {fresh : SecureBuffer}

/-- After each operation a page of the storage is locked unless the storage that it replaced touched the
page too. So all are locked if the two share no page, wherever the blocks lie. -/
theorem locked_unless_shared (space : AddressSpace) (h : create initial max { answers } = .ok fresh)
    (es : List Event) :
    let last := Run.final perform es fresh
    let events := last.memory.events
    let storage := (last.block, last.capacity)
    (∀ page, page ∈ space.locked events ↔
      page ∈ space.pages storage ∧ ∀ old ∈ replaced events, page ∉ space.pages old) ∧
    ((∀ old ∈ replaced events, Disjoint (space.pages old) (space.pages storage)) →
      space.pages storage ⊆ space.locked events) := by
  intro last events storage
  have hlast : Recorded last := recorded_final (sound_create h).1 (recorded_create rfl h) es
  have hlocked : ∀ page, page ∈ space.locked events ↔
      page ∈ space.pages storage ∧ ∀ old ∈ replaced events, page ∉ space.pages old := by
    intro page
    have heq : space.locked events = space.pages storage \ (replaced events).elim ∅ space.pages :=
      space.locked_eq hlast.tells
    rw [heq, Finset.mem_sdiff]
    cases replaced events <;> simp
  refine ⟨hlocked, fun hdisjoint page hpage => ?_⟩
  refine (hlocked page).mpr ⟨hpage, fun old hold hshared => ?_⟩
  exact Finset.disjoint_left.mp (hdisjoint old hold) hshared hpage

/-- Each block in a page of its own. -/
theorem locked_in_own_page :
    let space : AddressSpace := ⟨4096, fun block => 4096 * block⟩
    let fresh : SecureBuffer := ⟨zeros 1, 0, 8, 0, (({} : Memory).allocate 1).2⟩
    let last := Run.final perform [.append [97, 98]] fresh
    create 1 8 {} = .ok fresh ∧ replaced last.memory.events = some (0, 1) ∧
      space.pages (last.block, last.capacity) = {1} ∧ 1 ∈ space.locked last.memory.events := by
  intro space fresh last
  have hcreate : create 1 8 {} = .ok fresh := rfl
  have hold : replaced last.memory.events = some (0, 1) := by decide +kernel
  have hpages : space.pages (last.block, last.capacity) = {1} := by decide +kernel
  refine ⟨hcreate, hold, hpages, ?_⟩
  obtain ⟨-, hall⟩ := locked_unless_shared space hcreate [.append [97, 98]]
  refine hall ?_ (by rw [hpages]; exact Finset.mem_singleton_self 1)
  intro old hreplaced
  obtain rfl : (0, 1) = old := Option.some.inj (hold.symm.trans hreplaced)
  rw [hpages]
  decide +kernel

/-- Two blocks in one page: the growth ends with that page unlocked, and the storage is in it. -/
theorem unlocked_by_growth :
    let space : AddressSpace := ⟨4096, fun block => 64 * block⟩
    let fresh : SecureBuffer := ⟨zeros 1, 0, 8, 0, (({} : Memory).allocate 1).2⟩
    let last := Run.final perform [.append [97, 98]] fresh
    create 1 8 {} = .ok fresh ∧ space.Apart [] last.memory.events ∧ last.content = [97, 98] ∧
      0 ∈ space.pages (last.block, last.capacity) ∧ 0 ∉ space.locked last.memory.events := by
  refine ⟨rfl, by decide +kernel, by decide +kernel, by decide +kernel, by decide +kernel⟩

end SecureBuffer

end ScreenLocker
