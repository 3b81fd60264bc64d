import ScreenLocker.Memory
import ScreenLocker.Proofs.Ledger

/-! What the record of a memory says about its blocks. A buffer has one block at a time and, while it
moves to a larger one, two: the new block is pinned, filled and takes over, and the old one is zeroed and
unpinned. From the events alone it can be told which blocks are pinned and what each of them went
through. -/

namespace ScreenLocker

namespace MemoryEvent

def block : MemoryEvent → Nat
  | pin block _ _ => block
  | store block _ => block
  | unpin block _ => block

/-- What the block holds from then on; an allocated block is zero. -/
def leaves : MemoryEvent → Bytes
  | pin _ length _ => zeros length
  | store _ content => content
  | unpin _ content => content

/-- The pinned blocks with their lengths, oldest first, as the event leaves them. -/
def pins (held : List (Nat × Nat)) : MemoryEvent → List (Nat × Nat)
  | pin block length true => held ++ [(block, length)]
  | pin _ _ false => held
  | store _ _ => held
  | unpin block content => held.erase (block, content.length)

/-- The length of a block whose pin was granted. -/
def granted? : MemoryEvent → Option Nat
  | pin _ length true => some length
  | pin _ _ false => none
  | store _ _ => none
  | unpin _ _ => none

end MemoryEvent

namespace Custody

open MemoryEvent (pin store unpin)

def pinned (events : List MemoryEvent) : List (Nat × Nat) := events.foldl MemoryEvent.pins []

def history (block : Nat) (events : List MemoryEvent) : List MemoryEvent :=
  events.filter (·.block = block)

theorem pinned_snoc (events : List MemoryEvent) (e : MemoryEvent) :
    pinned (events ++ [e]) = e.pins (pinned events) := by
  rw [pinned, List.foldl_append]
  rfl

theorem history_snoc_same {events : List MemoryEvent} {e : MemoryEvent} {block : Nat}
    (h : e.block = block) : history block (events ++ [e]) = history block events ++ [e] := by
  simp [history, h]

theorem history_snoc_other {events : List MemoryEvent} {e : MemoryEvent} {block : Nat}
    (h : e.block ≠ block) : history block (events ++ [e]) = history block events := by
  simp [history, h]

/-- What one block goes through, and what it holds while it is pinned. A block that is refused is
never heard of again. -/
inductive Past (block : Nat) : List MemoryEvent → Option Bytes → Prop where
  | unseen : Past block [] none
  | refused (length : Nat) : Past block [.pin block length false] none
  | pinned (length : Nat) (stored : List Bytes) (same : ∀ content ∈ stored, content.length = length) :
      Past block (.pin block length true :: stored.map (.store block))
        (some (stored.getLastD (zeros length)))
  | wiped (length : Nat) (stored : List Bytes) (same : ∀ content ∈ stored, content.length = length) :
      Past block (.pin block length true :: stored.map (.store block) ++ [.unpin block (zeros length)])
        none

namespace Past

variable {block : Nat} {events : List MemoryEvent} {content : Bytes}

theorem length_last {length : Nat} {stored : List Bytes}
    (same : ∀ content ∈ stored, content.length = length) :
    (stored.getLastD (zeros length)).length = length := by
  rcases List.eq_nil_or_concat stored with rfl | ⟨earlier, last, rfl⟩
  · exact length_zeros length
  · rw [List.concat_eq_append] at same ⊢
    rw [List.getLastD_concat]
    exact same last (by simp)

theorem heard (h : Past block events (some content)) : ∃ e ∈ events, e.block = block := by
  cases h with
  | pinned length => exact ⟨_, List.mem_cons_self, rfl⟩

theorem unheard {held : Option Bytes} (h : Past block [] held) : held = none := by
  cases h
  rfl

theorem stored (h : Past block events (some content)) {new : Bytes}
    (hlength : new.length = content.length) : Past block (events ++ [.store block new]) (some new) := by
  cases h with
  | pinned length stored same =>
    rw [length_last same] at hlength
    have hall : ∀ content ∈ stored ++ [new], content.length = length := by
      intro content hcontent
      rcases List.mem_append.mp hcontent with hold | hnew
      · exact same content hold
      · rw [List.mem_singleton.mp hnew, hlength]
    have hpinned : Past block (.pin block length true :: (stored ++ [new]).map (.store block))
        (some ((stored ++ [new]).getLastD (zeros length))) := .pinned length (stored ++ [new]) hall
    rw [List.map_append, List.getLastD_concat] at hpinned
    exact hpinned

theorem released (h : Past block events (some content)) :
    Past block (events ++ [.unpin block (zeros content.length)]) none := by
  cases h with
  | pinned length stored same =>
    rw [length_last same]
    exact .wiped length stored same

/-- What the last store left, or zeros, is what is held. -/
theorem held (h : Past block events (some content)) :
    (events.getLast?.map MemoryEvent.leaves).getD [] = content := by
  cases h with
  | pinned length stored same =>
    rcases List.eq_nil_or_concat stored with rfl | ⟨earlier, last, rfl⟩
    · rfl
    · rw [List.concat_eq_append, List.getLastD_concat, List.map_append, ← List.cons_append,
        List.map_singleton, List.getLast?_concat]
      rfl

end Past

/-- The blocks that a buffer answers for. -/
inductive Blocks where
  | one (block : Nat) (content : Bytes)
  /-- Between two blocks, of which the first is still pinned. -/
  | two (old : Nat) (left : Bytes) (block : Nat) (content : Bytes)

namespace Blocks

def pinned : Blocks → List (Nat × Nat)
  | one block content => [(block, content.length)]
  | two old left block content => [(old, left.length), (block, content.length)]

def content? (target : Nat) : Blocks → Option Bytes
  | one block content => if block = target then some content else none
  | two old left block content =>
    if block = target then some content else if old = target then some left else none

@[simp] theorem content?_one (k : Nat) (content : Bytes) :
    (one k content).content? k = some content := if_pos rfl

@[simp] theorem content?_two (old : Nat) (left : Bytes) (k : Nat) (content : Bytes) :
    (two old left k content).content? k = some content := if_pos rfl

theorem content?_one_other {k target : Nat} (h : k ≠ target) (content : Bytes) :
    (one k content).content? target = none := if_neg h

theorem content?_two_old {old k : Nat} (h : k ≠ old) (left content : Bytes) :
    (two old left k content).content? old = some left := by
  rw [content?, if_neg h, if_pos rfl]

/-- What can happen to the blocks after `events`. A block that is asked for has a number of its own. -/
inductive Next (events : List MemoryEvent) : Blocks → MemoryEvent → Blocks → Prop where
  | refused {k : Nat} {content : Bytes} {block length : Nat}
      (fresh : ∀ e ∈ events, e.block < block) (larger : content.length < length) :
      Next events (.one k content) (.pin block length false) (.one k content)
  | granted {k : Nat} {content : Bytes} {block length : Nat}
      (fresh : ∀ e ∈ events, e.block < block) (larger : content.length < length) :
      Next events (.one k content) (.pin block length true) (.two k content block (zeros length))
  | edited {k : Nat} {content new : Bytes} (same : new.length = content.length) :
      Next events (.one k content) (.store k new) (.one k new)
  | copied {old k : Nat} {left content new : Bytes} (same : new.length = content.length) :
      Next events (.two old left k content) (.store k new) (.two old left k new)
  | replaced {old k : Nat} {left content : Bytes} (apart : k ≠ old) :
      Next events (.two old left k content) (.unpin old (zeros left.length)) (.one k content)

end Blocks

/-- The events that a buffer's memory can hold while it answers for these blocks. -/
inductive Tells : List MemoryEvent → Blocks → Prop where
  | made (block length : Nat) : Tells [.pin block length true] (.one block (zeros length))
  | next {events : List MemoryEvent} {e : MemoryEvent} {b b' : Blocks} :
      Tells events b → b.Next events e b' → Tells (events ++ [e]) b'

section Next

variable {events : List MemoryEvent} {e : MemoryEvent} {b b' : Blocks}

theorem Blocks.Next.pinned (h : b.Next events e b') : e.pins b.pinned = b'.pinned := by
  cases h with
  | refused => rfl
  | granted => simp [MemoryEvent.pins, Blocks.pinned]
  | edited same => rw [Blocks.pinned, Blocks.pinned, same]; rfl
  | copied same => rw [Blocks.pinned, Blocks.pinned, same]; rfl
  | replaced => simp [MemoryEvent.pins, Blocks.pinned]

/-- Nothing is done to the other blocks. -/
theorem Blocks.Next.other (h : b.Next events e b') {target : Nat} (hother : e.block ≠ target) :
    b'.content? target = b.content? target := by
  cases h <;> simp_all [MemoryEvent.block, Blocks.content?]

/-- A block that is asked for has no past. -/
theorem history_fresh {block : Nat} (fresh : ∀ e ∈ events, e.block < block) :
    history block events = [] := by
  refine List.filter_eq_nil_iff.mpr fun e he => ?_
  have hbelow : e.block < block := fresh e he
  simp only [decide_eq_true_eq]
  omega

/-- The block that the event is about goes on. -/
theorem Blocks.Next.past (h : b.Next events e b')
    (hpast : Past e.block (history e.block events) (b.content? e.block)) :
    Past e.block (history e.block events ++ [e]) (b'.content? e.block) := by
  cases h with
  | @refused k content block length fresh =>
    change Past block (history block events) ((Blocks.one k content).content? block) at hpast
    change Past block (history block events ++ [pin block length false])
      ((Blocks.one k content).content? block)
    rw [history_fresh fresh] at hpast ⊢
    rw [hpast.unheard]
    exact .refused length
  | @granted k content block length fresh =>
    change Past block (history block events ++ [pin block length true])
      ((Blocks.two k content block (zeros length)).content? block)
    rw [history_fresh fresh, Blocks.content?_two]
    exact .pinned length [] (by simp)
  | @edited k content new same =>
    change Past k (history k events) ((Blocks.one k content).content? k) at hpast
    change Past k (history k events ++ [store k new]) ((Blocks.one k new).content? k)
    rw [Blocks.content?_one] at hpast ⊢
    exact hpast.stored same
  | @copied old k left content new same =>
    change Past k (history k events) ((Blocks.two old left k content).content? k) at hpast
    change Past k (history k events ++ [store k new]) ((Blocks.two old left k new).content? k)
    rw [Blocks.content?_two] at hpast ⊢
    exact hpast.stored same
  | @replaced old k left content apart =>
    change Past old (history old events) ((Blocks.two old left k content).content? old) at hpast
    change Past old (history old events ++ [unpin old (zeros left.length)])
      ((Blocks.one k content).content? old)
    rw [Blocks.content?_two_old apart] at hpast
    rw [Blocks.content?_one_other apart]
    exact hpast.released

end Next

namespace Tells

variable {events : List MemoryEvent} {b : Blocks}

theorem pinned (h : Tells events b) : Custody.pinned events = b.pinned := by
  induction h with
  | made block length => simp [Custody.pinned, MemoryEvent.pins, Blocks.pinned]
  | next _ hnext ih => rw [pinned_snoc, ih, hnext.pinned]

theorem past (h : Tells events b) (block : Nat) :
    Past block (history block events) (b.content? block) := by
  induction h with
  | made first length =>
    by_cases hblock : first = block
    · subst hblock
      have hsame : history first ([] ++ [pin first length true]) = [pin first length true] :=
        history_snoc_same rfl
      rw [List.nil_append] at hsame
      rw [hsame, Blocks.content?_one]
      exact .pinned length [] (by simp)
    · have hother : history block ([] ++ [pin first length true]) = [] := history_snoc_other hblock
      rw [List.nil_append] at hother
      rw [hother, Blocks.content?_one_other hblock]
      exact .unseen
  | @next events e b b' _ hnext ih =>
    by_cases hblock : e.block = block
    · subst hblock
      rw [history_snoc_same rfl]
      exact hnext.past ih
    · rw [history_snoc_other hblock, hnext.other hblock]
      exact ih

theorem heard (h : Tells events b) {block : Nat} {content : Bytes}
    (hcontent : b.content? block = some content) : ∃ e ∈ events, e.block = block := by
  have hpast := h.past block
  rw [hcontent] at hpast
  obtain ⟨e, he, hblock⟩ := hpast.heard
  exact ⟨e, List.mem_of_mem_filter he, hblock⟩

/-- The beginning of a record is the record of an earlier time. -/
theorem front {before after : List MemoryEvent} (h : Tells (before ++ after) b) (hsome : before ≠ []) :
    ∃ b', Tells before b' := by
  generalize hall : before ++ after = events at h
  induction h generalizing after with
  | made block length =>
    have hbefore : before = [pin block length true] := by
      rcases List.append_eq_singleton_iff.mp hall with ⟨hnone, -⟩ | ⟨hone, -⟩
      · exact absurd hnone hsome
      · exact hone
    subst hbefore
    exact ⟨_, .made block length⟩
  | @next events e b b' htells hnext ih =>
    rcases List.eq_nil_or_concat after with rfl | ⟨rest, last, rfl⟩
    · rw [List.append_nil] at hall
      exact ⟨b', hall ▸ htells.next hnext⟩
    · rw [List.concat_eq_append, ← List.append_assoc] at hall
      exact ih (List.append_inj' hall rfl).1

end Tells

end Custody

end ScreenLocker
