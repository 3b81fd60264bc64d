import ScreenLocker.Proofs.Frame

/-! Streams that move blocks in pieces. If each call moves something or is interrupted, a block goes out
whole, and as much of a block comes in as there is, however the calls cut it. -/

namespace ScreenLocker

/-- A call that moves something, or that is to be repeated. -/
def Move.Harmless : Move → Prop
  | upTo n => 0 < n
  | fail f => f.isInterrupted = true

instance (m : Move) : Decidable m.Harmless :=
  match m with
  | .upTo n => inferInstanceAs (Decidable (0 < n))
  | .fail f => inferInstanceAs (Decidable (f.isInterrupted = true))

def Harmless (script : List Move) : Prop := ∀ move ∈ script, move.Harmless

instance (script : List Move) : Decidable (Harmless script) :=
  inferInstanceAs (Decidable (∀ _ ∈ _, _))

theorem Harmless.rest {move : Move} {rest : List Move} (h : Harmless (move :: rest)) :
    move.Harmless ∧ Harmless rest :=
  List.forall_mem_cons.mp h

namespace InStream

theorem takeExactly_harmless {script : List Move} (h : Harmless script) (pending : Bytes) (want : Nat) :
    let taken := takeExactly script pending want
    taken.bytes = pending.take want ∧
      taken.fault = (if pending.length < want then some .shortRead else none) ∧
      Harmless taken.script := by
  induction script generalizing pending want with
  | nil =>
    cases want with
    | zero => simp [takeExactly, Harmless]
    | succ want => exact ⟨rfl, rfl, h⟩
  | cons move rest ih =>
    obtain ⟨hmove, hrest⟩ := h.rest
    cases want with
    | zero => simpa [takeExactly] using h
    | succ want =>
      cases move with
      | fail f =>
        have hint : f.isInterrupted = true := hmove
        simp only [takeExactly, hint, if_true]
        exact ih hrest pending (want + 1)
      | upTo n =>
        have hn : 0 < n := hmove
        let got := pending.take (Nat.min n (want + 1))
        have hgot : got = pending.take (Nat.min n (want + 1)) := rfl
        have hlength : got.length = min (min n (want + 1)) pending.length := List.length_take
        have hfront : got = pending.take got.length := by
          rw [hlength, hgot, List.take_eq_take_min]
        simp only [takeExactly, ← hgot]
        by_cases hempty : got.isEmpty = true
        · -- Nothing came although something was asked for, so nothing is left.
          have hnone : got.length = 0 := by rw [List.isEmpty_iff.mp hempty]; rfl
          have hpending : pending = [] := List.eq_nil_of_length_eq_zero (by omega)
          subst hpending
          rw [if_pos hempty]
          exact ⟨rfl, rfl, hrest⟩
        · rw [if_neg hempty]
          obtain ⟨hbytes, hfault, hscript⟩ :=
            ih hrest (pending.drop got.length) (want + 1 - got.length)
          refine ⟨?_, ?_, hscript⟩
          · calc got ++ (takeExactly rest _ _).bytes
                = pending.take got.length ++ (pending.drop got.length).take (want + 1 - got.length) := by
                  rw [hbytes, ← hfront]
              _ = pending.take (got.length + (want + 1 - got.length)) := List.take_add.symm
              _ = pending.take (want + 1) := by rw [Nat.add_sub_cancel' (by omega)]
          · dsimp only
            rw [hfault, List.length_drop]
            congr 1
            simp only [eq_iff_iff]
            omega

/-- A block comes in whole if it is there, and else as much of it as is. -/
theorem readExactly_harmless {s : InStream} (h : Harmless s.script) (want : Nat) :
    ∃ script, Harmless script ∧ readExactly want s =
      ((s.pending.take want, if s.pending.length < want then some .shortRead else none),
        ⟨s.pending.drop want, script, s.consumed + min want s.pending.length⟩) := by
  obtain ⟨hbytes, hfault, hscript⟩ := takeExactly_harmless h s.pending want
  refine ⟨_, hscript, ?_⟩
  have hrest : s.pending.drop (min want s.pending.length) = s.pending.drop want := by
    rcases Nat.le_total want s.pending.length with hle | hge
    · rw [Nat.min_eq_left hle]
    · rw [Nat.min_eq_right hge, List.drop_length, List.drop_eq_nil_of_le hge]
  simp only [readExactly, hbytes, hfault, List.length_take, hrest]

theorem readExactly_there {s : InStream} (h : Harmless s.script) {block rest : Bytes}
    (hpending : s.pending = block ++ rest) :
    ∃ script, Harmless script ∧ readExactly block.length s =
      ((block, none), ⟨rest, script, s.consumed + block.length⟩) := by
  obtain ⟨script, hscript, hread⟩ := readExactly_harmless h block.length
  have hthere : ¬(block ++ rest).length < block.length := by
    rw [List.length_append]
    omega
  refine ⟨script, hscript, ?_⟩
  rw [hread, hpending, if_neg hthere, List.take_left, List.drop_left,
    Nat.min_eq_left (Nat.not_lt.mp hthere)]

theorem readExactly_short {s : InStream} (h : Harmless s.script) {want : Nat}
    (hshort : s.pending.length < want) :
    ∃ script, Harmless script ∧ readExactly want s =
      ((s.pending, some .shortRead), ⟨[], script, s.consumed + s.pending.length⟩) := by
  obtain ⟨script, hscript, hread⟩ := readExactly_harmless h want
  refine ⟨script, hscript, ?_⟩
  rw [hread, if_pos hshort, List.take_of_length_le (Nat.le_of_lt hshort),
    List.drop_eq_nil_of_le (Nat.le_of_lt hshort), Nat.min_eq_right (Nat.le_of_lt hshort)]

end InStream

namespace OutStream

/-- Each call does no harm, and each flush goes through. -/
structure Reliable (s : OutStream) : Prop where
  script : Harmless s.script
  flushes : ∀ fault ∈ s.flushes, fault = none

theorem reliable {script : List Move} (h : Harmless script) : Reliable { script } := ⟨h, by simp⟩

theorem giveAll_harmless {script : List Move} (h : Harmless script) (block : Bytes) :
    let given := giveAll script block
    given.bytes = block ∧ given.fault = none ∧ Harmless given.script := by
  induction script generalizing block with
  | nil =>
    cases block with
    | nil => exact ⟨rfl, rfl, h⟩
    | cons b rest => exact ⟨rfl, rfl, h⟩
  | cons move rest ih =>
    obtain ⟨hmove, hrest⟩ := h.rest
    cases block with
    | nil => exact ⟨rfl, rfl, h⟩
    | cons b bytes =>
      cases move with
      | fail f =>
        have hint : f.isInterrupted = true := hmove
        simp only [giveAll, hint, if_true]
        exact ih hrest (b :: bytes)
      | upTo n =>
        cases n with
        | zero => exact absurd hmove (Nat.lt_irrefl 0)
        | succ n =>
          obtain ⟨hbytes, hfault, hscript⟩ := ih hrest ((b :: bytes).drop (n + 1))
          refine ⟨?_, hfault, hscript⟩
          change (b :: bytes).take (n + 1) ++ (giveAll rest ((b :: bytes).drop (n + 1))).bytes = _
          rw [hbytes, List.take_append_drop]

/-- One call moves some of two blocks, and nothing but their beginning. -/
theorem giveBoth_harmless {script : List Move} (h : Harmless script) {first : Bytes}
    (hsome : first ≠ []) (second : Bytes) :
    let given := giveBoth script first second
    given.bytes <+: first ++ second ∧ given.fault = none ∧ Harmless given.script := by
  induction script with
  | nil => exact ⟨List.prefix_refl _, rfl, h⟩
  | cons move rest ih =>
    obtain ⟨hmove, hrest⟩ := h.rest
    cases move with
    | fail f =>
      have hint : f.isInterrupted = true := hmove
      simp only [giveBoth, hint, if_true]
      exact ih hrest
    | upTo n =>
      have hn : n ≠ 0 := Nat.ne_of_gt hmove
      have hmoved : ((first ++ second).take n).isEmpty = false := by
        rw [List.isEmpty_eq_false_iff]
        simp [hn, hsome]
      refine ⟨List.take_prefix _ _, ?_, hrest⟩
      simp [giveBoth, hmoved]

theorem writeAll_reliable {s : OutStream} (h : s.Reliable) (block : Bytes) :
    ∃ s', writeAll block s = (none, s') ∧ s'.written = s.written ++ block ∧ s'.Reliable := by
  obtain ⟨hbytes, hfault, hscript⟩ := giveAll_harmless h.script block
  refine ⟨s.absorb (giveAll s.script block), ?_, ?_, hscript, h.flushes⟩
  · rw [writeAll, hfault]
  · rw [absorb, hbytes]

theorem writeBoth_reliable {s : OutStream} (h : s.Reliable) {first : Bytes}
    (hsome : first ≠ []) (second : Bytes) :
    ∃ moved rest s', writeBoth first second s = (.ok moved.length, s') ∧
      first ++ second = moved ++ rest ∧ s'.written = s.written ++ moved ∧ s'.Reliable := by
  obtain ⟨⟨rest, hsplit⟩, hfault, hscript⟩ := giveBoth_harmless h.script hsome second
  refine ⟨_, rest, s.absorb (giveBoth s.script first second), ?_, hsplit.symm, rfl, hscript,
    h.flushes⟩
  rw [writeBoth, hfault]

theorem flush_reliable {s : OutStream} (h : s.Reliable) :
    ∃ s', flush s = (none, s') ∧ s'.written = s.written ∧ s'.Reliable := by
  refine ⟨(flush s).2, Prod.ext ?_ rfl, rfl, h.script, fun fault hfault => ?_⟩
  · change s.flushes.headD none = none
    cases hflushes : s.flushes with
    | nil => rfl
    | cons fault rest => exact h.flushes fault (hflushes ▸ List.mem_cons_self)
  · exact h.flushes fault (List.mem_of_mem_tail hfault)

end OutStream

namespace Frame

/-- What one call leaves of header and credential is written after it, wherever the call stopped. -/
theorem write_reliable {credential : Bytes} (hfit : credential.length < UInt32.size) {s : OutStream}
    (h : s.Reliable) :
    ∃ s', tried (write credential) s = (.ok (), s') ∧ s'.written = s.written ++ encode credential ∧
      s'.Reliable := by
  have hlarge : ¬ UInt32.size ≤ credential.length := by omega
  have hheader : header credential ≠ [] := by
    intro hnil
    have hlength := length_header credential
    simp [hnil, headerLength] at hlength
  obtain ⟨moved, rest, s₁, hfirst, hsplit, hwritten, h₁⟩ :=
    OutStream.writeBoth_reliable h hheader credential
  have hmoved : moved = (header credential).take moved.length ++
      credential.take (moved.length - (header credential).length) := by
    rw [← List.take_append, hsplit, List.take_left]
  by_cases hcut : moved.length < (header credential).length
  · obtain ⟨s₂, hhead, hwritten₂, h₂⟩ :=
      OutStream.writeAll_reliable h₁ ((header credential).drop moved.length)
    obtain ⟨s₃, hbody, hwritten₃, h₃⟩ := OutStream.writeAll_reliable h₂ credential
    obtain ⟨s₄, hflush, hwritten₄, h₄⟩ := OutStream.flush_reliable h₃
    refine ⟨s₄, by simp [write, hlarge, hfirst, hcut, hhead, hbody, hflush], ?_, h₄⟩
    have hpart : moved = (header credential).take moved.length := by
      rw [Nat.sub_eq_zero_of_le (Nat.le_of_lt hcut), List.take_zero, List.append_nil] at hmoved
      exact hmoved
    calc s₄.written
        = s.written ++ (moved ++ (header credential).drop moved.length) ++ credential := by
          rw [hwritten₄, hwritten₃, hwritten₂, hwritten, List.append_assoc s.written]
      _ = s.written ++ header credential ++ credential := by
          rw [hpart, List.length_take, Nat.min_eq_left (Nat.le_of_lt hcut), List.take_append_drop]
      _ = s.written ++ encode credential := by rw [encode, List.append_assoc]
  · obtain ⟨s₂, hbody, hwritten₂, h₂⟩ := OutStream.writeAll_reliable h₁
      (credential.drop (moved.length - (header credential).length))
    obtain ⟨s₃, hflush, hwritten₃, h₃⟩ := OutStream.flush_reliable h₂
    refine ⟨s₃, by simp [write, hlarge, hfirst, hcut, hbody, hflush], ?_, h₃⟩
    have hpart : moved = header credential ++
        credential.take (moved.length - (header credential).length) := by
      rw [List.take_of_length_le (Nat.not_lt.mp hcut)] at hmoved
      exact hmoved
    generalize moved.length - (header credential).length = n at *
    calc s₃.written
        = s.written ++ (moved ++ credential.drop n) := by
          rw [hwritten₃, hwritten₂, hwritten, List.append_assoc]
      _ = s.written ++ encode credential := by
          rw [hpart, List.append_assoc, List.take_append_drop, encode]

end Frame

end ScreenLocker
