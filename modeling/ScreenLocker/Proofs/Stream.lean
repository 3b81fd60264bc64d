import ScreenLocker.Stream

/-! Whole blocks over streams that may move them in pieces: a block that arrived without a fault is
the front of what was pending, however it was cut up. -/

namespace ScreenLocker

namespace InStream

theorem takeExactly_whole {script : List Move} {pending : Bytes} {want : Nat}
    (h : (takeExactly script pending want).fault = none) :
    (takeExactly script pending want).bytes = pending.take want ∧ want ≤ pending.length := by
  induction script generalizing pending want with
  | nil =>
    cases want with
    | zero => simp [takeExactly]
    | succ want =>
      by_cases hshort : pending.length < want + 1
      · simp [takeExactly, hshort] at h
      · exact ⟨rfl, by omega⟩
  | cons move rest ih =>
    cases want with
    | zero => simp [takeExactly]
    | succ want =>
      cases move with
      | fail f =>
        by_cases hint : f.isInterrupted
        · simp only [takeExactly, hint, if_true] at h ⊢
          exact ih h
        · simp [takeExactly, hint] at h
      | upTo n =>
        simp only [takeExactly] at h ⊢
        generalize hk : Nat.min n (want + 1) = k at h ⊢
        have hk' : k ≤ want + 1 := hk ▸ Nat.min_le_right n (want + 1)
        split at h
        · simp at h
        · next hgot =>
          rw [if_neg hgot]
          obtain ⟨hmore, hlen⟩ := ih h
          have hpiece : (pending.take k).length = min k pending.length := List.length_take
          have hfront : pending.take k = pending.take (pending.take k).length := by
            rw [hpiece, List.take_eq_take_min]
          rw [List.length_drop] at hlen
          refine ⟨?_, by omega⟩
          calc pending.take k ++ (takeExactly rest _ _).bytes
              = pending.take (pending.take k).length ++ _ := by rw [← hfront, hmore]
            _ = pending.take ((pending.take k).length + (want + 1 - (pending.take k).length)) :=
              List.take_add.symm
            _ = pending.take (want + 1) := by rw [Nat.add_sub_cancel' (by omega)]

theorem readExactly_whole {want : Nat} {s s' : InStream} {bytes : Bytes}
    (h : readExactly want s = ((bytes, none), s')) :
    s.pending = bytes ++ s'.pending ∧ bytes.length = want := by
  obtain ⟨hb, hs⟩ := Prod.mk.inj h
  obtain ⟨rfl, hfault⟩ := Prod.mk.inj hb
  obtain ⟨hbytes, hlen⟩ := takeExactly_whole hfault
  subst hs
  rw [hbytes]
  simp [hlen]

/-- Where nothing holds the calls back, a block arrives if there are bytes enough for it. -/
theorem readExactly_free {want : Nat} {pending : Bytes} (h : want ≤ pending.length) (n : Nat) :
    readExactly want ⟨pending, [], n⟩ =
      ((pending.take want, none), ⟨pending.drop want, [], n + want⟩) := by
  have htaken : takeExactly [] pending want = ⟨pending.take want, none, []⟩ := by
    cases want with
    | zero => simp [takeExactly]
    | succ want => simp [takeExactly, Nat.not_lt.mpr h]
  simp [readExactly, htaken, Nat.min_eq_left h]

/-- What follows a block changes nothing about it. -/
theorem readExactly_more {want n : Nat} {pending bytes : Bytes} {s' : InStream}
    (h : readExactly want ⟨pending, [], n⟩ = ((bytes, none), s')) (more : Bytes) (m : Nat) :
    ∃ k k', s' = ⟨pending.drop want, [], k⟩ ∧
      readExactly want ⟨pending ++ more, [], m⟩ =
        ((bytes, none), ⟨pending.drop want ++ more, [], k'⟩) := by
  have henough : want ≤ pending.length := by
    obtain ⟨hfront, hlength⟩ := readExactly_whole h
    have hfront : pending = bytes ++ s'.pending := hfront
    rw [hfront, List.length_append]
    omega
  have hmore : want ≤ (pending ++ more).length := by
    rw [List.length_append]
    omega
  rw [readExactly_free henough] at h
  obtain ⟨hblock, rfl⟩ := Prod.mk.inj h
  obtain ⟨rfl, -⟩ := Prod.mk.inj hblock
  refine ⟨_, m + want, rfl, ?_⟩
  rw [readExactly_free hmore, List.take_append_of_le_length henough,
    List.drop_append_of_le_length henough]

end InStream

/-- Nothing holds the calls on the stream back. -/
def OutStream.Free (s : OutStream) : Prop := s.script = [] ∧ s.flushes = []

end ScreenLocker
