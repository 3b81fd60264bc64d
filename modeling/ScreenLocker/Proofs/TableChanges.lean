import ScreenLocker.Proofs.Dispatch
import ScreenLocker.Proofs.Run

/-! Changes of the table that handlers ask for. A pass makes those that take out before those that bring in,
so a descriptor that was brought in and taken out again in one pass stays. Requests of any other kind come to
what they would have come to one after another. -/

namespace ScreenLocker

namespace Multiplexer

open TableChange (added removed removed_register removed_deregister)

variable {H C : Type}

/-- Makes a change at once. -/
def apply (m : Multiplexer H) : TableChange H → Multiplexer H
  | .register source => m.register source
  | .deregister fd => m.deregister fd

/-- A descriptor is brought in, and a later change takes it out. -/
inductive TakesBack : List (TableChange H) → Prop where
  | here {s : Source H} {rest : List (TableChange H)} :
      .deregister s.fd ∈ rest → TakesBack (.register s :: rest)
  | later {change : TableChange H} {rest : List (TableChange H)} :
      TakesBack rest → TakesBack (change :: rest)

/-- The sources that are left of those that the changes bring in, one change after another. -/
def lasting : List (TableChange H) → List (Source H)
  | [] => []
  | .register s :: rest => if s.fd ∈ removed rest then lasting rest else s :: lasting rest
  | .deregister _ :: rest => lasting rest

/-- Those of the sources that have none of these descriptors. -/
def without (fds : List Int) (sources : List (Source H)) : List (Source H) :=
  sources.filter (!fds.contains ·.fd)

theorem mem_without {fds : List Int} {sources : List (Source H)} {s : Source H} :
    s ∈ without fds sources ↔ s ∈ sources ∧ s.fd ∉ fds := by
  simp [without]

@[simp] theorem without_nil (sources : List (Source H)) : without [] sources = sources := by
  apply List.filter_eq_self.mpr
  simp

@[simp] theorem without_cons (fd : Int) (fds : List Int) (sources : List (Source H)) :
    without (fd :: fds) sources = without fds (sources.filter (·.fd ≠ fd)) := by
  unfold without
  rw [List.filter_filter]
  apply List.filter_congr
  intro s _
  by_cases hfd : s.fd = fd <;> simp [hfd]

theorem without_append (fds : List Int) (first second : List (Source H)) :
    without fds (first ++ second) = without fds first ++ without fds second := List.filter_append _ _

theorem sources_foldl_deregister (fds : List Int) (m : Multiplexer H) :
    (fds.foldl (fun m fd => m.deregister fd) m).sources = without fds m.sources := by
  induction fds generalizing m with
  | nil => rw [List.foldl_nil, without_nil]
  | cons fd rest ih => rw [List.foldl_cons, ih, deregister, without_cons]

theorem settle_eq (m : Multiplexer H) :
    settle m = { sources := without m.pending.removed m.sources ++ m.pending.added } := by
  simp only [settle, sources_foldl_deregister]

theorem foldl_apply (changes : List (TableChange H)) (m : Multiplexer H) :
    changes.foldl apply m =
      { m with sources := without (removed changes) m.sources ++ lasting changes } := by
  induction changes generalizing m with
  | nil => simp [lasting]
  | cons change rest ih =>
    rw [List.foldl_cons, ih]
    cases change with
    | register s =>
      have hlast : without (removed rest) [s] ++ lasting rest = lasting (.register s :: rest) := by
        by_cases hback : s.fd ∈ removed rest <;> simp [without, lasting, hback]
      rw [apply, register, without_append, List.append_assoc, hlast, removed_register]
    | deregister fd => rw [apply, deregister, removed_deregister, without_cons, lasting]

theorem lasting_sublist (changes : List (TableChange H)) : (lasting changes).Sublist (added changes) := by
  induction changes with
  | nil => exact .slnil
  | cons change rest ih =>
    cases change with
    | deregister fd => exact ih
    | register s =>
      unfold lasting
      split
      · exact ih.trans (List.sublist_cons_self s _)
      · exact ih.cons_cons s

theorem lasting_eq_iff {changes : List (TableChange H)} :
    lasting changes = added changes ↔ ¬TakesBack changes := by
  induction changes with
  | nil => exact iff_of_true rfl nofun
  | cons change rest ih =>
    cases change with
    | deregister fd =>
      rw [lasting, TableChange.added_deregister, ih]
      constructor
      · intro hkept htaken
        cases htaken with
        | later htaken => exact hkept htaken
      · exact fun hkept htaken => hkept (.later htaken)
    | register s =>
      by_cases hback : s.fd ∈ removed rest
      · refine iff_of_false ?_ fun hkept => hkept (.here (TableChange.mem_removed.mp hback))
        intro heq
        have hlength := (lasting_sublist rest).length_le
        rw [lasting, if_pos hback, TableChange.added_register] at heq
        rw [heq, List.length_cons] at hlength
        omega
      · rw [lasting, if_neg hback, TableChange.added_register, List.cons.injEq, ih]
        constructor
        · rintro ⟨-, hkept⟩ htaken
          cases htaken with
          | here htaken => exact hback (TableChange.mem_removed.mpr htaken)
          | later htaken => exact hkept htaken
        · exact fun hkept => ⟨rfl, fun htaken => hkept (.later htaken)⟩

section Pass

variable {react : H → Readiness → Op C (Reaction H)} {m : Multiplexer H} {masks : List Readiness} {c : C}
  {turns : List (Turn H)} {r : Except Error Unit} {after : Multiplexer H × C}

/-- What is asked for in a pass, in order. -/
def requests (turns : List (Turn H)) : List (TableChange H) := turns.flatMap Turn.requests

theorem Pass.table_eq (h : Pass react m masks c turns r after) (hclear : m.pending = {}) :
    after.1 =
      { sources := without (removed (requests turns)) (turns.map Turn.left) ++ added (requests turns) } := by
  rw [h.table, settle_eq, hclear, Pending.foldl_request]
  rfl

/-- The table is as if the requests had been granted one after another, unless one takes back another. -/
theorem Pass.in_order_iff (h : Pass react m masks c turns r after) (hclear : m.pending = {}) :
    after.1 = (requests turns).foldl apply { sources := turns.map Turn.left } ↔
      ¬TakesBack (requests turns) := by
  rw [h.table_eq hclear, foldl_apply, ← lasting_eq_iff]
  simp [eq_comm]

theorem isRegistered_eq_false {fd : Int} :
    m.isRegistered fd = false ↔ ∀ s ∈ m.sources, s.fd ≠ fd := by
  simp [isRegistered]

theorem Turn.fd_left (t : Turn H) : t.left.fd = t.source.fd := by
  cases h : t.reaction <;> simp [left, h]

/-- A pass brings in no descriptor but those that are asked for. -/
theorem Pass.absent (h : Pass react m masks c turns r after) (hclear : m.pending = {}) {fd : Int}
    (hgone : m.isRegistered fd = false ∨ fd ∈ removed (requests turns))
    (hnone : ∀ s ∈ added (requests turns), s.fd ≠ fd) : after.1.isRegistered fd = false := by
  rw [isRegistered_eq_false, h.table_eq hclear]
  intro s hs
  rcases List.mem_append.mp hs with hkept | hnew
  · obtain ⟨hmem, hstays⟩ := mem_without.mp hkept
    obtain ⟨t, ht, rfl⟩ := List.mem_map.mp hmem
    intro hfd
    rcases hgone with hbefore | hgone
    · have hsource : t.source ∈ m.sources := h.sources ▸ List.mem_map_of_mem ht
      exact isRegistered_eq_false.mp hbefore t.source hsource (t.fd_left ▸ hfd)
    · exact hstays (hfd ▸ hgone)
  · exact hnone s hnew

end Pass

/-- What can be done with a table: changes at once, and waits. -/
inductive Event (H C : Type) where
  | register (source : Source H)
  | deregister (fd : Int)
  | wait (poll : List (Int × Readiness) → Op C PollAnswer)

def perform (react : H → Readiness → Op C (Reaction H)) :
    Event H C → Op (Multiplexer H × C) (Except Error Unit)
  | .register source => do
    modify fun (m, c) => (m.register source, c)
    pure (.ok ())
  | .deregister fd => do
    modify fun (m, c) => (m.deregister fd, c)
    pure (.ok ())
  | .wait poll => (runOnce poll react).run

abbrev Step (H C : Type) := Moment (Multiplexer H × C) (Event H C) (Except Error Unit)

/-- A descriptor is brought in, at once or by a request in a pass. -/
def Step.Brings (react : H → Readiness → Op C (Reaction H)) (fd : Int) (m : Step H C) : Prop :=
  ∃ s : Source H, s.fd = fd ∧
    (m.event = .register s ∨ ∃ poll masks c turns, m.event = .wait poll ∧
      Pass react m.before.1 masks c turns m.answer m.after ∧ .register s ∈ requests turns)

/-- A descriptor that is not in the table stays out of it until it is brought in. -/
theorem absent_perform {react : H → Readiness → Op C (Reaction H)} {fd : Int} {s : Multiplexer H × C}
    (e : Event H C) (hclear : s.1.pending = {}) (habsent : s.1.isRegistered fd = false)
    (hnot : ¬Step.Brings react fd (Run.moment (perform react) s e)) :
    let m : Step H C := Run.moment (perform react) s e
    m.after.1.pending = {} ∧ m.after.1.isRegistered fd = false := by
  intro m
  obtain ⟨table, c⟩ := s
  cases e with
  | register source =>
    refine ⟨hclear, ?_⟩
    have hother : source.fd ≠ fd := fun hfd => hnot ⟨source, hfd, .inl rfl⟩
    rw [isRegistered_eq_false] at habsent ⊢
    intro s hs
    rcases List.mem_append.mp hs with hold | hnew
    · exact habsent s hold
    · exact List.mem_singleton.mp hnew ▸ hother
  | deregister gone =>
    refine ⟨hclear, ?_⟩
    rw [isRegistered_eq_false] at habsent ⊢
    intro s hs
    exact habsent s (List.mem_filter.mp hs).1
  | wait poll =>
    have hafter : m.after = (tried (runOnce poll react) (table, c)).2 := rfl
    rcases hpoll : outcome (poll table.entries) c with ⟨errno | masks, c'⟩
    · rw [hafter, runOnce_failed react hpoll]
      exact ⟨hclear, habsent⟩
    · obtain ⟨turns, hpass⟩ := runOnce_passed react hpoll
      refine ⟨by rw [hafter, hpass.table_eq hclear], ?_⟩
      refine hpass.absent hclear (.inl habsent) fun s hs hfd => hnot ⟨s, hfd, .inr ?_⟩
      exact ⟨poll, masks, c', turns, rfl, hpass, TableChange.mem_added.mp hs⟩

/-- What the requests of a pass come to. The table has those of its sources that were not to go, with their
handlers as the pass left them, and behind them all that was to come, in order. It is what the requests make of
it one after another just if none takes back another. A descriptor that was to go, and not to come, is out of
the table from then on until it is brought in again. -/
theorem requests_of_a_pass (sources : List (Source H)) {poll : List (Int × Readiness) → Op C PollAnswer}
    (react : H → Readiness → Op C (Reaction H)) {c c' : C} {masks : List Readiness}
    (h : outcome (poll (entries { sources })) c = (.ok masks, c')) :
    let m : Multiplexer H := { sources }
    let waited := tried (runOnce poll react) (m, c)
    ∃ turns, Pass react m masks c' turns waited.1 waited.2 ∧
      waited.2.1.sources = without (removed (requests turns)) (turns.map Turn.left) ++ added (requests turns) ∧
      (waited.2.1 = (requests turns).foldl apply { sources := turns.map Turn.left } ↔
        ¬TakesBack (requests turns)) ∧
      ∀ fd ∈ removed (requests turns), (∀ s ∈ added (requests turns), s.fd ≠ fd) →
        ∀ (es : List (Event H C)) before later after,
          Run.moments (perform react) es waited.2 = before ++ later :: after →
          (∀ u ∈ before, ¬Step.Brings react fd u) → later.before.1.isRegistered fd = false := by
  intro m waited
  obtain ⟨turns, hpass⟩ := runOnce_passed react h
  refine ⟨turns, hpass, by rw [hpass.table_eq rfl], hpass.in_order_iff rfl, ?_⟩
  intro fd hgone hnone es before later after hsplit hnot
  let P : List (Step H C) → Multiplexer H × C → Prop := fun _ s =>
    s.1.pending = {} ∧ s.1.isRegistered fd = false
  have hnext : ∀ ms s e, P ms s → ¬Step.Brings react fd (Run.moment (perform react) s e) →
      P (ms ++ [Run.moment (perform react) s e]) (Run.moment (perform react) s e).after :=
    fun _ _ e h hquiet => absent_perform e h.1 h.2 hquiet
  have hstart : P [] waited.2 :=
    ⟨by rw [hpass.table_eq rfl], hpass.absent rfl (.inr hgone) hnone⟩
  obtain ⟨⟨-, habsent⟩, -⟩ := Run.holds_before_of_kind hnext hstart hsplit hnot
  exact habsent

/-- The handler of the first source takes out the second and brings in a third. After the first has been taken
out as well, the second is still out. -/
theorem out_until_brought_in :
    let sources : List (Source Nat) := [⟨3, .readable, 1⟩, ⟨5, .readable, 2⟩]
    let react : Nat → Readiness → Op Unit (Reaction Nat) := fun h _ =>
      pure { handler := h + 10, changes := [.deregister 5, .register ⟨6, .readable, 3⟩] }
    let poll : List (Int × Readiness) → Op Unit PollAnswer := fun _ => pure (.ok [.readable])
    let waited := tried (runOnce poll react) ({ sources }, ())
    let freed : Step Nat Unit := Run.moment (perform react) waited.2 (.deregister 3)
    outcome (poll (entries { sources })) () = (.ok [.readable], ()) ∧
      waited.2.1.sources = [⟨3, .readable, 11⟩, ⟨6, .readable, 3⟩] ∧
      freed.after.1.isRegistered 5 = false := by
  intro sources react poll waited freed
  have hpoll : outcome (poll (entries { sources })) () = (.ok [.readable], ()) := rfl
  have hout : ∀ s ∈ waited.2.1.sources, s.fd ≠ 5 := isRegistered_eq_false.mp rfl
  obtain ⟨turns, hpass, hafter, -, hstays⟩ := requests_of_a_pass sources react hpoll
  change waited.2.1.sources = _ at hafter
  rw [hafter] at hout
  have hgone : 5 ∈ removed (requests turns) := by
    have hsource : (⟨5, .readable, 2⟩ : Source Nat) ∈ turns.map Turn.source := by
      rw [hpass.sources]
      exact List.mem_cons_of_mem _ List.mem_cons_self
    obtain ⟨t, ht, hfive⟩ := List.mem_map.mp hsource
    have hfd : t.left.fd = 5 := by rw [t.fd_left, hfive]
    apply Decidable.byContradiction
    intro hkept
    refine hout t.left (List.mem_append_left _ (mem_without.mpr ⟨List.mem_map_of_mem ht, ?_⟩)) hfd
    exact hfd ▸ hkept
  have hnone : ∀ s ∈ added (requests turns), s.fd ≠ 5 :=
    fun s hs => hout s (List.mem_append_right _ hs)
  have hquiet : ∀ u ∈ [freed], ¬Step.Brings react 5 u := by
    intro u hu
    rw [List.mem_singleton.mp hu]
    rintro ⟨s, -, hevent | ⟨_, _, _, _, hevent, -⟩⟩ <;> simp [freed, Run.moment] at hevent
  let later : Step Nat Unit := Run.moment (perform react) freed.after (.wait poll)
  exact ⟨hpoll, rfl, hstays 5 hgone hnone [.deregister 3, .wait poll] [freed] later [] rfl hquiet⟩

/-- A handler brings in a descriptor and takes it out again. It is in the table all the same, and its handler
runs in the next pass. -/
theorem stays_though_taken_back :
    let changes : List (TableChange Nat) := [.register ⟨7, .readable, 2⟩, .deregister 7]
    let react : Nat → Readiness → Op (List Nat) (Reaction Nat) := fun h _ => do
      modify (· ++ [h])
      pure { handler := h, changes := if h = 1 then changes else [] }
    let m : Multiplexer Nat := { sources := [⟨3, .readable, 1⟩] }
    let waited := tried (runOnce (fun _ => pure (.ok [.readable])) react) (m, [])
    let again := tried (runOnce (fun _ => pure (.ok [.none, .readable])) react) waited.2
    waited = (.ok (), { sources := [⟨3, .readable, 1⟩, ⟨7, .readable, 2⟩] }, [1]) ∧
      changes.foldl apply m = { sources := [⟨3, .readable, 1⟩] } ∧ again.2.2 = [1, 2] :=
  ⟨rfl, rfl, rfl⟩

end Multiplexer

end ScreenLocker
