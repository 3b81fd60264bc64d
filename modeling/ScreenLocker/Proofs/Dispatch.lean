import ScreenLocker.Poll.Multiplexer
import ScreenLocker.Proofs.Op

/-! One pass over the table. The pass is kept as its turns, one for each source in the order of the table,
with what was reported of the source and what came of its handler if that ran. Whether it ran can be told
from the turns before it. -/

namespace ScreenLocker

namespace Readiness

theorem intersects_or (a b c : Readiness) :
    a.intersects (b ||| c) = (a.intersects b || a.intersects c) := by
  have hmask : ∀ x y : Readiness, x.intersects y = decide (x.mask &&& y.mask ≠ 0#16) := by
    intro x y
    have heq : x &&& y = none ↔ x.mask &&& y.mask = 0#16 := by
      change Readiness.mk (x.mask &&& y.mask) = ⟨0⟩ ↔ _
      rw [mk.injEq]
      rfl
    simp [intersects, heq]
  have hor : (b ||| c).mask = b.mask ||| c.mask := rfl
  rw [hmask, hmask, hmask, hor, BitVec.and_or_distrib_left]
  by_cases hb : a.mask &&& b.mask = 0#16 <;> simp [BitVec.or_eq_zero_iff, hb]

end Readiness

namespace TableChange

variable {H : Type}

/-- The sources that changes bring in, in order. -/
def added (changes : List (TableChange H)) : List (Source H) :=
  changes.filterMap fun
    | register s => some s
    | deregister _ => none

/-- The descriptors that changes take out, in order. -/
def removed (changes : List (TableChange H)) : List Int :=
  changes.filterMap fun
    | register _ => none
    | deregister fd => some fd

variable (s : Source H) (fd : Int) (rest : List (TableChange H))

@[simp] theorem added_nil : added ([] : List (TableChange H)) = [] := rfl

@[simp] theorem added_register : added (register s :: rest) = s :: added rest := rfl

@[simp] theorem added_deregister : added (deregister fd :: rest) = added rest := rfl

@[simp] theorem removed_nil : removed ([] : List (TableChange H)) = [] := rfl

@[simp] theorem removed_register : removed (register s :: rest) = removed rest := rfl

@[simp] theorem removed_deregister : removed (deregister fd :: rest) = fd :: removed rest := rfl

theorem mem_added {s : Source H} {changes : List (TableChange H)} :
    s ∈ added changes ↔ register s ∈ changes := by
  induction changes with
  | nil => simp
  | cons change rest ih => cases change <;> simp [ih]

theorem mem_removed {fd : Int} {changes : List (TableChange H)} :
    fd ∈ removed changes ↔ deregister fd ∈ changes := by
  induction changes with
  | nil => simp
  | cons change rest ih => cases change <;> simp [ih]

end TableChange

/-- Requests are kept in order, those to come apart from those to go. -/
theorem Pending.foldl_request {H : Type} (changes : List (TableChange H)) (p : Pending H) :
    changes.foldl Pending.request p =
      ⟨p.added ++ TableChange.added changes, p.removed ++ TableChange.removed changes⟩ := by
  induction changes generalizing p with
  | nil => simp
  | cons change rest ih =>
    rw [List.foldl_cons, ih]
    cases change <;> simp [request]

namespace Multiplexer

variable {H C : Type}

/-- A source in one pass. -/
structure Turn (H : Type) where
  source : Source H
  reported : Readiness
  /-- What came of the handler, if it ran. -/
  reaction : Option (Reaction H) := none

namespace Turn

/-- There is something for the handler: a condition that it waits for, or one that is always reported. -/
def Ready (t : Turn H) : Prop := t.reported.intersects t.source.interest ∨ t.reported.isHangup

def requests (t : Turn H) : List (TableChange H) := t.reaction.elim [] (·.changes)

def error? (t : Turn H) : Option Error :=
  t.reaction.bind fun r => match r.result with
    | .ok () => none
    | .error e => some e

/-- The source as the turn leaves it. -/
def left (t : Turn H) : Source H :=
  t.reaction.elim t.source fun r => { t.source with handler := r.handler }

/-- The turn gives no reason to pass over a descriptor. -/
def Spares (fd : Int) (t : Turn H) : Prop := t.error? = none ∧ .deregister fd ∉ t.requests

end Turn

/-- Handlers run one after another, each on the context that the one before it left. -/
inductive Ran (react : H → Readiness → Op C (Reaction H)) : C → List (Turn H) → C → Prop where
  | done (c : C) : Ran react c [] c
  | skipped (s : Source H) (reported : Readiness) {turns : List (Turn H)} {c c' : C} :
      Ran react c turns c' → Ran react c (⟨s, reported, none⟩ :: turns) c'
  | ran {s : Source H} {reported : Readiness} {r : Reaction H} {turns : List (Turn H)} {c c₁ c' : C} :
      outcome (react s.handler reported) c = (r, c₁) → Ran react c₁ turns c' →
      Ran react c (⟨s, reported, some r⟩ :: turns) c'

/-- The error of the first handler that failed. -/
def firstError (turns : List (Turn H)) : Except Error Unit :=
  (turns.findSome? Turn.error?).elim (.ok ()) .error

theorem wanted_iff {s : Source H} {reported : Readiness} {p : Pending H} :
    wanted s reported p = true ↔ (⟨s, reported, none⟩ : Turn H).Ready ∧ s.fd ∉ p.removed := by
  simp [wanted, Readiness.intersects_or, Turn.Ready, Readiness.isHangup]

theorem ran_skipped (react : H → Readiness → Op C (Reaction H)) (c : C)
    (rest : List (Source H × Readiness)) :
    Ran react c (rest.map fun (s, reported) => ⟨s, reported, none⟩) c := by
  induction rest with
  | nil => exact .done c
  | cons entry rest ih => exact .skipped entry.1 entry.2 ih

/-- A handler runs just if there is something for it, nobody has asked for its descriptor to go, neither
before the pass nor in it, and no handler has failed. -/
def Heeding (removed : List Int) (turns : List (Turn H)) : Prop :=
  ∀ before t rest, turns = before ++ t :: rest →
    (t.reaction.isSome ↔ t.Ready ∧ t.source.fd ∉ removed ∧ ∀ u ∈ before, u.Spares t.source.fd)

theorem Heeding.cons {removed : List Int} {t : Turn H} {turns : List (Turn H)}
    (hfirst : t.reaction.isSome ↔ t.Ready ∧ t.source.fd ∉ removed)
    (hrest : ∀ before u rest, turns = before ++ u :: rest → (u.reaction.isSome ↔
      u.Ready ∧ u.source.fd ∉ removed ∧ t.Spares u.source.fd ∧ ∀ v ∈ before, v.Spares u.source.fd)) :
    Heeding removed (t :: turns) := by
  intro before u rest hsplit
  cases before with
  | nil =>
    obtain ⟨rfl, -⟩ := List.cons.inj hsplit
    simpa using hfirst
  | cons t' before =>
    obtain ⟨rfl, htail⟩ := List.cons.inj hsplit
    rw [List.forall_mem_cons]
    exact hrest before u rest htail

/-- What a pass over some entries comes to, when requests were made before it. -/
structure Passed (react : H → Readiness → Op C (Reaction H)) (entries : List (Source H × Readiness))
    (p : Pending H) (c : C) (turns : List (Turn H))
    (after : (List (Source H) × Pending H × Except Error Unit) × C) : Prop where
  ran : Ran react c turns after.2
  entries : turns.map (fun t => (t.source, t.reported)) = entries
  heeding : Heeding p.removed turns
  sources : after.1.1 = turns.map Turn.left
  pending : after.1.2.1 = (turns.flatMap Turn.requests).foldl Pending.request p
  result : after.1.2.2 = firstError turns

section Cons

variable {react : H → Readiness → Op C (Reaction H)} {entries : List (Source H × Readiness)}
  {p : Pending H} {c c₁ : C} {t : Turn H}
  (hran : ∀ {turns : List (Turn H)} {c' : C}, Ran react c₁ turns c' → Ran react c (t :: turns) c')
  (hfirst : t.reaction.isSome ↔ t.Ready ∧ t.source.fd ∉ p.removed)

include hran hfirst

/-- A turn that does not fail, and the rest of the pass with what is pending after it. -/
theorem Passed.cons {turns : List (Turn H)}
    {after : (List (Source H) × Pending H × Except Error Unit) × C} (hgood : t.error? = none)
    (h : Passed react entries (t.requests.foldl Pending.request p) c₁ turns after) :
    Passed react ((t.source, t.reported) :: entries) p c (t :: turns)
      ((t.left :: after.1.1, after.1.2), after.2) where
  ran := hran h.ran
  entries := by rw [List.map_cons, h.entries]
  heeding := by
    refine .cons hfirst fun before u rest hsplit => ?_
    rw [h.heeding before u rest hsplit, Pending.foldl_request]
    simp only [List.mem_append, not_or, TableChange.mem_removed, Turn.Spares, hgood, true_and, and_assoc]
  sources := by rw [List.map_cons, ← h.sources]
  pending := by
    rw [List.flatMap_cons, List.foldl_append]
    exact h.pending
  result := by
    simp only [firstError, List.findSome?_cons, hgood]
    exact h.result

/-- A turn that fails ends the pass: those that follow keep their handlers. -/
theorem Passed.failed {e : Error} (hbad : t.error? = some e) :
    Passed react ((t.source, t.reported) :: entries) p c
      (t :: entries.map fun (s, reported) => ⟨s, reported, none⟩)
      ((t.left :: entries.map Prod.fst, t.requests.foldl Pending.request p, .error e), c₁) where
  ran := hran (ran_skipped react c₁ entries)
  entries := by simp [Function.comp_def]
  heeding := by
    refine .cons hfirst fun before u rest hsplit => ?_
    have hskipped : u.reaction = none := by
      have hmem : u ∈ before ++ u :: rest := List.mem_append_right _ List.mem_cons_self
      rw [← hsplit] at hmem
      obtain ⟨entry, -, rfl⟩ := List.mem_map.mp hmem
      rfl
    simp [hskipped, Turn.Spares, hbad]
  sources := by simp [Turn.left]
  pending := by
    have hnone : (entries.map fun (s, reported) => (⟨s, reported, none⟩ : Turn H)).flatMap
        Turn.requests = [] := by
      simp [List.flatMap_map, Turn.requests]
    rw [List.flatMap_cons, hnone, List.append_nil]
  result := by simp [firstError, hbad]

end Cons

theorem dispatch_passed (react : H → Readiness → Op C (Reaction H))
    (entries : List (Source H × Readiness)) (p : Pending H) (c : C) :
    ∃ turns, Passed react entries p c turns (outcome (dispatch react entries p) c) := by
  induction entries generalizing p c with
  | nil => exact ⟨[], .done c, rfl, by simp [Heeding], rfl, rfl, rfl⟩
  | cons entry rest ih =>
    obtain ⟨s, reported⟩ := entry
    by_cases hwanted : wanted s reported p = true
    · rcases hreact : outcome (react s.handler reported) c with ⟨r, c₁⟩
      let t : Turn H := ⟨s, reported, some r⟩
      have hfirst : t.reaction.isSome ↔ t.Ready ∧ t.source.fd ∉ p.removed :=
        iff_of_true rfl (wanted_iff.mp hwanted)
      have hran : ∀ {turns c'}, Ran react c₁ turns c' → Ran react c (t :: turns) c' := .ran hreact
      cases hresult : r.result with
      | error e =>
        have hbad : t.error? = some e := by simp [t, Turn.error?, hresult]
        have hafter : outcome (dispatch react ((s, reported) :: rest) p) c =
            ((t.left :: rest.map Prod.fst, t.requests.foldl Pending.request p, .error e), c₁) := by
          simp [dispatch, hwanted, hreact, hresult, t, Turn.left, Turn.requests]
        rw [hafter]
        exact ⟨_, .failed hran hfirst hbad⟩
      | ok _ =>
        have hgood : t.error? = none := by simp [t, Turn.error?, hresult]
        let rested := outcome (dispatch react rest (t.requests.foldl Pending.request p)) c₁
        have hafter : outcome (dispatch react ((s, reported) :: rest) p) c =
            ((t.left :: rested.1.1, rested.1.2), rested.2) := by
          simp [dispatch, hwanted, hreact, hresult, t, Turn.left, Turn.requests, rested]
        obtain ⟨turns, h⟩ := ih (t.requests.foldl Pending.request p) c₁
        rw [hafter]
        exact ⟨t :: turns, h.cons hran hfirst hgood⟩
    · let t : Turn H := ⟨s, reported, none⟩
      have hfirst : t.reaction.isSome ↔ t.Ready ∧ t.source.fd ∉ p.removed :=
        iff_of_false (by simp [t]) fun hready => hwanted (wanted_iff.mpr hready)
      have hran : ∀ {turns c'}, Ran react c turns c' → Ran react c (t :: turns) c' :=
        .skipped s reported
      let rested := outcome (dispatch react rest p) c
      have hafter : outcome (dispatch react ((s, reported) :: rest) p) c =
          ((t.left :: rested.1.1, rested.1.2), rested.2) := by
        simp [dispatch, hwanted, t, Turn.left, rested]
      obtain ⟨turns, h⟩ := ih p c
      rw [hafter]
      exact ⟨t :: turns, h.cons hran hfirst rfl⟩

theorem sources_polled (m : Multiplexer H) (masks : List Readiness) :
    (m.polled masks).map Prod.fst = m.sources :=
  List.map_fst_zip (by simp)

theorem mask_polled {m : Multiplexer H} {masks : List Readiness} {i : Nat} {entry : Source H × Readiness}
    (h : (m.polled masks)[i]? = some entry) : entry.2 = masks.getD i .none := by
  have hmask := (List.getElem?_zip_eq_some.mp h).2
  rw [List.getElem?_append] at hmask
  rw [List.getD_eq_getElem?_getD]
  split at hmask
  · simp [hmask]
  · next hlong =>
    rw [List.getElem?_replicate] at hmask
    split at hmask
    · rw [List.getElem?_eq_none (Nat.le_of_not_lt hlong)]
      exact (Option.some.inj hmask).symm
    · simp at hmask

/-- What a wait that ends in a pass comes to. -/
structure Pass (react : H → Readiness → Op C (Reaction H)) (m : Multiplexer H) (masks : List Readiness)
    (c : C) (turns : List (Turn H)) (r : Except Error Unit) (after : Multiplexer H × C) : Prop where
  ran : Ran react c turns after.2
  sources : turns.map Turn.source = m.sources
  reported : ∀ i t, turns[i]? = some t → t.reported = masks.getD i .none
  heeding : Heeding m.pending.removed turns
  table : after.1 = settle
    { sources := turns.map Turn.left
      pending := (turns.flatMap Turn.requests).foldl Pending.request m.pending }
  result : r = firstError turns

section Wait

variable {poll : List (Int × Readiness) → Op C PollAnswer} {m : Multiplexer H} {c c' : C}

theorem runOnce_failed (react : H → Readiness → Op C (Reaction H)) {errno : Nat}
    (h : outcome (poll m.entries) c = (.error errno, c')) :
    tried (runOnce poll react) (m, c) =
      (if errno = Errno.interrupted then .ok () else .error (pollError errno), m, c') := by
  by_cases hintr : errno = Errno.interrupted <;>
    simp [runOnce, context, Part.right, h, hintr]

theorem runOnce_passed (react : H → Readiness → Op C (Reaction H)) {masks : List Readiness}
    (h : outcome (poll m.entries) c = (.ok masks, c')) :
    ∃ turns, Pass react m masks c' turns (tried (runOnce poll react) (m, c)).1
      (tried (runOnce poll react) (m, c)).2 := by
  obtain ⟨turns, hpassed⟩ := dispatch_passed react (m.polled masks) m.pending c'
  have hafter : tried (runOnce poll react) (m, c) =
      (firstError turns, settle
        { sources := turns.map Turn.left
          pending := (turns.flatMap Turn.requests).foldl Pending.request m.pending },
        (outcome (dispatch react (m.polled masks) m.pending) c').2) := by
    rw [← hpassed.result, ← hpassed.sources, ← hpassed.pending]
    rcases hresult : (outcome (dispatch react (m.polled masks) m.pending) c').1.2.2 with _ | _ <;>
      simp [runOnce, context, Part.right, h, hresult]
  refine ⟨turns, ?_⟩
  rw [hafter]
  refine ⟨hpassed.ran, ?_, ?_, hpassed.heeding, rfl, rfl⟩
  · calc turns.map Turn.source
        = (turns.map fun t => (t.source, t.reported)).map Prod.fst := by simp
      _ = m.sources := by rw [hpassed.entries, sources_polled]
  · intro i t ht
    have hentry : (m.polled masks)[i]? = some (t.source, t.reported) := by
      rw [← hpassed.entries, List.getElem?_map, ht]
      rfl
    exact mask_polled hentry

end Wait

/-- One wait, for every table, every answer of the poll and whatever the handlers do. If the poll fails
nothing runs, and that is an error unless the wait was interrupted. If it succeeds each source of the table
has one turn, in the order of the table: its handler runs just if it is ready, no earlier handler has asked
for its descriptor to go, and none has failed. The first failure is the result. No request is left over. -/
theorem runs_what_is_ready (sources : List (Source H)) (poll : List (Int × Readiness) → Op C PollAnswer)
    (react : H → Readiness → Op C (Reaction H)) (c : C) :
    let m : Multiplexer H := { sources }
    let polling := outcome (poll m.entries) c
    let waited := tried (runOnce poll react) (m, c)
    waited.2.1.pending = {} ∧
    match polling.1 with
    | .error errno =>
      waited.2 = (m, polling.2) ∧
        waited.1 = if errno = Errno.interrupted then .ok () else .error (pollError errno)
    | .ok masks =>
      ∃ turns : List (Turn H), Ran react polling.2 turns waited.2.2 ∧
        turns.map Turn.source = sources ∧
        (∀ i t, turns[i]? = some t → t.reported = masks.getD i .none) ∧
        (∀ before t rest, turns = before ++ t :: rest →
          (t.reaction.isSome ↔
            (t.reported.intersects t.source.interest ∨ t.reported.isHangup) ∧
            ∀ u ∈ before, .deregister t.source.fd ∉ u.requests ∧ u.error? = none)) ∧
        waited.1 = firstError turns := by
  intro m polling waited
  rcases hpoll : outcome (poll m.entries) c with ⟨errno | masks, c'⟩
  · have hpolling : polling = (.error errno, c') := hpoll
    have hwaited : waited = _ := runOnce_failed react hpoll
    rw [hpolling, hwaited]
    exact ⟨rfl, rfl, rfl⟩
  · have hpolling : polling = (.ok masks, c') := hpoll
    obtain ⟨turns, h⟩ : ∃ turns, Pass react m masks c' turns waited.1 waited.2 :=
      runOnce_passed react hpoll
    rw [hpolling]
    refine ⟨?_, turns, h.ran, h.sources, h.reported, ?_, h.result⟩
    · rw [h.table]
      rfl
    · intro before t rest hsplit
      rw [h.heeding before t rest hsplit]
      simp [m, Turn.Ready, Turn.Spares, and_comm]

/-- One descriptor registered twice, with a condition that no source waits for. The second handler takes out
the descriptor behind it and brings in another, and fails. -/
example :
    let fault : Error := .multiplexer "out of turns"
    let react : Nat → Readiness → Op (List Nat) (Reaction Nat) := fun h _ => do
      modify (· ++ [h])
      if h = 2 then
        pure { handler := 2, changes := [.deregister 5, .register ⟨6, .readable, 4⟩], result := .error fault }
      else pure { handler := h + 10 }
    let m : Multiplexer Nat := { sources := [⟨3, .readable, 1⟩, ⟨3, .readable, 2⟩, ⟨5, .writable, 3⟩] }
    let waited := tried (runOnce (fun _ => pure (.ok [.readable, .error, .writable])) react) (m, [])
    waited.1 = .error fault ∧ waited.2 =
      ({ sources := [⟨3, .readable, 11⟩, ⟨3, .readable, 2⟩, ⟨6, .readable, 4⟩] }, [1, 2]) :=
  ⟨rfl, rfl⟩

end Multiplexer

end ScreenLocker
