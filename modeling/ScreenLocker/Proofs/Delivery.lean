import ScreenLocker.Cancellation
import ScreenLocker.Proofs.Run

/-! Where requests to cancel go. Handlers write to a bare descriptor number, and the kernel may hand out a number again
once it is closed: the number has to be forgotten in time. What is written to a full pipe is lost, and need not be
there, since the pipe is not empty then. -/

namespace ScreenLocker

namespace CancelPipe

/-- Reading comes to an end, and leaves the pipe empty. -/
theorem readOut_eq (requested : Bool) (p : CancelPipe) :
    p.readOut requested = (requested || 0 < p.waiting, { p with waiting := 0 }) := by
  fun_induction readOut requested p with
  | case1 requested p hsome ih => rw [ih]; simp [hsome]
  | case2 requested p hnone =>
    have hempty : p.waiting = 0 := Nat.eq_zero_of_not_pos hnone
    simp [← hempty]

/-- A byte that finds no room is lost, but then others wait. -/
theorem push_waiting {p : CancelPipe} (h : 0 < p.capacity) : 0 < p.push.waiting :=
  Nat.lt_min.mpr ⟨Nat.succ_pos _, h⟩

end CancelPipe

namespace Cancellation

/-! What the operations do to the pipes, one by one. -/

section Operations

variable (c : Cancellation) (i j : Nat)

theorem join_snoc (pipes : List (Option CancelPipe)) (q : Option CancelPipe) :
    ((pipes ++ [q])[j]?).join = if j = pipes.length then q else (pipes[j]?).join := by
  rcases Nat.lt_trichotomy j pipes.length with hlt | rfl | hgt
  · rw [List.getElem?_append_left hlt, if_neg (Nat.ne_of_lt hlt)]
  · simp
  · rw [List.getElem?_eq_none (by simp; omega), List.getElem?_eq_none (by omega), if_neg (Nat.ne_of_gt hgt)]

theorem lt_of_pipe? {c : Cancellation} {i : Nat} {p : CancelPipe} (h : c.pipe? i = some p) : i < c.pipes.length := by
  apply Nat.lt_of_not_le
  intro hge
  simp [pipe?, List.getElem?_eq_none hge] at h

theorem pipe?_set {c : Cancellation} {i : Nat} {p : CancelPipe} (h : c.pipe? i = some p) (q : Option CancelPipe) :
    ((c.pipes.set i q)[j]?).join = if j = i then q else c.pipe? j := by
  by_cases hj : j = i
  · simp [hj, lt_of_pipe? h]
  · rw [List.getElem?_set_ne (Ne.symm hj), if_neg hj, pipe?]

theorem mem_openDescriptors {c : Cancellation} {i : Nat} {p : CancelPipe} (h : c.pipe? i = some p) :
    p.read ∈ c.openDescriptors ∧ p.write ∈ c.openDescriptors := by
  have hlive : p ∈ c.live := List.mem_filterMap.mpr ⟨some p, List.mem_of_getElem? (Option.join_eq_some_iff.mp h), rfl⟩
  constructor <;> exact List.mem_flatMap.mpr ⟨p, hlive, by simp⟩

theorem pipe?_drop : (c.drop i).pipe? j = if j = i then none else c.pipe? j := by
  unfold drop
  split
  · next hnone =>
    split
    · next hj => rw [hj, hnone]
    · rfl
  · next p hsome => exact pipe?_set j hsome none

theorem target_drop :
    (c.drop i).target = if (c.pipe? i).any (c.target = some ·.write) then none else c.target := by
  unfold drop
  split <;> simp [*]

theorem drop_keeps : (c.drop i).handled = c.handled ∧ (c.drop i).pipes.length = c.pipes.length := by
  unfold drop
  split <;> simp

theorem pipe?_drain :
    (c.drain i).2.pipe? j = (c.pipe? j).map fun p => if j = i then { p with waiting := 0 } else p := by
  unfold drain
  split
  · next p hsome =>
    rw [CancelPipe.readOut_eq]
    refine (pipe?_set j hsome _).trans ?_
    split
    · next hj => rw [hj, hsome, Option.map_some]
    · exact Option.map_id'.symm
  · next hnone =>
    by_cases hj : j = i
    · rw [hj, hnone, Option.map_none]
    · simp [hj]

theorem drain_keeps : (c.drain i).2.handled = c.handled ∧ (c.drain i).2.target = c.target ∧
    (c.drain i).2.pipes.length = c.pipes.length := by
  unfold drain
  split <;> simp

theorem drain_answer : (c.drain i).1 = (c.pipe? i).any (0 < ·.waiting) := by
  unfold drain
  split <;> simp [*, CancelPipe.readOut_eq]

/-- One byte to a descriptor, or to none. -/
def written (c : Cancellation) : Option Nat → Cancellation
  | some fd => c.writeTo fd
  | none => c

theorem pipe?_written (fd : Option Nat) :
    (c.written fd).pipe? j = (c.pipe? j).map fun p => if fd = some p.write then p.push else p := by
  cases fd with
  | none => simp [written]
  | some fd =>
    simp only [written, pipe?, writeTo, List.getElem?_map, Option.some.injEq, eq_comm]
    cases c.pipes[j]? <;> rfl

theorem written_keeps (fd : Option Nat) : (c.written fd).handled = c.handled ∧ (c.written fd).target = c.target ∧
    (c.written fd).pipes.length = c.pipes.length := by
  cases fd <;> simp [written, writeTo]

theorem raise_eq (s : Signal) : c.raise s = c.written (if c.handled.contains s then c.target else none) := by
  unfold raise
  split
  · cases c.target <;> rfl
  · rfl

theorem notify_eq : c.notify i = c.written ((c.pipe? i).map CancelPipe.write) := by
  unfold notify
  cases c.pipe? i <;> rfl

theorem handle_eq (signals : List Signal) :
    handle signals c =
      (match signals.find? (!·.takesHandler) with
        | none => .ok ()
        | some s => .error s,
      { c with handled := (signals.takeWhile (·.takesHandler)).reverse ++ c.handled }) := by
  induction signals generalizing c with
  | nil => rfl
  | cons s rest ih =>
    cases htakes : s.takesHandler with
    | true => simp [handle, htakes, ih]
    | false => simp [handle, htakes]

/-- An install that fails leaves the place of its pipe empty, and nobody to write to. -/
theorem install_leaves (ends : Nat × Nat) (signals : List Signal) (capacity : Nat) :
    (tried (install ends signals capacity) c).2 =
      let all := signals.all (·.takesHandler)
      { pipes := c.pipes ++ [if all then some { read := ends.1, write := ends.2, capacity } else none]
        target := if all then some ends.2 else none
        handled := (signals.takeWhile (·.takesHandler)).reverse ++ c.handled } := by
  simp only [install, tried_bind, tried_get, tried_modify, tried_modifyGet, handle_eq]
  cases hfind : signals.find? (!·.takesHandler) with
  | none =>
    have hall : signals.all (·.takesHandler) = true := by simpa using hfind
    simp [hall, create]
  | some s =>
    have hall : signals.all (·.takesHandler) = false :=
      List.all_eq_false.mpr ⟨s, List.mem_of_find?_eq_some hfind, by simpa using List.find?_some hfind⟩
    simp [hall, create, drop, pipe?]

end Operations

/-- What can happen to the pipes. Whoever makes one gets its descriptors and its capacity from the kernel. -/
inductive Event where
  | create (ends : Nat × Nat) (capacity : Nat)
  | install (ends : Nat × Nat) (capacity : Nat) (signals : List Signal)
  | drop (pipe : Nat)
  | signal (s : Signal)
  | notify (pipe : Nat)
  | drain (pipe : Nat)
deriving DecidableEq

inductive Answer where
  | done
  | failed (e : Error)
  | drained (requested : Bool)
deriving DecidableEq

def perform : Event → Op Cancellation Answer
  | .create ends capacity => do
    modify fun c => c.create ends capacity
    pure .done
  | .install ends capacity signals => do
    match ← (install ends signals capacity).run with
    | .ok () => pure .done
    | .error e => pure (.failed e)
  | .drop i => do
    modify (drop i)
    pure .done
  | .signal s => do
    modify (raise s)
    pure .done
  | .notify i => do
    modify (notify i)
    pure .done
  | .drain i => .drained <$> modifyGet (drain i)

abbrev Step := Moment Cancellation Event Answer

namespace Event

/-- The pipe that is live after the event and was not there before. -/
def makes : Event → Option CancelPipe
  | .create ends capacity => some { read := ends.1, write := ends.2, capacity }
  | .install ends capacity signals =>
    if signals.all (·.takesHandler) then some { read := ends.1, write := ends.2, capacity } else none
  | _ => none

/-- How many places for pipes it takes. -/
def places : Event → Nat
  | .create .. | .install .. => 1
  | _ => 0

/-- The signals that are given a handler. -/
def handles : Event → List Signal
  | .install _ _ signals => signals.takeWhile (·.takesHandler)
  | _ => []

/-- The descriptor that a byte is written to. -/
def writes (c : Cancellation) : Event → Option Nat
  | .signal s => if c.handled.contains s then c.target else none
  | .notify i => (c.pipe? i).map CancelPipe.write
  | _ => none

/-- The descriptor that handlers write to after it. -/
def aims (c : Cancellation) : Event → Option Nat
  | .install ends _ signals => if signals.all (·.takesHandler) then some ends.2 else none
  | .drop i => if (c.pipe? i).any (c.target = some ·.write) then none else c.target
  | _ => c.target

/-- The kernel makes a pipe on two numbers that are no open descriptors, used before or not, and with room for a byte at
least. -/
def Allotted (c : Cancellation) : Event → Prop
  | .create ends capacity | .install ends capacity _ =>
    ends.1 ∉ c.openDescriptors ∧ ends.2 ∉ c.openDescriptors ∧ 0 < capacity
  | _ => True

instance (c : Cancellation) : DecidablePred (Allotted c)
  | .create .. | .install .. => inferInstanceAs (Decidable (_ ∧ _))
  | .drop _ | .signal _ | .notify _ | .drain _ => inferInstanceAs (Decidable True)

/-- What is left of a live pipe. -/
def leaves (c : Cancellation) (i : Nat) (p : CancelPipe) (e : Event) : Option CancelPipe :=
  if e = .drop i then none
  else some (if e = .drain i then { p with waiting := 0 } else if e.writes c = some p.write then p.push else p)

theorem leaves_ends {c : Cancellation} {i : Nat} {p p' : CancelPipe} {e : Event} (h : e.leaves c i p = some p') :
    p.read = p'.read ∧ p.write = p'.write ∧ p.capacity = p'.capacity := by
  unfold leaves at h
  split at h
  · cases h
  · obtain rfl := Option.some.inj h
    split
    · exact ⟨rfl, rfl, rfl⟩
    · split <;> exact ⟨rfl, rfl, rfl⟩

end Event

section Events

variable (c : Cancellation) (e : Event)

theorem after_install (ends : Nat × Nat) (capacity : Nat) (signals : List Signal) :
    (outcome (perform (.install ends capacity signals)) c).2 = (tried (install ends signals capacity) c).2 := by
  rw [perform, outcome_bind, outcome_run]
  cases (tried (install ends signals capacity) c).1 <;> rfl

/-- What an event makes of each pipe. -/
def pipeAfter (i : Nat) : Option CancelPipe :=
  match c.pipe? i with
  | some p => e.leaves c i p
  | none => if i = c.pipes.length then e.makes else none

theorem pipeAfter_makes (i : Nat) (h : ∀ p, e.leaves c i p = some p) :
    (if i = c.pipes.length then e.makes else c.pipe? i) = pipeAfter c e i := by
  unfold pipeAfter
  cases hp : c.pipe? i with
  | none => rfl
  | some p => exact (if_neg (Nat.ne_of_lt (lt_of_pipe? hp))).trans (h p).symm

theorem pipeAfter_leaves (i : Nat) (h : e.makes = none) :
    ((c.pipe? i).bind fun p => e.leaves c i p) = pipeAfter c e i := by
  unfold pipeAfter
  cases c.pipe? i <;> simp [h]

theorem pipe?_writes (i : Nat) (h : e ≠ .drop i ∧ e ≠ .drain i) :
    (c.written (e.writes c)).pipe? i = (c.pipe? i).bind fun p => e.leaves c i p := by
  rw [pipe?_written]
  cases c.pipe? i <;> simp [Event.leaves, h]

theorem pipe?_perform (i : Nat) : (outcome (perform e) c).2.pipe? i = pipeAfter c e i := by
  cases e with
  | create ends capacity =>
    rw [← pipeAfter_makes c _ i fun p => by simp [Event.leaves, Event.writes]]
    exact join_snoc i c.pipes _
  | install ends capacity signals =>
    rw [← pipeAfter_makes c _ i fun p => by simp [Event.leaves, Event.writes], after_install, install_leaves]
    exact join_snoc i c.pipes _
  | drop j =>
    rw [← pipeAfter_leaves c _ i rfl]
    refine (pipe?_drop c j i).trans ?_
    cases c.pipe? i <;> simp [Event.leaves, Event.writes, eq_comm]
  | signal s =>
    rw [← pipeAfter_leaves c _ i rfl, ← pipe?_writes c _ i (by simp)]
    exact congrArg (pipe? · i) (raise_eq c s)
  | notify j =>
    rw [← pipeAfter_leaves c _ i rfl, ← pipe?_writes c _ i (by simp)]
    exact congrArg (pipe? · i) (notify_eq c j)
  | drain j =>
    rw [← pipeAfter_leaves c _ i rfl]
    refine (pipe?_drain c j i).trans ?_
    cases c.pipe? i <;> simp [Event.leaves, Event.writes, eq_comm]

/-- What an event makes of the rest. -/
theorem perform_rest :
    let after := (outcome (perform e) c).2
    (∀ s, s ∈ after.handled ↔ s ∈ c.handled ∨ s ∈ e.handles) ∧ after.target = e.aims c ∧
      after.pipes.length = c.pipes.length + e.places := by
  cases e with
  | install ends capacity signals =>
    dsimp only
    rw [after_install, install_leaves]
    simp [Event.handles, Event.aims, Event.places, or_comm]
  | create ends capacity => simp [perform, create, Event.handles, Event.aims, Event.places]
  | drop i => simp [perform, Event.handles, Event.aims, Event.places, drop_keeps, target_drop]
  | signal s => simp [perform, Event.handles, Event.aims, Event.places, raise_eq, written_keeps]
  | notify i => simp [perform, Event.handles, Event.aims, Event.places, notify_eq, written_keeps]
  | drain i => simp [perform, Event.handles, Event.aims, Event.places, drain_keeps]

end Events

/-- The place of the pipe that an install makes, be it only to fail. -/
def Step.installs (m : Step) : Option Nat :=
  match m.event with
  | .install .. => some m.before.pipes.length
  | _ => none

def lastInstalled (ms : List Step) : Option Nat := (ms.filterMap Step.installs).getLast?

/-- The step delivers a request to a live pipe: by its own handle, or by a signal with a handler while it is the pipe
that was installed last. -/
def Delivers (earlier : List Step) (m : Step) (i : Nat) : Prop :=
  (m.before.pipe? i).isSome ∧
    match m.event with
    | .notify j => j = i
    | .signal s => (∃ m' ∈ earlier, s ∈ m'.event.handles) ∧ lastInstalled earlier = some i
    | _ => False

/-- A request has been delivered to the pipe, and it has not been drained since. -/
def Requested (ms : List Step) (i : Nat) : Prop :=
  ∃ earlier m later, ms = earlier ++ m :: later ∧ Delivers earlier m i ∧ ∀ m' ∈ later, m'.event ≠ .drain i

theorem lastInstalled_snoc (ms : List Step) (m : Step) :
    lastInstalled (ms ++ [m]) = m.installs.or (lastInstalled ms) := by
  rw [lastInstalled, List.filterMap_append, List.getLast?_append]
  cases h : m.installs <;> simp [lastInstalled, h]

theorem requested_snoc (ms : List Step) (m : Step) (i : Nat) :
    Requested (ms ++ [m]) i ↔ Delivers ms m i ∨ m.event ≠ .drain i ∧ Requested ms i := by
  constructor
  · rintro ⟨earlier, m', later, hsplit, hdelivers, hsince⟩
    rcases List.eq_nil_or_concat later with rfl | ⟨later, m'', rfl⟩
    · obtain ⟨rfl, hlast⟩ := List.append_inj' hsplit rfl
      obtain rfl := List.head_eq_of_cons_eq hlast
      exact .inl hdelivers
    · rw [List.concat_eq_append, ← List.cons_append, ← List.append_assoc] at hsplit
      obtain ⟨rfl, hlast⟩ := List.append_inj' hsplit rfl
      obtain rfl := List.head_eq_of_cons_eq hlast
      rw [List.concat_eq_append, List.forall_mem_append] at hsince
      exact .inr ⟨hsince.2 _ List.mem_cons_self, earlier, m', later, rfl, hdelivers, hsince.1⟩
  · rintro (hdelivers | ⟨hother, earlier, m', later, rfl, hdelivers, hsince⟩)
    · exact ⟨ms, m, [], rfl, hdelivers, List.forall_mem_nil _⟩
    · refine ⟨earlier, m', later ++ [m], by rw [List.append_assoc, List.cons_append], hdelivers, ?_⟩
      exact List.forall_mem_append.mpr ⟨hsince, List.forall_mem_singleton.mpr hother⟩

/-- What the steps so far have come to. -/
structure Accounted (ms : List Step) (c : Cancellation) : Prop where
  /-- What is written to one live pipe goes to no end of another. -/
  apart : ∀ {i j p q}, c.pipe? i = some p → c.pipe? j = some q → p.write = q.write ∨ p.write = q.read → i = j
  room : ∀ {i p}, c.pipe? i = some p → 0 < p.capacity
  handled : ∀ s, s ∈ c.handled ↔ ∃ m ∈ ms, s ∈ m.event.handles
  target : c.target = (lastInstalled ms).bind fun i => (c.pipe? i).map CancelPipe.write
  waiting : ∀ {i p}, c.pipe? i = some p → (0 < p.waiting ↔ Requested ms i)
  /-- Nothing has come yet to a pipe that is still to be made. -/
  known : ∀ {i}, lastInstalled ms = some i ∨ Requested ms i → i < c.pipes.length

section Accounts

variable {ms : List Step} {c : Cancellation} {e : Event}

/-- A pipe that is live after a step was so before, with the same ends, or is the one that the step has made. -/
theorem ends_after (hkernel : e.Allotted c) {i : Nat} {p' : CancelPipe}
    (h : pipeAfter c e i = some p') :
    (∃ p, c.pipe? i = some p ∧ e.leaves c i p = some p' ∧
      p.read = p'.read ∧ p.write = p'.write ∧ p.capacity = p'.capacity) ∨
    (c.pipe? i = none ∧ i = c.pipes.length) ∧ p'.waiting = 0 ∧ 0 < p'.capacity ∧
      p'.read ∉ c.openDescriptors ∧ p'.write ∉ c.openDescriptors := by
  unfold pipeAfter at h
  split at h
  · next p hp => exact .inl ⟨p, hp, h, Event.leaves_ends h⟩
  · next hp =>
    split at h
    · next hi =>
      refine .inr ⟨⟨hp, hi⟩, ?_⟩
      cases e with
      | create ends capacity =>
        obtain ⟨hread, hwrite, hcapacity⟩ := hkernel
        obtain rfl := Option.some.inj h
        exact ⟨rfl, hcapacity, hread, hwrite⟩
      | install ends capacity signals =>
        obtain ⟨hread, hwrite, hcapacity⟩ := hkernel
        rw [Event.makes, Option.ite_none_right_eq_some] at h
        obtain rfl := Option.some.inj h.2
        exact ⟨rfl, hcapacity, hread, hwrite⟩
      | drop j | signal s | notify j | drain j => cases h
    · cases h

/-- A pipe that is not dropped keeps its ends. -/
theorem writes_kept {i : Nat} (hi : i < c.pipes.length) (hdrop : e ≠ .drop i) :
    (pipeAfter c e i).map CancelPipe.write = (c.pipe? i).map CancelPipe.write := by
  unfold pipeAfter
  cases hp : c.pipe? i with
  | none => simp [Nat.ne_of_lt hi]
  | some p =>
    cases hleaves : e.leaves c i p with
    | none => exact absurd hleaves (by simp [Event.leaves, hdrop])
    | some p' => simp [hleaves, Event.leaves_ends hleaves]

/-- Handlers write to a live pipe only if it is the one that was installed last. -/
theorem Accounted.aimed (h : Accounted ms c) {i : Nat} {p : CancelPipe} (hp : c.pipe? i = some p) :
    c.target = some p.write ↔ lastInstalled ms = some i := by
  rw [h.target]
  constructor
  · intro haim
    obtain ⟨k, hk, haim⟩ := Option.bind_eq_some_iff.mp haim
    obtain ⟨q, hq, hsame⟩ := Option.map_eq_some_iff.mp haim
    rw [hk, h.apart hq hp (.inl hsame)]
  · intro hlast
    rw [hlast, Option.bind_some, hp, Option.map_some]

/-- What is written reaches the pipe that it is meant for. -/
theorem Accounted.reaches (h : Accounted ms c) {i : Nat} {p : CancelPipe} (hp : c.pipe? i = some p) :
    e.writes c = some p.write ↔ Delivers ms (Run.moment perform c e) i := by
  cases e with
  | signal s => simp [Event.writes, Delivers, Run.moment, hp, h.aimed hp, h.handled]
  | notify j =>
    have hsame : (c.pipe? j).map CancelPipe.write = some p.write ↔ j = i := by
      constructor
      · intro hsame
        obtain ⟨q, hq, hsame⟩ := Option.map_eq_some_iff.mp hsame
        exact h.apart hq hp (.inl hsame)
      · rintro rfl
        rw [hp, Option.map_some]
    simp [Event.writes, Delivers, Run.moment, hp, hsame]
  | create ends capacity | install ends capacity signals | drop j | drain j =>
    simp [Event.writes, Delivers, Run.moment]

/-- Handlers stop writing to a pipe that is dropped, and to no other. -/
theorem Accounted.aims_drop (h : Accounted ms c) (j : Nat) :
    (Event.drop j).aims c = (lastInstalled ms).bind fun i => (pipeAfter c (.drop j) i).map CancelPipe.write := by
  have htarget := h.target
  cases hlast : lastInstalled ms with
  | none =>
    rw [hlast, Option.bind_none] at htarget
    simp [Event.aims, htarget]
  | some k =>
    rw [hlast, Option.bind_some] at htarget
    rw [Option.bind_some]
    by_cases hk : k = j
    · subst hk
      cases hp : c.pipe? k with
      | none => simp [Event.aims, pipeAfter, hp, htarget, Event.makes]
      | some p => simp [Event.aims, pipeAfter, hp, htarget, Event.leaves]
    · have hother : (c.pipe? j).any (c.target = some ·.write) = false := by
        cases hp : c.pipe? j with
        | none => rfl
        | some p => simp [h.aimed hp, hlast, hk]
      rw [writes_kept (h.known (.inl hlast)) (by simpa [eq_comm] using hk), Event.aims, hother, htarget]
      rfl

theorem Accounted.next_target (h : Accounted ms c) :
    e.aims c = (lastInstalled (ms ++ [Run.moment perform c e])).bind fun i =>
      (pipeAfter c e i).map CancelPipe.write := by
  have hstays (hsame : e.aims c = c.target) (hdrop : ∀ i, e ≠ .drop i) :
      e.aims c = (lastInstalled ms).bind fun i => (pipeAfter c e i).map CancelPipe.write := by
    rw [hsame, h.target]
    cases hlast : lastInstalled ms with
    | none => rfl
    | some k => exact (writes_kept (h.known (.inl hlast)) (hdrop k)).symm
  rw [lastInstalled_snoc]
  cases e with
  | install ends capacity signals =>
    have hnew : c.pipe? c.pipes.length = none := by simp [pipe?]
    simp only [Step.installs, Run.moment, Option.some_or, Option.bind_some, pipeAfter, hnew]
    cases hall : signals.all (·.takesHandler) <;> simp [Event.aims, Event.makes, hall]
  | drop j => exact h.aims_drop j
  | create ends capacity | signal s | notify j | drain j => exact hstays rfl (by simp)

theorem Accounted.next_waiting (h : Accounted ms c) (hkernel : e.Allotted c) {i : Nat}
    {p' : CancelPipe} (hp' : pipeAfter c e i = some p') :
    0 < p'.waiting ↔ Requested (ms ++ [Run.moment perform c e]) i := by
  rw [requested_snoc]
  rcases ends_after hkernel hp' with ⟨p, hp, hleaves, -⟩ | ⟨⟨hnone, rfl⟩, hempty, -⟩
  · have hreaches := h.reaches (e := e) hp
    rw [Event.leaves, Option.ite_none_left_eq_some] at hleaves
    obtain ⟨-, hleaves⟩ := hleaves
    obtain rfl := Option.some.inj hleaves
    split
    · next hdrain =>
      refine iff_of_false (Nat.lt_irrefl 0) ?_
      rintro (⟨-, hdelivered⟩ | ⟨hother, -⟩)
      · rw [Run.moment, hdrain] at hdelivered
        exact hdelivered
      · exact hother hdrain
    · split
      · next hdrain hwrites =>
        exact iff_of_true (CancelPipe.push_waiting (h.room hp)) (.inl (hreaches.mp hwrites))
      · next hdrain hwrites =>
        have hspared : ¬ Delivers ms (Run.moment perform c e) i := mt hreaches.mpr hwrites
        exact (h.waiting hp).trans ((or_iff_right hspared).trans (and_iff_right hdrain)).symm
  · refine iff_of_false (by simp [hempty]) ?_
    rintro (⟨hlive, -⟩ | ⟨-, hrequested⟩)
    · exact absurd hlive (by simp [Run.moment, hnone])
    · exact Nat.lt_irrefl _ (h.known (.inr hrequested))

theorem Accounted.next_apart (h : Accounted ms c) (hkernel : e.Allotted c) {i j : Nat} {p' q' : CancelPipe}
    (hp' : pipeAfter c e i = some p') (hq' : pipeAfter c e j = some q')
    (hsame : p'.write = q'.write ∨ p'.write = q'.read) : i = j := by
  -- The ends of a new pipe are no open descriptors, those of the others are.
  rcases ends_after hkernel hp' with ⟨p, hp, -, -, hwrite, -⟩ | ⟨⟨-, hi⟩, -, -, -, hwrite⟩ <;>
    rcases ends_after hkernel hq' with ⟨q, hq, -, hread', hwrite', -⟩ | ⟨⟨-, hj⟩, -, -, hread', hwrite'⟩
  · rw [← hwrite, ← hwrite', ← hread'] at hsame
    exact h.apart hp hq hsame
  · obtain ⟨-, hopen⟩ := mem_openDescriptors hp
    rw [hwrite] at hopen
    rcases hsame with hsame | hsame
    · exact absurd (hsame ▸ hopen) hwrite'
    · exact absurd (hsame ▸ hopen) hread'
  · obtain ⟨hopen, hopen'⟩ := mem_openDescriptors hq
    rcases hsame with hsame | hsame
    · exact absurd hopen' (by rwa [hwrite', ← hsame])
    · exact absurd hopen (by rwa [hread', ← hsame])
  · rw [hi, hj]

theorem Accounted.next_known (h : Accounted ms c) {i : Nat}
    (hknown : lastInstalled (ms ++ [Run.moment perform c e]) = some i ∨ Requested (ms ++ [Run.moment perform c e]) i) :
    i < c.pipes.length + e.places := by
  rw [lastInstalled_snoc, Option.or_eq_some_iff, requested_snoc] at hknown
  rcases hknown with (hinstalls | ⟨-, hlast⟩) | ⟨hlive, -⟩ | ⟨-, hrequested⟩
  · cases e with
    | install ends capacity signals =>
      obtain rfl := Option.some.inj hinstalls
      exact Nat.lt_succ_self _
    | create ends capacity | drop j | signal s | notify j | drain j => cases hinstalls
  · exact Nat.lt_of_lt_of_le (h.known (.inl hlast)) (Nat.le_add_right ..)
  · obtain ⟨p, hp⟩ := Option.isSome_iff_exists.mp hlive
    exact Nat.lt_of_lt_of_le (lt_of_pipe? hp) (Nat.le_add_right ..)
  · exact Nat.lt_of_lt_of_le (h.known (.inr hrequested)) (Nat.le_add_right ..)

theorem Accounted.next (h : Accounted ms c) (hkernel : e.Allotted c) :
    Accounted (ms ++ [Run.moment perform c e]) (Run.moment perform c e).after := by
  obtain ⟨hhandled, htarget, hlength⟩ := perform_rest c e
  have hpipe (i : Nat) : (Run.moment perform c e).after.pipe? i = pipeAfter c e i := pipe?_perform c e i
  constructor
  case apart =>
    intro i j p' q' hp' hq' hsame
    rw [hpipe] at hp' hq'
    exact h.next_apart hkernel hp' hq' hsame
  case room =>
    intro i p' hp'
    rw [hpipe] at hp'
    rcases ends_after hkernel hp' with ⟨p, hp, -, -, -, hcapacity⟩ | ⟨-, -, hcapacity, -⟩
    · exact hcapacity ▸ h.room hp
    · exact hcapacity
  case handled =>
    intro s
    refine (hhandled s).trans ?_
    simp [h.handled, or_and_right, exists_or, Run.moment]
  case target =>
    simp only [hpipe]
    exact htarget.trans h.next_target
  case waiting =>
    intro i p' hp'
    rw [hpipe] at hp'
    exact h.next_waiting hkernel hp'
  case known =>
    intro i hknown
    exact Nat.lt_of_lt_of_eq (h.next_known hknown) hlength.symm

end Accounts

theorem accounted_start : Accounted [] {} where
  apart := nofun
  room := nofun
  handled _ := by simp
  target := rfl
  waiting := nofun
  known := by
    rintro i (hlast | ⟨earlier, m, later, hsplit, -⟩)
    · cases hlast
    · simp at hsplit

/-- Whatever numbers the kernel gives to new pipes, and whatever their capacity: handlers write into the pipe that was
installed last while it is live, and nowhere otherwise; no other live pipe has an end of that number. A drain finds a
request just if one has been delivered to that pipe since it was last drained. -/
theorem requests_reach_their_pipe {es : List Event} {pre post : List Step} {m : Step}
    (hkernel : ∀ m ∈ Run.moments perform es {}, m.event.Allotted m.before)
    (h : Run.moments perform es {} = pre ++ m :: post) :
    m.before.target = ((lastInstalled pre).bind fun i => (m.before.pipe? i).map CancelPipe.write) ∧
    (∀ i j p q, m.before.pipe? i = some p → m.before.pipe? j = some q →
      p.write = q.write ∨ p.write = q.read → i = j) ∧
    ∀ i, m.event = .drain i → (m.before.pipe? i).isSome →
      ∃ requested, m.answer = .drained requested ∧ (requested = true ↔ Requested pre i) := by
  have hbefore : ∀ m ∈ pre, m.event.Allotted m.before := by
    intro m hm
    exact hkernel m (h ▸ List.mem_append_left _ hm)
  obtain ⟨haccounted, hmoment⟩ := Run.holds_before_of_kind (P := Accounted) (Q := fun m => m.event.Allotted m.before)
    (fun _ _ _ hms he => hms.next he) accounted_start h hbefore
  refine ⟨haccounted.target, fun _ _ _ _ => haccounted.apart, fun i hdrain hlive => ?_⟩
  obtain ⟨p, hp⟩ := Option.isSome_iff_exists.mp hlive
  refine ⟨(m.before.drain i).1, ?_, ?_⟩
  · rw [hmoment, hdrain]
    rfl
  · rw [drain_answer, hp, ← haccounted.waiting hp]
    simp

/-- The numbers of a pipe that is gone are those of another; it gets nothing that is meant for the one that is gone, nor
for one whose install has failed. -/
theorem reused_numbers_get_nothing :
    let usr1 : Signal := ⟨"SIGUSR1"⟩
    let es : List Event := [.install (3, 4) 1 [usr1], .signal usr1, .signal usr1, .drain 0, .drop 0,
      .create (3, 4) 1, .signal usr1, .install (5, 6) 1 [usr1, ⟨"SIGKILL"⟩], .signal usr1, .drain 1]
    let ms := Run.moments perform es {}
    (∀ m ∈ ms, m.event.Allotted m.before) ∧ ms[3]?.map Moment.answer = some (.drained true) ∧
      ms[9]?.map Moment.answer = some (.drained false) ∧ ¬ Requested (ms.take 9) 1 := by
  intro usr1 es ms
  have hkernel : ∀ m ∈ ms, m.event.Allotted m.before := by decide +kernel
  have hfirst : ms[3]?.map Moment.answer = some (.drained true) := by decide +kernel
  have hlast : ms[9]?.map (fun m => (m.event, m.answer, (m.before.pipe? 1).isSome)) =
      some (.drain 1, .drained false, true) := by decide +kernel
  obtain ⟨m, hm, hlast⟩ := Option.map_eq_some_iff.mp hlast
  obtain ⟨hdrain, hanswer, hlive⟩ : m.event = .drain 1 ∧ m.answer = .drained false ∧
      (m.before.pipe? 1).isSome = true := by simpa using hlast
  obtain ⟨hlt, rfl⟩ := List.getElem?_eq_some_iff.mp hm
  have hsplit : ms = ms.take 9 ++ ms[9] :: ms.drop 10 := by
    rw [← List.drop_eq_getElem_cons hlt, List.take_append_drop]
  obtain ⟨-, -, hdrains⟩ := requests_reach_their_pipe hkernel hsplit
  obtain ⟨requested, hrequested, hiff⟩ := hdrains 1 hdrain hlive
  obtain rfl : false = requested := Answer.drained.inj (hanswer.symm.trans hrequested)
  exact ⟨hkernel, hfirst, by rw [hm, Option.map_some, hanswer], fun h => Bool.false_ne_true (hiff.mpr h)⟩

end Cancellation

end ScreenLocker
