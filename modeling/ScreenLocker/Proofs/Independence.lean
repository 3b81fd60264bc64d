import ScreenLocker.Proofs.Fates

/-! Outputs are independent of each other. What is done to the other outputs can be left out of a run, and
the output in question ends up the same, with the same calls for it. Only its surfaces are numbered
differently, for surfaces of all outputs are numbered in one row. -/

namespace ScreenLocker

/-- The call with surfaces under other numbers. -/
def Call.renamed (rename : Nat → Nat) (call : Call) : Call :=
  { call with
    request :=
      match call.request with
      | .acknowledge surface serial => .acknowledge (rename surface) serial
      | .present surface picture => .present (rename surface) picture
      | .destroySurface surface => .destroySurface (rename surface)
      | request => request }

def OutputEntry.renamed (rename : Nat → Nat) (e : Screen) : Screen :=
  { e with surface := e.surface.map rename }

namespace Outputs

def Fate.renamed (rename : Nat → Nat) : Fate → Fate
  | .stays e calls => .stays (e.renamed rename) (calls.map (Call.renamed rename))
  | .covered e => .covered (e.renamed rename)
  | .goes => .goes

section Renamed

variable (rename : Nat → Nat) (e : Screen)

theorem farewell_renamed : (e.renamed rename).farewell = e.farewell.map (Call.renamed rename) := by
  cases hsurface : e.surface <;>
    simp [OutputEntry.farewell, OutputEntry.renamed, Call.renamed, hsurface]

theorem update_renamed (event : OutputEvent) :
    (e.renamed rename).update event = (e.update event).renamed rename := by
  cases event with
  | geometry width height =>
    by_cases hsame : e.geometry = (width, height) <;>
      simp [OutputEntry.update, OutputEntry.renamed, hsame]
  | scale factor =>
    by_cases hsame : e.scale = factor <;> simp [OutputEntry.update, OutputEntry.renamed, hsame]
  | name text => rfl
  | done => rfl

theorem shown_renamed (fill : Color) :
    (e.renamed rename).shown fill =
      ((e.shown fill).1.renamed rename, (e.shown fill).2.map (Call.renamed rename)) := by
  have hpicture : (e.renamed rename).picture fill = e.picture fill := rfl
  unfold OutputEntry.shown
  rw [hpicture]
  cases hsurface : e.surface with
  | none => simp [OutputEntry.renamed, hsurface]
  | some surface =>
    simp only [OutputEntry.renamed, hsurface, Option.map_some]
    split <;> simp [Call.renamed, hsurface]

/-- Nothing that is done depends on how surfaces are numbered. -/
theorem fate_renamed (op : Operation) :
    fate op (e.renamed rename) = (fate op e).renamed rename := by
  have hid : (e.renamed rename).id = e.id := rfl
  have hready : (e.renamed rename).ready = e.ready := rfl
  have hbare : (e.renamed rename).surface.isNone = e.surface.isNone := by
    simp [OutputEntry.renamed]
  cases op with
  | add id output =>
    simp only [fate, hid]
    split <;> rfl
  | remove id =>
    simp only [fate, hid]
    split <;> rfl
  | event id event active =>
    simp only [fate, hid, hbare, update_renamed]
    split
    · split <;> rfl
    · rfl
  | ensureSurfaces =>
    simp only [fate, hready, hbare]
    split <;> rfl
  | configure id c fill =>
    have hconfigured : (e.renamed rename).configure c = (e.configure c).renamed rename := rfl
    cases hsurface : e.surface with
    | none => simp [fate, OutputEntry.renamed, Fate.renamed, hsurface]
    | some surface =>
      have hrenamed : (e.renamed rename).surface = some (rename surface) := by
        simp [OutputEntry.renamed, hsurface]
      simp only [fate, hid, hsurface, hrenamed, hconfigured, shown_renamed]
      split <;> rfl
  | damageAll => rfl
  | render fill => simp only [fate, shown_renamed, Fate.renamed]
  | teardown => rfl

end Renamed

end Outputs

namespace Independence

open Ledger (madeFor)
open Outputs (Operation operate Fate fate)

/-- Operations that are not addressed to another output. -/
def concerns (id : OutputId) : Operation → Bool
  | .add id' _ | .event id' _ _ | .configure id' _ _ | .remove id' => id' = id
  | .ensureSurfaces | .damageAll | .render _ | .teardown => true

/-- The handles with which an output arrives. -/
def arrivals (id : OutputId) (ops : List Operation) : List Nat :=
  ops.filterMap fun
    | .add id' output => if id' = id then some output else none
    | _ => none

/-- What there is to see of one output, with the calls of the whole run. -/
structure View where
  /-- The number of the first surface. -/
  first : Nat
  id : OutputId
  /-- The handles with which the output arrives. -/
  outputs : List Nat
  calls : List Call

namespace View

variable (v : View)

/-- The surfaces made for the output, in order. -/
def surfaces (calls : List Call) : List Nat :=
  ((madeFor v.first calls).filter (·.1 = v.id)).map Prod.snd

/-- The call names the output or a surface of it. -/
def names (call : Call) : Bool :=
  call.output?.any (v.outputs.contains ·) || call.surface?.any ((v.surfaces v.calls).contains ·)

/-- The number of a surface if only those of this output are counted. -/
def number (surface : Nat) : Nat := v.first + (v.surfaces v.calls).idxOf surface

/-- The entry of the output, if it is among these. -/
def entries (entries : List Screen) : List Screen :=
  (entries.filter (·.id = v.id)).map (OutputEntry.renamed v.number)

/-- A record of what was done for the output alone. -/
def record (r : Recorder) : Recorder :=
  { calls := (r.calls.filter v.names).map (Call.renamed v.number)
    nextHandle := v.first + (v.surfaces r.calls).length }

/-- The calls that name the output or a surface of it. -/
def own : List Call := v.calls.filter v.names

/-- What there is of the output, its surfaces numbered as if there were no others. -/
def scene (s : Scene) : Scene := (⟨v.entries s.1.entries⟩, v.record s.2)

theorem entries_append (entries rest : List Screen) :
    v.entries (entries ++ rest) = v.entries entries ++ v.entries rest := by
  rw [View.entries, List.filter_append, List.map_append]
  rfl

theorem find?_entries (entries : List Screen) : Outputs.find? ⟨v.entries entries⟩ v.id =
    (Outputs.find? ⟨entries⟩ v.id).map (OutputEntry.renamed v.number) := by
  have hid (e : Screen) : (e.renamed v.number).id = e.id := rfl
  simp [Outputs.find?, View.entries, List.find?_map, List.find?_filter, hid]

variable {v} {calls new : List Call}

theorem mem_surfaces {surface : Nat} :
    surface ∈ v.surfaces calls ↔ (v.id, surface) ∈ madeFor v.first calls := by
  simp only [surfaces, List.mem_map, List.mem_filter, decide_eq_true_eq, Prod.exists]
  constructor
  · rintro ⟨id, _, ⟨hmem, rfl⟩, rfl⟩
    exact hmem
  · exact fun hmem => ⟨v.id, surface, ⟨hmem, rfl⟩, rfl⟩

theorem surfaces_append : v.surfaces (calls ++ new) = v.surfaces calls ++
    ((madeFor (v.first + (madeFor v.first calls).length) new).filter (·.1 = v.id)).map Prod.snd := by
  rw [surfaces, madeFor, Ledger.grants_append, List.filter_append, List.map_append]
  rfl

/-- Calls that make no surface, or one for another output. -/
theorem surfaces_same (h : ∀ call ∈ new, call.grantedTo? ≠ some v.id) :
    v.surfaces (calls ++ new) = v.surfaces calls := by
  have hnone : (madeFor (v.first + (madeFor v.first calls).length) new).filter (·.1 = v.id) = [] := by
    refine List.filter_eq_nil_iff.mpr fun m hm => ?_
    have hid := List.mem_filterMap.mp (List.fst_mem_of_mem_zipIdx hm)
    obtain ⟨call, hcall, hgranted⟩ := hid
    have hother : m.1 ≠ v.id := fun hid => h call hcall (hid ▸ hgranted)
    simpa using hother
  rw [surfaces_append, hnone, List.map_nil, List.append_nil]

theorem surfaces_snoc (v : View) (calls : List Call) (output : Nat) :
    v.surfaces (calls ++ [⟨.createSurface v.id output, true⟩]) =
      v.surfaces calls ++ [v.first + (madeFor v.first calls).length] := by
  rw [surfaces_append]
  simp [Ledger.grants, Call.grantedTo?]

/-- A new surface has the next number. -/
theorem number_new (output : Nat)
    (h : calls ++ [⟨.createSurface v.id output, true⟩] <+: v.calls) :
    v.number (v.first + (madeFor v.first calls).length) = v.first + (v.surfaces calls).length := by
  obtain ⟨rest, hrest⟩ := h
  have hnew : v.first + (madeFor v.first calls).length ∉ v.surfaces calls := by
    intro hmem
    exact Nat.lt_irrefl _ (Ledger.grants_lt v.first calls (mem_surfaces.mp hmem))
  rw [number, ← hrest, surfaces_append, surfaces_snoc, List.append_assoc, List.idxOf_append_of_notMem hnew,
    List.singleton_append, List.idxOf_cons_self, Nat.add_zero]

theorem number_inj {surface surface' : Nat} (h : (v.id, surface) ∈ madeFor v.first v.calls)
    (heq : v.number surface = v.number surface') : surface = surface' :=
  (List.idxOf_inj (mem_surfaces.mpr h)).mp (Nat.add_left_cancel heq)

/-- From first to last the surfaces are numbered without gaps. -/
theorem number_surfaces :
    (v.surfaces v.calls).map v.number = List.range' v.first (v.surfaces v.calls).length := by
  have hnodup : (v.surfaces v.calls).Nodup :=
    (Ledger.grants_nodup v.first v.calls).sublist (List.filter_sublist.map _)
  refine List.ext_getElem (by simp) fun n hn hn' => ?_
  simp [number, hnodup.idxOf_getElem]

end View

/-! The entries in view of the calls so far. -/

/-- The entry's surface was made for its output, and its output came under its number. -/
structure Entered (v : View) (calls : List Call) (e : Screen) : Prop where
  surface : ∀ surface, e.surface = some surface → (e.id, surface) ∈ madeFor v.first calls
  output : e.output ∈ v.outputs ↔ e.id = v.id

/-- Surfaces are numbered as they are made, and every entry is as it should be. -/
structure Kept (v : View) (entries : List Screen) (r : Recorder) : Prop where
  next : r.nextHandle = v.first + (madeFor v.first r.calls).length
  entries : ∀ e ∈ entries, Entered v r.calls e

section Pass

variable {v : View} {op : Operation} {e : Screen} {rest : List Screen} {r : Recorder} {f : Fate}

theorem Entered.later {calls calls' : List Call} (h : Entered v calls e) (hmore : calls <+: calls') :
    Entered v calls' e :=
  ⟨fun surface hsurface => Ledger.grants_subset _ hmore (h.surface surface hsurface), h.output⟩

/-- The calls for an entry name its output or its surface. -/
theorem names_calls (hown : f.Own e) (h : Entered v r.calls e) (hwhole : r.calls <+: v.calls) {call : Call}
    (hcall : call ∈ f.calls e) : v.names call = decide (e.id = v.id) := by
  have houtput := h.output
  have hsurface {surface : Nat} (hs : e.surface = some surface) :
      surface ∈ v.surfaces v.calls ↔ e.id = v.id := by
    have hmade := Ledger.grants_subset _ hwhole (h.surface surface hs)
    rw [View.mem_surfaces]
    exact ⟨fun hmem => Ledger.grants_unique v.first v.calls hmade hmem, fun hid => hid ▸ hmade⟩
  cases hown with
  | stays _ _ _ own =>
    obtain ⟨hnone, -, surface, hnamed, hs⟩ := own call hcall
    simp [View.names, hnone, hnamed, hsurface hs]
  | covered =>
    obtain rfl := List.mem_singleton.mp hcall
    simp [View.names, Call.output?, Call.surface?, houtput]
  | goes =>
    obtain ⟨surface, hs, rfl⟩ | rfl := OutputEntry.mem_farewell.mp hcall
    · simp [View.names, Call.output?, Call.surface?, hsurface hs]
    · simp [View.names, Call.output?, Call.surface?, houtput]

/-- Only a surface for the entry is made. -/
theorem grants_calls (hown : f.Own e) {call : Call} (hcall : call ∈ f.calls e) (hid : e.id ≠ v.id) :
    call.grantedTo? ≠ some v.id := by
  cases hown with
  | stays _ _ _ own => simp [(own call hcall).2.1]
  | covered =>
    obtain rfl := List.mem_singleton.mp hcall
    simpa [Call.grantedTo?] using hid
  | goes => simp [Outputs.farewell_grants e call hcall]

/-- What becomes of another output leaves no trace in the view. -/
theorem record_other (hown : f.Own e) (h : Entered v r.calls e) (hwhole : r.calls <+: v.calls)
    (hid : e.id ≠ v.id) : v.record (f.settle e r).2 = v.record r := by
  have hnames : (f.calls e).filter v.names = [] := by
    refine List.filter_eq_nil_iff.mpr fun call hcall => ?_
    simp [names_calls hown h hwhole hcall, hid]
  simp only [View.record, Outputs.settle_calls, List.filter_append, hnames, List.append_nil,
    View.surfaces_same fun call hcall => grants_calls hown hcall hid]

/-- What becomes of the output itself becomes of it in the view. -/
theorem settle_own (hown : f.Own e) (h : Entered v r.calls e)
    (hnext : r.nextHandle = v.first + (madeFor v.first r.calls).length)
    (hwhole : (f.settle e r).2.calls <+: v.calls) (hid : e.id = v.id) :
    (f.renamed v.number).settle (e.renamed v.number) (v.record r) =
      ((f.settle e r).1.map (OutputEntry.renamed v.number), v.record (f.settle e r).2) := by
  rw [Outputs.settle_calls] at hwhole
  have hnames : (f.calls e).filter v.names = f.calls e :=
    List.filter_eq_self.mpr fun call hcall => by
      simp [names_calls hown h ((List.prefix_append ..).trans hwhole) hcall, hid]
  have hnoted (hgrants : ∀ call ∈ f.calls e, call.grantedTo? = none) :
      v.record (r.noting (f.calls e)) =
        (v.record r).noting ((f.calls e).map (Call.renamed v.number)) := by
    have hsame : v.surfaces (r.calls ++ f.calls e) = v.surfaces r.calls :=
      View.surfaces_same fun call hcall => by simp [hgrants call hcall]
    simp [View.record, Recorder.noting, hnames, hsame]
  cases hown with
  | stays _ _ _ own =>
    have hmade := hnoted fun call hcall => (own call hcall).2.1
    simp only [Fate.calls] at hmade
    simp [Fate.renamed, Fate.settle, hmade]
  | @covered e' =>
    have hcall : Fate.calls (.covered e') e = [⟨.createSurface v.id e.output, true⟩] := by
      rw [Fate.calls, hid]
    rw [hcall] at hwhole hnames
    have hnumber : v.number r.nextHandle = v.first + (v.surfaces r.calls).length := by
      rw [hnext, View.number_new e.output hwhole]
    have hsurfaces := View.surfaces_snoc v r.calls e.output
    simp [Fate.renamed, Fate.settle, OutputEntry.renamed, Recorder.noting, View.record, hnumber,
      hsurfaces, hnames, hid, Call.renamed, Nat.add_assoc]
  | goes =>
    have hmade := hnoted (Outputs.farewell_grants e)
    simp only [Fate.calls] at hmade
    simp [Fate.renamed, Fate.settle, Outputs.farewell_renamed, hmade]

theorem entered_settle (hown : f.Own e) (h : Entered v r.calls e)
    (hnext : r.nextHandle = v.first + (madeFor v.first r.calls).length) {e' : Screen}
    (he' : e' ∈ (f.settle e r).1) : Entered v (f.settle e r).2.calls e' := by
  have hlater : Entered v (f.settle e r).2.calls e :=
    h.later (Outputs.settle_calls f e r ▸ List.prefix_append ..)
  cases hown with
  | stays hid houtput hsurface =>
    obtain rfl := List.mem_singleton.mp he'
    refine ⟨fun surface hs => ?_, hid ▸ houtput ▸ hlater.output⟩
    exact hid ▸ hlater.surface surface (hsurface ▸ hs)
  | covered hid houtput =>
    obtain rfl := List.mem_singleton.mp he'
    refine ⟨fun surface hs => ?_, hid ▸ houtput ▸ hlater.output⟩
    obtain rfl : r.nextHandle = surface := Option.some.inj hs
    rw [Outputs.settle_calls, madeFor, Ledger.grants_append, hnext]
    refine List.mem_append_right _ ?_
    simp [Fate.calls, Ledger.grants, Call.grantedTo?, hid]
  | goes => exact absurd he' List.not_mem_nil

theorem next_settle (hown : f.Own e) (hnext : r.nextHandle = v.first + (madeFor v.first r.calls).length) :
    (f.settle e r).2.nextHandle = v.first + (madeFor v.first (f.settle e r).2.calls).length := by
  have hsame (hgrants : ∀ call ∈ f.calls e, call.grantedTo? = none) :
      r.nextHandle = v.first + (madeFor v.first (f.settle e r).2.calls).length := by
    rw [Outputs.settle_calls, madeFor, Ledger.grants_same _ _ _ hgrants, hnext]
  cases hown with
  | stays _ _ _ own => exact hsame fun call hcall => (own call hcall).2.1
  | covered =>
    rw [Outputs.settle_calls, madeFor, Ledger.grants_append, List.length_append, ← Nat.add_assoc, ← hnext]
    rfl
  | goes => exact hsame (Outputs.farewell_grants e)

theorem Kept.settled (pre post : List Screen) (hown : f.Own e) (h : Kept v (pre ++ e :: post) r) :
    Kept v (pre ++ (f.settle e r).1 ++ post) (f.settle e r).2 := by
  obtain ⟨he, hothers⟩ := forall_mem_middle.mp h.entries
  have hlater : ∀ x ∈ pre ++ post, Entered v (f.settle e r).2.calls x := fun x hx =>
    (hothers x hx).later (Outputs.settle_calls f e r ▸ List.prefix_append ..)
  refine ⟨next_settle hown h.next, ?_⟩
  simp only [List.forall_mem_append] at hlater ⊢
  exact ⟨⟨hlater.1, fun x hx => entered_settle hown he h.next hx⟩, hlater.2⟩

theorem Kept.passed (op : Operation) {entries : List Screen} (pre : List Screen)
    (h : Kept v (pre ++ entries) r) :
    Kept v (pre ++ (Outputs.pass op entries r).1) (Outputs.pass op entries r).2 := by
  induction entries generalizing pre r with
  | nil => exact h
  | cons e rest ih =>
    have hpassed := ih _ (h.settled pre rest (Outputs.fate_own op e))
    rwa [List.append_assoc] at hpassed

/-- What becomes of one entry, in view. -/
theorem settle_view (h : Kept v (e :: rest) r) (hwhole : ((fate op e).settle e r).2.calls <+: v.calls) :
    Outputs.pass op (v.entries [e]) (v.record r) =
      (v.entries ((fate op e).settle e r).1, v.record ((fate op e).settle e r).2) := by
  have hown := Outputs.fate_own op e
  have he := h.entries e List.mem_cons_self
  have hids : ∀ e' ∈ ((fate op e).settle e r).1, e'.id = e.id := fun e' => Outputs.settle_id hown
  by_cases hid : e.id = v.id
  · have hentries : v.entries ((fate op e).settle e r).1 =
        ((fate op e).settle e r).1.map (OutputEntry.renamed v.number) := by
      rw [View.entries, List.filter_eq_self.mpr fun e' he' => by simp [hids e' he', hid]]
    have hone : v.entries [e] = [e.renamed v.number] := by simp [View.entries, hid]
    rw [hone, Outputs.pass, Outputs.fate_renamed, settle_own hown he h.next hwhole hid, hentries]
    simp [Outputs.pass]
  · have hbefore : r.calls <+: v.calls :=
      (Outputs.settle_calls (fate op e) e r ▸ List.prefix_append ..).trans hwhole
    have hentries : v.entries ((fate op e).settle e r).1 = [] := by
      rw [View.entries, List.filter_eq_nil_iff.mpr fun e' he' => by simp [hids e' he', hid], List.map_nil]
    have hnone : v.entries [e] = [] := by simp [View.entries, hid]
    rw [hnone, hentries, record_other hown he hbefore hid, Outputs.pass]

/-- A pass over the view comes to what is in view of the pass. -/
theorem pass_view {entries : List Screen} (h : Kept v entries r)
    (hwhole : (Outputs.pass op entries r).2.calls <+: v.calls) :
    Outputs.pass op (v.entries entries) (v.record r) =
      (v.entries (Outputs.pass op entries r).1, v.record (Outputs.pass op entries r).2) := by
  induction entries generalizing r with
  | nil => rfl
  | cons e rest ih =>
    have hsettled : Kept v (((fate op e).settle e r).1 ++ rest) ((fate op e).settle e r).2 :=
      Kept.settled [] rest (Outputs.fate_own op e) h
    have hrest : Kept v rest ((fate op e).settle e r).2 :=
      ⟨hsettled.next, fun x hx => hsettled.entries x (List.mem_append_right _ hx)⟩
    -- the numbers are those of the whole run, so the calls of the pass are to be among its calls
    have hfirst := settle_view h ((Outputs.pass_calls op rest _).trans hwhole)
    have hcons : v.entries (e :: rest) = v.entries [e] ++ v.entries rest := View.entries_append v [e] rest
    rw [hcons, Outputs.pass_append, hfirst, ih hrest hwhole, Outputs.pass, View.entries_append]

end Pass

/-! Runs. -/

section Steps

variable {v : View} {s : Scene}

/-- A scene with its table in order, in which nothing is going to fail. -/
structure Regular (v : View) (s : Scene) : Prop where
  kept : Kept v s.1.entries s.2
  ordered : s.1.Ordered
  armed : s.2.armed = []

theorem ordered_view (h : s.1.Ordered) : Outputs.Ordered ⟨v.entries s.1.entries⟩ :=
  List.Pairwise.map _ (fun _ _ hlt => hlt) (h.filter _)

/-- The output in question arrives with a handle of its own, and no other output does. -/
def Arrives (v : View) (op : Operation) : Prop :=
  ∀ id output, op = .add id output → (output ∈ v.outputs ↔ id = v.id)

theorem Regular.next {op : Operation} (h : Regular v s) (harrives : Arrives v op) :
    Regular v (outcome (operate op) s).2 := by
  obtain ⟨t, r⟩ := s
  have hpassed : Kept v (Outputs.pass op t.entries r).1 (Outputs.pass op t.entries r).2 := h.kept.passed op []
  have harmed : (Outputs.pass op t.entries r).2.armed = [] := (Outputs.pass_armed _ r).trans h.armed
  have hordered := (Outputs.performs_operate h.ordered op).2
  cases op with
  | add id output =>
    obtain ⟨pre, post, hpass, -, hmade⟩ := Outputs.operate_add (r := r) h.ordered id output
    rw [hmade] at hordered ⊢
    rw [hpass] at hpassed
    refine ⟨⟨hpassed.next, forall_mem_middle.mpr ⟨?_, hpassed.entries⟩⟩, hordered, harmed⟩
    exact ⟨fun surface hs => by simp at hs, harrives id output rfl⟩
  | _ =>
    rw [Outputs.operate_pass h.ordered h.armed (by simp), Outputs.passed] at hordered ⊢
    exact ⟨hpassed, hordered, harmed⟩

/-- An operation addressed to another output passes this one by. -/
theorem fate_other {op : Operation} (hother : concerns v.id op = false) {e : Screen} (hid : e.id = v.id) :
    fate op e = .stays e [] := by
  cases op with
  | add id _ | event id _ _ | remove id =>
    have hne : e.id ≠ id := by simpa [concerns, hid, eq_comm] using hother
    exact if_neg hne
  | configure id _ _ =>
    have hne : e.id ≠ id := by simpa [concerns, hid, eq_comm] using hother
    cases hsurface : e.surface <;> simp [fate, hsurface, hne]
  | _ => exact absurd hother (by simp [concerns])

theorem pass_other {op : Operation} (hother : concerns v.id op = false) (entries : List Screen)
    (r : Recorder) : Outputs.pass op (v.entries entries) r = (v.entries entries, r) := by
  refine Outputs.pass_past (fun e he => fate_other hother ?_) r
  obtain ⟨e, hmem, rfl⟩ := List.mem_map.mp he
  exact of_decide_eq_true (List.mem_filter.mp hmem).2

/-- An operation that concerns the output does in view what it does. -/
theorem operate_view {op : Operation} (h : Regular v s) (hconcerns : concerns v.id op)
    (hwhole : (outcome (operate op) s).2.2.calls <+: v.calls) :
    (outcome (operate op) (v.scene s)).2 = v.scene (outcome (operate op) s).2 := by
  obtain ⟨t, r⟩ := s
  have hordered : Outputs.Ordered ⟨v.entries t.entries⟩ := ordered_view h.ordered
  cases op with
  | add id output =>
    obtain rfl : id = v.id := by simpa [concerns] using hconcerns
    obtain ⟨pre, post, hpass, hothers, hmade⟩ := Outputs.operate_add (r := r) h.ordered v.id output
    obtain ⟨pre', post', hpass', -, hmade'⟩ := Outputs.operate_add (r := v.record r) hordered v.id output
    rw [hmade] at hwhole ⊢
    have hview := pass_view h.kept hwhole
    have hnone : (pre ++ post).filter (·.id = v.id) = [] :=
      List.filter_eq_nil_iff.mpr fun e he => by simpa using hothers e he
    -- after the pass nothing of the output is in view, so there the new entry is the only one
    rw [hview, hpass, View.entries, hnone] at hpass'
    obtain ⟨rfl, rfl⟩ := List.append_eq_nil_iff.mp hpass'.symm
    rw [List.filter_append, List.append_eq_nil_iff] at hnone
    have hnew : v.entries (pre ++ { id := v.id, output } :: post) = [{ id := v.id, output }] := by
      simp [View.entries, hnone, OutputEntry.renamed]
    refine hmade'.trans ?_
    rw [hview, View.scene, hnew]
    rfl
  | _ =>
    rw [Outputs.operate_pass h.ordered h.armed (by simp), Outputs.passed] at hwhole ⊢
    refine (Outputs.operate_pass hordered rfl (by simp)).trans ?_
    rw [Outputs.passed, pass_view h.kept hwhole]
    rfl

/-- One addressed to another output leaves no trace in view. -/
theorem operate_other {op : Operation} (h : Regular v s) (hother : concerns v.id op = false)
    (hwhole : (outcome (operate op) s).2.2.calls <+: v.calls) :
    v.scene (outcome (operate op) s).2 = v.scene s := by
  obtain ⟨t, r⟩ := s
  have hpassed := pass_other hother t.entries (v.record r)
  cases op with
  | add id output =>
    have hid : id ≠ v.id := by simpa [concerns] using hother
    obtain ⟨pre, post, hpass, -, hmade⟩ := Outputs.operate_add (r := r) h.ordered id output
    rw [hmade] at hwhole ⊢
    rw [pass_view h.kept hwhole, hpass] at hpassed
    obtain ⟨hentries, hrecord⟩ := Prod.mk.inj hpassed
    have hnew : v.entries (pre ++ { id, output } :: post) = v.entries (pre ++ post) := by
      simp [View.entries, hid]
    rw [View.scene, View.scene, hnew, hentries, hrecord]
  | _ =>
    rw [Outputs.operate_pass h.ordered h.armed (by simp), Outputs.passed] at hwhole ⊢
    rw [pass_view h.kept hwhole] at hpassed
    obtain ⟨hentries, hrecord⟩ := Prod.mk.inj hpassed
    rw [View.scene, View.scene, hentries, hrecord]

/-- No call is taken back. -/
theorem calls_final (ops : List Operation) (h : s.1.Ordered) :
    s.2.calls <+: (Run.final operate ops s).2.calls := by
  induction ops generalizing s with
  | nil => exact List.prefix_rfl
  | cons op ops ih =>
    obtain ⟨⟨acts, hacts⟩, hordered⟩ := Outputs.performs_operate h op
    have hfirst : s.2.calls <+: (outcome (operate op) s).2.2.calls := ⟨_, hacts.calls.symm⟩
    exact hfirst.trans (ih hordered)

theorem Regular.final {ops : List Operation} (h : Regular v s) (harrives : ∀ op ∈ ops, Arrives v op) :
    Regular v (Run.final operate ops s) := by
  induction ops generalizing s with
  | nil => exact h
  | cons op ops ih =>
    obtain ⟨hop, hops⟩ := List.forall_mem_cons.mp harrives
    exact ih (h.next hop) hops

/-- A run of the operations that concern the output is what is in view of the whole run. -/
theorem final_view (ops : List Operation) (h : Regular v s) (harrives : ∀ op ∈ ops, Arrives v op)
    (hwhole : (Run.final operate ops s).2.calls <+: v.calls) :
    Run.final operate (ops.filter (concerns v.id)) (v.scene s) = v.scene (Run.final operate ops s) := by
  induction ops generalizing s with
  | nil => rfl
  | cons op ops ih =>
    obtain ⟨hop, hops⟩ := List.forall_mem_cons.mp harrives
    have hnext := h.next hop
    have hfirst : (outcome (operate op) s).2.2.calls <+: v.calls :=
      (calls_final ops hnext.ordered).trans hwhole
    have hlater := ih hnext hops hwhole
    cases hconcerns : concerns v.id op with
    | true =>
      rw [List.filter_cons_of_pos hconcerns]
      rw [← operate_view h hconcerns hfirst] at hlater
      exact hlater
    | false =>
      rw [List.filter_cons_of_neg (by simp [hconcerns])]
      rw [operate_other h hconcerns hfirst] at hlater
      exact hlater

end Steps

theorem regular_start (v : View) : Regular v (⟨[]⟩, { nextHandle := v.first }) :=
  ⟨⟨rfl, by simp⟩, List.Pairwise.nil, rfl⟩

/-- Where all there is is in view, all surfaces are the output's and all calls are for it. -/
theorem whole_view {v : View} {s : Scene} (h : Regular v s) (hsame : v.scene s = s)
    (hcalls : v.calls = s.2.calls) :
    v.surfaces v.calls = List.range' v.first (v.surfaces v.calls).length ∧ v.own = v.calls := by
  have hnext : v.first + (v.surfaces v.calls).length = v.first + (madeFor v.first v.calls).length := by
    rw [hcalls, ← h.kept.next]
    exact congrArg (·.2.nextHandle) hsame
  have hlength : (v.calls.filter v.names).length = v.calls.length := by
    have hnamed : (v.record s.2).calls = s.2.calls := congrArg (·.2.calls) hsame
    simpa [View.record, hcalls] using congrArg List.length hnamed
  constructor
  · have hall : (madeFor v.first v.calls).filter (·.1 = v.id) = madeFor v.first v.calls := by
      refine List.filter_eq_self.mpr (List.length_filter_eq_length_iff.mp ?_)
      simpa [View.surfaces] using hnext
    rw [View.surfaces, hall, madeFor, Ledger.grants, List.zipIdx_map_snd, List.length_range']
  · exact List.filter_eq_self.mpr (List.length_filter_eq_length_iff.mp hlength)

/-- What is done to other outputs can be left out of a run in which nothing fails. The surfaces of this
output are then numbered otherwise, and it ends up with the same entry, after the same calls for it and
for its surfaces. A handle has one owner, so those of this output are given to no other. -/
theorem outputs_independent (first : Nat) (id : OutputId) (ops : List Operation)
    (halone : ∀ output ∈ arrivals id ops, ∀ id', .add id' output ∈ ops → id' = id) :
    let start : Scene := (⟨[]⟩, { nextHandle := first })
    let all := Run.final operate ops start
    let alone := Run.final operate (ops.filter (concerns id)) start
    let view (s : Scene) : View := ⟨first, id, arrivals id ops, s.2.calls⟩
    ∃ rename : Nat → Nat,
      ((view all).surfaces all.2.calls).map rename = (view alone).surfaces alone.2.calls ∧
      (∀ surface ∈ (view all).surfaces all.2.calls, ∀ surface',
        rename surface = rename surface' → surface = surface') ∧
      (all.1.find? id).map (OutputEntry.renamed rename) = alone.1.find? id ∧
      (view all).own.map (Call.renamed rename) = (view alone).own := by
  intro start all alone view
  have harrives : ∀ op ∈ ops, ∀ s, Arrives (view s) op := by
    rintro _ hop s id' output rfl
    refine ⟨fun houtput => halone output houtput id' hop, fun hid => ?_⟩
    exact List.mem_filterMap.mpr ⟨_, hop, if_pos hid⟩
  have hall : alone = (view all).scene all :=
    final_view ops (regular_start (view all)) (fun op hop => harrives op hop all) List.prefix_rfl
  have hfew : ∀ op ∈ ops.filter (concerns id), Arrives (view alone) op := fun op hop =>
    harrives op (List.mem_filter.mp hop).1 alone
  have hagain : alone = (view alone).scene alone := by
    have htwice : (ops.filter (concerns id)).filter (concerns id) = ops.filter (concerns id) := by simp
    have hview := final_view _ (regular_start (view alone)) hfew List.prefix_rfl
    exact (congrArg (Run.final operate · start) htwice).symm.trans hview
  have hregular : Regular (view alone) alone := (regular_start (view alone)).final hfew
  obtain ⟨hsurfaces, hown⟩ := whole_view hregular hagain.symm rfl
  have hlength : ((view all).surfaces all.2.calls).length = ((view alone).surfaces alone.2.calls).length := by
    have hnext : ((view all).scene all).2.nextHandle = ((view alone).scene alone).2.nextHandle := by
      rw [← hall, ← hagain]
    exact Nat.add_left_cancel hnext
  refine ⟨(view all).number, ?_, ?_, ?_, ?_⟩
  · exact View.number_surfaces.trans ((congrArg (List.range' first ·) hlength).trans hsurfaces.symm)
  · exact fun surface hmem surface' => View.number_inj (View.mem_surfaces.mp hmem)
  · rw [hall]
    exact (View.find?_entries (view all) all.1.entries).symm
  · have hcalls : alone.2.calls = ((view all).scene all).2.calls := congrArg (·.2.calls) hall
    exact hcalls.symm.trans hown.symm

/-- A surface that is the second of all and the first of its output. -/
theorem second_surface_becomes_first :
    let ops : List Operation :=
      [.add 1 11, .add 2 12, .event 1 .done true, .event 2 .done true, .configure 2 ⟨7, 800, 600⟩ .white]
    (∀ output ∈ arrivals 2 ops, ∀ id', .add id' output ∈ ops → id' = 2) ∧
    ∃ rename : Nat → Nat, rename 2 = 1 ∧
      ((Run.final operate ops (⟨[]⟩, { nextHandle := 1 })).1.find? 2).map (OutputEntry.renamed rename) =
        (Run.final operate (ops.filter (concerns 2)) (⟨[]⟩, { nextHandle := 1 })).1.find? 2 := by
  intro ops
  have halone : ∀ output ∈ arrivals 2 ops, ∀ id', .add id' output ∈ ops → id' = 2 := by
    simp [ops, arrivals]
  obtain ⟨rename, hsurfaces, -, hentry, -⟩ := outputs_independent 1 2 ops halone
  let all := Run.final operate ops (⟨[]⟩, { nextHandle := 1 })
  let alone := Run.final operate (ops.filter (concerns 2)) (⟨[]⟩, { nextHandle := 1 })
  let view (s : Scene) : View := ⟨1, 2, arrivals 2 ops, s.2.calls⟩
  have hall : (view all).surfaces all.2.calls = [2] := by decide +kernel
  have hown : (view alone).surfaces alone.2.calls = [1] := by decide +kernel
  change ((view all).surfaces all.2.calls).map rename = (view alone).surfaces alone.2.calls at hsurfaces
  rw [hall, hown] at hsurfaces
  exact ⟨halone, rename, List.singleton_inj.mp hsurfaces, hentry⟩

end Independence

end ScreenLocker
