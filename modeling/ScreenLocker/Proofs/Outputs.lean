import ScreenLocker.Outputs
import ScreenLocker.Proofs.Recorder

/-! What the operations on the outputs do to the table, and which calls they make for it. -/

namespace ScreenLocker

namespace Outputs

variable {β O S : Type}

section Sweep

variable {step : OutputEntry O S → Try β (OutputEntry O S × Bool)}

theorem outcome_sweep_cons (e : OutputEntry O S) (rest : List (OutputEntry O S)) (b : β) :
    outcome (sweep step (e :: rest)) b =
      match tried (step e) b with
      | (.error err, b) => ((.error err, e :: rest), b)
      | (.ok (e, hit), b) =>
        let swept := outcome (sweep step rest) b
        ((swept.1.1.map (· + hit.toNat), e :: swept.1.2), swept.2) := by
  rcases hstep : tried (step e) b with ⟨r, b'⟩
  cases r <;> simp [sweep, hstep]

/-- What the step keeps of an entry it has passed is kept of all, however far the sweep came. -/
theorem sweep_keeps {P : OutputEntry O S → Prop}
    (hstep : ∀ {e e' hit b b'}, P e → tried (step e) b = (.ok (e', hit), b') → P e')
    {entries : List (OutputEntry O S)} (h : ∀ e ∈ entries, P e) (b : β) :
    ∀ e ∈ (outcome (sweep step entries) b).1.2, P e := by
  induction entries generalizing b with
  | nil => exact h
  | cons e rest ih =>
    obtain ⟨hfirst, hrest⟩ := List.forall_mem_cons.mp h
    rw [outcome_sweep_cons]
    rcases hmade : tried (step e) b with ⟨r, b'⟩
    cases r with
    | error err => exact h
    | ok made => exact List.forall_mem_cons.mpr ⟨hstep hfirst hmade, ih hrest b'⟩

/-- What the step makes of an entry holds of all of them once the sweep is through. -/
theorem sweep_makes {P Q : OutputEntry O S → Prop}
    (hstep : ∀ {e e' hit b b'}, P e → tried (step e) b = (.ok (e', hit), b') → Q e')
    {entries : List (OutputEntry O S)} (h : ∀ e ∈ entries, P e) (b : β) {n : Nat}
    (hdone : (outcome (sweep step entries) b).1.1 = .ok n) :
    ∀ e ∈ (outcome (sweep step entries) b).1.2, Q e := by
  induction entries generalizing b n with
  | nil => simp [sweep]
  | cons e rest ih =>
    obtain ⟨hfirst, hrest⟩ := List.forall_mem_cons.mp h
    rw [outcome_sweep_cons] at hdone ⊢
    rcases hmade : tried (step e) b with ⟨r, b'⟩
    rw [hmade] at hdone
    cases r with
    | error err => simp at hdone
    | ok made =>
      cases hswept : (outcome (sweep step rest) b').1.1 with
      | error err => simp [hswept] at hdone
      | ok count => exact List.forall_mem_cons.mpr ⟨hstep hfirst hmade, ih hrest b' hswept⟩

/-- A sweep fails in the state in which its step failed. -/
theorem sweep_fails {P : β → Prop}
    (hstep : ∀ {e err b b'}, tried (step e) b = (.error err, b') → P b')
    (entries : List (OutputEntry O S)) (b : β) {err : Error}
    (hfailed : (outcome (sweep step entries) b).1.1 = .error err) :
    P (outcome (sweep step entries) b).2 := by
  induction entries generalizing b err with
  | nil => simp [sweep] at hfailed
  | cons e rest ih =>
    rw [outcome_sweep_cons] at hfailed ⊢
    rcases hmade : tried (step e) b with ⟨r, b'⟩
    rw [hmade] at hfailed
    cases r with
    | error err => exact hstep hmade
    | ok made =>
      cases hswept : (outcome (sweep step rest) b').1.1 with
      | error err => exact ih b' hswept
      | ok count => simp [hswept] at hfailed

end Sweep

theorem tried_sweepAll (step : OutputEntry O S → Try β (OutputEntry O S × Bool)) (t : Outputs O S)
    (b : β) :
    tried (sweepAll step) (t, b) =
      let swept := outcome (sweep step t.entries) b
      (swept.1.1, (⟨swept.1.2⟩, swept.2)) := by
  rcases hswept : outcome (sweep step t.entries) b with ⟨⟨count, entries⟩, b'⟩
  cases count <;> simp [sweepAll, sweepAll.liftExcept, compositor, Part.right, hswept]

/-- The table with an entry written back. -/
def replaced (t : Outputs O S) (e : OutputEntry O S) : Outputs O S :=
  ⟨t.entries.map fun x => if x.id = e.id then e else x⟩

@[simp] theorem outcome_put (e : OutputEntry O S) (t : Outputs O S) :
    outcome (put e) t = ((), t.replaced e) := rfl

theorem replaced_forall {P : OutputEntry O S → Prop} {t : Outputs O S} {e : OutputEntry O S}
    (h : ∀ x ∈ t.entries, P x) (he : P e) : ∀ x ∈ (t.replaced e).entries, P x := by
  intro x hx
  obtain ⟨y, hy, rfl⟩ := List.mem_map.mp hx
  split
  · exact he
  · exact h y hy

theorem replaced_replaced {t : Outputs O S} {e e' : OutputEntry O S} (h : e'.id = e.id) :
    (t.replaced e).replaced e' = t.replaced e' := by
  unfold replaced
  rw [List.map_map]
  refine congrArg Outputs.mk (List.map_congr_left fun x _ => ?_)
  by_cases hx : x.id = e.id <;> simp [hx, h]

theorem place_forall {P : OutputEntry O S → Prop} {e : OutputEntry O S}
    {entries : List (OutputEntry O S)}
    (h : ∀ x ∈ entries, P x) (he : P e) : ∀ x ∈ (place e entries).2, P x := by
  induction entries with
  | nil => simpa [place] using he
  | cons x rest ih =>
    obtain ⟨hx, hrest⟩ := List.forall_mem_cons.mp h
    unfold place
    split
    · exact List.forall_mem_cons.mpr ⟨he, h⟩
    split
    · exact List.forall_mem_cons.mpr ⟨he, hrest⟩
    · exact List.forall_mem_cons.mpr ⟨hx, ih hrest⟩

theorem mem_of_find? {t : Outputs O S} {id : OutputId} {e : OutputEntry O S}
    (h : t.find? id = some e) :
    e ∈ t.entries := List.mem_of_find?_eq_some h

variable [Compositor β O S]

theorem outcome_add (id : OutputId) (output : O) (t : Outputs O S) (b : β) :
    outcome (add id output) (t, b) =
      let placed := place { id, output } t.entries
      ((), (⟨placed.2⟩,
        match placed.1 with | some old => (outcome old.release b).2 | none => b)) := by
  rcases hplaced : place { id, output } t.entries with ⟨stale, entries⟩
  cases stale <;> simp [add, compositor, Part.right, hplaced]

theorem outcome_remove (id : OutputId) (t : Outputs O S) (b : β) :
    outcome (remove id) (t, b) =
      match t.find? id with
      | none => (false, (t, b))
      | some e => (true, (⟨t.entries.filter (·.id ≠ id)⟩, (outcome e.release b).2)) := by
  cases hfind : t.find? id <;> simp [remove, compositor, Part.right, hfind]

theorem outcome_teardown (t : Outputs O S) (b : β) :
    outcome (teardown : Op (Outputs O S × β) Unit) (t, b) =
      ((), (⟨[]⟩, (outcome (t.entries.forM OutputEntry.release : Op β Unit) b).2)) := by
  simp [teardown, compositor, Part.right]

/-- The step of `ensureSurfaces` on one entry. -/
def coverReady (e : OutputEntry O S) : Try β (OutputEntry O S × Bool) := do
  if e.ready then pure (← e.createSurface, false) else pure (e, false)

theorem tried_ensureSurfaces (t : Outputs O S) (b : β) :
    tried (ensureSurfaces : Try (Outputs O S × β) Unit) (t, b) =
      let swept := outcome (sweep coverReady t.entries) b
      (swept.1.1.map fun _ => (), (⟨swept.1.2⟩, swept.2)) := by
  change tried (sweepAll coverReady >>= fun _ => pure ()) (t, b) = _
  rw [tried_bind, tried_sweepAll]
  rcases outcome (sweep coverReady t.entries) b with ⟨⟨count, entries⟩, b'⟩
  cases count <;> rfl

theorem tried_handleEvent (id : OutputId) (event : OutputEvent) (active : Bool) (t : Outputs O S)
    (b : β) :
    tried (handleEvent id event active) (t, b) =
      match t.find? id with
      | none => (.ok (), (t, b))
      | some e =>
        let e := e.update event
        if event = .done ∧ active then
          match tried e.createSurface b with
          | (.ok covered, b) => (.ok (), ((t.replaced e).replaced covered, b))
          | (.error err, b) => (.error err, (t.replaced e, b))
        else (.ok (), (t.replaced e, b)) := by
  cases hfind : t.find? id with
  | none => simp [handleEvent, hfind]
  | some e =>
  by_cases hcover : event = .done ∧ active
  · obtain ⟨rfl, rfl⟩ := hcover
    rcases hcreate : tried ((e.update .done).createSurface : Try β _) b with ⟨r, b'⟩
    cases r <;> simp [handleEvent, table, compositor, Part.left, Part.right, hfind, hcreate]
  · simp [handleEvent, table, Part.left, hfind, hcover]

theorem tried_handleConfigure (id : OutputId) (c : Configure) (fill : Color) (t : Outputs O S)
    (b : β) :
    tried (handleConfigure id c fill) (t, b) =
      match t.find? id with
      | none => (.ok (), (t, b))
      | some e =>
        match e.surface with
        | none => (.ok (), (t, b))
        | some surface =>
          let e := e.configure c
          match tried (e.present fill)
            (outcome (Compositor.acknowledge surface c.serial : Op β Unit) b).2 with
          | (.ok (painted, _), b) => (.ok (), ((t.replaced e).replaced painted, b))
          | (.error err, b) => (.error err, (t.replaced e, b)) := by
  cases hfind : t.find? id with
  | none => simp [handleConfigure, hfind]
  | some e =>
  cases hsurface : e.surface with
  | none => simp [handleConfigure, hfind, hsurface]
  | some surface =>
  rcases hpaint : tried ((e.configure c).present fill : Try β _)
    (outcome (Compositor.acknowledge surface c.serial : Op β Unit) b).2 with ⟨r, b'⟩
  cases r <;> simp [handleConfigure, table, compositor, Part.left, Part.right, hfind, hsurface,
    hpaint]

end Outputs

/-! Which calls are made. -/

namespace OutputEntry

open Recorder (Adds)

theorem adds_present (fill : Color) (e : OutputEntry Nat Nat) :
    Within (Adds Call.Plain) (e.present fill : Try Recorder _).run := by
  unfold present
  split
  · exact Within.pure _
  · next surface _ =>
    split
    · exact Within.pure _
    · dsimp only
      split
      · exact Within.tryBind (Within.tryLog _) fun _ => Within.pure _
      · refine Within.tryBind ?_ fun _ => Within.pure _
        exact Within.tryBind (Recorder.adds_ask _ fun _ => trivial) fun _ => Within.pure _

theorem adds_createSurface (e : OutputEntry Nat Nat) :
    Within (Adds Call.Covering) (e.createSurface : Try Recorder _).run := by
  unfold createSurface
  split
  · exact Within.pure _
  · refine Within.tryBind ?_ fun surface => Within.tryBind (Within.tryLog _) fun _ => Within.pure _
    exact Within.tryBind (Recorder.adds_ask _ fun _ => trivial) fun _ r =>
      ⟨[], (List.append_nil _).symm, by simp⟩

theorem adds_release (e : OutputEntry Nat Nat) :
    Within (Adds Call.Plain) (e.release : Op Recorder Unit) := by
  unfold release
  have houtput : Within (Adds Call.Plain) (Recorder.note (.releaseOutput e.output)) :=
    Recorder.adds_note _ trivial
  cases e.surface with
  | none => exact houtput
  | some surface =>
    exact Within.bind (Recorder.adds_note (.destroySurface surface) trivial) fun _ => houtput

end OutputEntry

namespace Outputs

open Recorder (Adds)

theorem adds_sweep {P : Call → Prop}
    {step : OutputEntry Nat Nat → Try Recorder (OutputEntry Nat Nat × Bool)}
    (h : ∀ e, Within (Adds P) (step e).run) (entries : List (OutputEntry Nat Nat)) :
    Within (Adds P) (sweep step entries) := by
  induction entries with
  | nil => exact Within.pure _
  | cons e rest ih =>
    refine Within.bind (h e) fun r => ?_
    split
    · exact Within.pure _
    · exact Within.bind ih fun _ => Within.pure _

/-- The bound on the calls of an operation that has the outputs at hand as well. -/
abbrev AddsCalls (P : Call → Prop) (s s' : Outputs Nat Nat × Recorder) : Prop := Adds P s.2 s'.2

theorem adds_render (fill : Color) :
    Within (AddsCalls Call.Plain) (render fill : Try (_ × Recorder) _).run := by
  rintro ⟨t, r⟩
  rw [outcome_run, render, tried_sweepAll]
  exact adds_sweep (OutputEntry.adds_present fill) t.entries r

theorem adds_ensureSurfaces :
    Within (AddsCalls Call.Covering) (ensureSurfaces : Try (_ × Recorder) Unit).run := by
  rintro ⟨t, r⟩
  rw [outcome_run, tried_ensureSurfaces]
  refine adds_sweep (fun e => ?_) t.entries r
  unfold coverReady
  split
  · exact Within.tryBind (OutputEntry.adds_createSurface e) fun _ => Within.pure _
  · exact Within.pure _

theorem adds_releaseAll (entries : List (OutputEntry Nat Nat)) :
    Within (Adds Call.Plain) (entries.forM OutputEntry.release : Op Recorder Unit) := by
  induction entries with
  | nil => exact Within.pure _
  | cons e rest ih => exact Within.bind (OutputEntry.adds_release e) fun _ => ih

theorem adds_add (id : OutputId) (output : Nat) :
    Within (AddsCalls Call.Plain) (add id output : Op (_ × Recorder) Unit) := by
  rintro ⟨t, r⟩
  rw [outcome_add]
  dsimp only
  split
  · exact OutputEntry.adds_release _ r
  · exact Std.Refl.refl r

theorem adds_remove (id : OutputId) :
    Within (AddsCalls Call.Plain) (remove id : Op (_ × Recorder) Bool) := by
  rintro ⟨t, r⟩
  rw [outcome_remove]
  split
  · exact Std.Refl.refl r
  · exact OutputEntry.adds_release _ r

theorem adds_teardown : Within (AddsCalls Call.Plain) (teardown : Op (_ × Recorder) Unit) := by
  rintro ⟨t, r⟩
  rw [outcome_teardown]
  exact adds_releaseAll t.entries r

theorem adds_handleConfigure (id : OutputId) (c : Configure) (fill : Color) :
    Within (AddsCalls Call.Plain) (handleConfigure id c fill : Try (_ × Recorder) Unit).run := by
  rintro ⟨t, r⟩
  rw [outcome_run, tried_handleConfigure]
  split
  · exact Std.Refl.refl r
  · next e _ =>
  split
  · exact Std.Refl.refl r
  · next surface _ =>
  dsimp only
  have hacknowledge :
      Adds Call.Plain r
      (outcome (Compositor.acknowledge surface c.serial : Op Recorder Unit) r).2 :=
    Recorder.adds_note _ trivial r
  generalize
    (outcome (Compositor.acknowledge surface c.serial : Op Recorder Unit) r).2 = r'
    at hacknowledge ⊢
  have hpresent : Adds Call.Plain r' (tried ((e.configure c).present fill : Try Recorder _) r').2 :=
    OutputEntry.adds_present fill (e.configure c) r'
  rcases hpaint : tried ((e.configure c).present fill : Try Recorder _) r' with ⟨painted, r''⟩
  rw [hpaint] at hpresent
  cases painted with
  | ok painted => exact hacknowledge.trans hpresent
  | error err => exact hacknowledge.trans hpresent

/-- Property events make no call but for a surface, and that only while a lock is active. -/
theorem adds_handleEvent (id : OutputId) (event : OutputEvent) (active : Bool) :
    Within (AddsCalls fun call => active ∧ call.Covering)
      (handleEvent id event active : Try (_ × Recorder) Unit).run := by
  rintro ⟨t, r⟩
  rw [outcome_run, tried_handleEvent]
  split
  · exact Std.Refl.refl r
  · next e _ =>
  dsimp only
  split
  · next hdone =>
    have hcreate :
        Adds Call.Covering r (tried ((e.update event).createSurface : Try Recorder _) r).2 :=
      OutputEntry.adds_createSurface (e.update event) r
    have hactive :=
      hcreate.mono (Q := fun call => active ∧ call.Covering) fun call hcall => ⟨hdone.2, hcall⟩
    rcases hsurface : tried ((e.update event).createSurface : Try Recorder _) r with ⟨covered, r'⟩
    rw [hsurface] at hactive
    cases covered with
    | ok covered => exact hactive
    | error err => exact hactive
  · exact Std.Refl.refl r

end Outputs

end ScreenLocker
