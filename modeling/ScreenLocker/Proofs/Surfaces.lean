import ScreenLocker.Proofs.Outputs

/-! Which outputs have a lock surface. Surfaces are made in two places: for all outputs that are
ready when the lock is asked for, and for one output when it becomes ready under a lock. No other
operation makes one or takes one from an output that stays. -/

namespace ScreenLocker

/-- No surface has been refused. -/
def Recorder.Unrefused (r : Recorder) : Prop := ∀ call ∈ r.calls, call.covers → call.granted

theorem Recorder.Adds.unrefused {P : Call → Prop} {r r' : Recorder} (h : Adds P r r')
    (h' : r'.Unrefused) :
    r.Unrefused := by
  obtain ⟨new, hcalls, -⟩ := h
  intro call hcall
  exact h' call (hcalls ▸ List.mem_append_left _ hcall)

namespace OutputEntry

variable {O S : Type}

/-- A surface is had by ready outputs alone, and by all of them where they are to be covered. -/
def Fits (covered : Prop) (e : OutputEntry O S) : Prop :=
  (e.surface.isSome → e.ready) ∧ (covered → e.ready → e.surface.isSome)

theorem Fits.mono {covered covered' : Prop} {e : OutputEntry O S} (h : e.Fits covered)
    (hle : covered' → covered) :
    e.Fits covered' := ⟨h.1, fun hcovered => h.2 (hle hcovered)⟩

theorem Fits.same {covered : Prop} {e e' : OutputEntry O S} (h : e.Fits covered)
    (hready : e'.ready = e.ready)
    (hsurface : e'.surface.isSome = e.surface.isSome) : e'.Fits covered := by
  unfold Fits
  rw [hready, hsurface]
  exact h

theorem present_ok {fill : Color} {e e' : OutputEntry Nat Nat} {hit : Bool} {r r' : Recorder}
    (h : tried (e.present fill) r = (.ok (e', hit), r')) :
    e'.id = e.id ∧ e'.ready = e.ready ∧ e'.surface.isSome = e.surface.isSome := by
  cases hsurface : e.surface with
  | none =>
    simp [present, hsurface] at h
    simp [← h.1.1, hsurface]
  | some surface =>
  by_cases hskip : e.configured = false ∨ e.dirty = false
  · simp [present, hsurface, hskip] at h
    simp [← h.1.1, hsurface]
  by_cases hempty : (e.picture fill).width = 0 ∨ (e.picture fill).height = 0
  · simp [present, hsurface, hskip, hempty] at h
    simp [← h.1.1, hsurface]
  rcases hshown : tried (Compositor.present surface (e.picture fill) : Try Recorder Nat) r with
    ⟨shown, r''⟩
  cases shown with
  | ok shown =>
    simp [present, hsurface, hskip, hempty, hshown] at h
    simp [← h.1.1]
  | error err => simp [present, hsurface, hskip, hempty, hshown] at h

theorem createSurface_ok {e e' : OutputEntry Nat Nat} {r r' : Recorder}
    (h : tried e.createSurface r = (.ok e', r')) :
    e'.id = e.id ∧ e'.ready = e.ready ∧ e'.surface.isSome := by
  by_cases hhas : e.surface.isSome
  · simp [createSurface, hhas] at h
    simp [← h.1, hhas]
  rcases hmade : tried (Compositor.createSurface e.id e.output : Try Recorder Nat) r with
    ⟨surface, r''⟩
  cases surface with
  | ok surface =>
    simp [createSurface, hhas, hmade] at h
    simp [← h.1]
  | error err => simp [createSurface, hhas, hmade] at h

/-- A surface that was not made was refused. -/
theorem createSurface_error {e : OutputEntry Nat Nat} {err : Error} {r r' : Recorder}
    (h : tried e.createSurface r = (.error err, r')) : ¬ r'.Unrefused := by
  by_cases hhas : e.surface.isSome
  · simp [createSurface, hhas] at h
  have hasked : tried (Compositor.createSurface e.id e.output : Try Recorder Nat) r =
      tried (do Recorder.ask (.createSurface e.id e.output); liftM Recorder.newHandle) r := rfl
  rcases Recorder.tried_ask (.createSurface e.id e.output) r with ⟨armed, hask⟩ | ⟨e', armed, hask⟩
  · simp [createSurface, hhas, hasked, hask] at h
  · simp [createSurface, hhas, hasked, hask] at h
    rw [← h.2]
    intro hunrefused
    have := hunrefused ⟨.createSurface e.id e.output, false⟩ (by simp) rfl
    simp at this

/-- Only the end of a batch makes an output ready, and no property takes its surface. -/
theorem update_same {event : OutputEvent} (h : event ≠ .done) (e : OutputEntry O S) :
    (e.update event).ready = e.ready ∧ (e.update event).surface = e.surface := by
  cases event with
  | geometry width height => unfold update; dsimp only; split <;> exact ⟨rfl, rfl⟩
  | scale factor => unfold update; dsimp only; split <;> exact ⟨rfl, rfl⟩
  | name text => exact ⟨rfl, rfl⟩
  | done => exact absurd rfl h

end OutputEntry

namespace Outputs

open OutputEntry (Fits)
open Recorder (Adds)

/-- The outputs are as they should be: under an active lock all that are ready have their surfaces,
unless one has been refused. -/
def Lit (active : Bool) (s : Outputs Nat Nat × Recorder) : Prop :=
  ∀ e ∈ s.1.entries, e.Fits (active ∧ s.2.Unrefused)

/-- Entries that still fit after more calls have been made. -/
theorem Lit.later {active : Bool} {P : Call → Prop} {entries : List (OutputEntry Nat Nat)}
    {r r' : Recorder} (h : ∀ e ∈ entries, e.Fits (active ∧ r.Unrefused)) (hcalls : Adds P r r') :
    ∀ e ∈ entries, e.Fits (active ∧ r'.Unrefused) :=
  fun e he => (h e he).mono fun hcovered => ⟨hcovered.1, hcalls.unrefused hcovered.2⟩

/-- Without an active lock the compositor's answers do not matter. -/
theorem Lit.inactive {active : Bool} {t : Outputs Nat Nat} {r : Recorder} (h : Lit active (t, r))
    (r' : Recorder) :
    Lit false (t, r') := fun e he => (h e he).mono fun hcovered => absurd hcovered.1 (by simp)

/-- The outputs stay as they should be, under an active lock or without one. -/
def Keeps (s s' : Outputs Nat Nat × Recorder) : Prop := ∀ active, Lit active s → Lit active s'

theorem keeps_add (id : OutputId) (output : Nat) :
    Within Keeps (add id output : Op (_ × Recorder) Unit) := by
  rintro ⟨t, r⟩ active h
  have hcalls := adds_add id output (t, r)
  have hnew : Fits (active ∧ r.Unrefused) ({ id, output } : OutputEntry Nat Nat) :=
    ⟨by simp, by simp⟩
  rw [outcome_add] at hcalls ⊢
  exact Lit.later (place_forall h hnew) hcalls

theorem keeps_remove (id : OutputId) : Within Keeps (remove id : Op (_ × Recorder) Bool) := by
  rintro ⟨t, r⟩ active h
  have hcalls := adds_remove id (t, r)
  rw [outcome_remove] at hcalls ⊢
  split at hcalls
  · exact h
  · exact Lit.later (fun x hx => h x ((List.mem_filter.mp hx).1)) hcalls

theorem keeps_damageAll (t : Outputs Nat Nat) (r : Recorder) : Keeps (t, r) (t.damageAll, r) := by
  intro active h x hx
  obtain ⟨e, he, rfl⟩ := List.mem_map.mp hx
  exact (h e he).same rfl rfl

theorem keeps_render (fill : Color) : Within Keeps (render fill : Try (_ × Recorder) Nat).run := by
  rintro ⟨t, r⟩ active h
  have hcalls := adds_render fill (t, r)
  rw [outcome_run, render, tried_sweepAll] at hcalls ⊢
  refine Lit.later (sweep_keeps (fun hfits hpresent => ?_) h r) hcalls
  obtain ⟨-, hready, hsurface⟩ := OutputEntry.present_ok hpresent
  exact hfits.same hready hsurface

theorem keeps_handleConfigure (id : OutputId) (c : Configure) (fill : Color) :
    Within Keeps (handleConfigure id c fill : Try (_ × Recorder) Unit).run := by
  rintro ⟨t, r⟩ active h
  have hcalls := adds_handleConfigure id c fill (t, r)
  rw [outcome_run, tried_handleConfigure] at hcalls ⊢
  cases hfind : t.find? id with
  | none => exact h
  | some e =>
  cases hsurface : e.surface with
  | none => simpa [hsurface] using h
  | some surface =>
  simp only [hfind, hsurface] at hcalls ⊢
  have he : (e.configure c).Fits (active ∧ r.Unrefused) := (h e (mem_of_find? hfind)).same rfl rfl
  generalize
    (outcome (Compositor.acknowledge surface c.serial : Op Recorder Unit) r).2 = acknowledged
    at hcalls ⊢
  rcases hpaint : tried ((e.configure c).present fill : Try Recorder _) acknowledged with
    ⟨painted, r'⟩
  rw [hpaint] at hcalls
  cases painted with
  | error err => exact Lit.later (replaced_forall h he) hcalls
  | ok painted =>
    obtain ⟨hid, hready, hsurface⟩ := OutputEntry.present_ok hpaint
    exact Lit.later (replaced_forall (replaced_forall h he) (he.same hready hsurface)) hcalls

/-- An output that becomes ready under an active lock gets its surface at once. -/
theorem lit_handleEvent (id : OutputId) (event : OutputEvent) {active : Bool}
    {s : Outputs Nat Nat × Recorder}
    (h : Lit active s) : Lit active (tried (handleEvent id event active) s).2 := by
  obtain ⟨t, r⟩ := s
  have hcalls := adds_handleEvent id event active (t, r)
  rw [outcome_run, tried_handleEvent] at hcalls
  rw [tried_handleEvent]
  cases hfind : t.find? id with
  | none => exact h
  | some e =>
  have he : e.Fits (active ∧ r.Unrefused) := h e (mem_of_find? hfind)
  simp only [hfind] at hcalls ⊢
  have hready : (e.update .done).Fits False := ⟨fun _ => rfl, False.elim⟩
  by_cases hcover : event = .done ∧ active = true
  · obtain ⟨rfl, rfl⟩ := hcover
    simp only [and_self, if_true] at hcalls ⊢
    rcases hmade : tried ((e.update .done).createSurface : Try Recorder _) r with ⟨made, r'⟩
    rw [hmade] at hcalls
    cases made with
    | error err =>
      have hrefused := OutputEntry.createSurface_error hmade
      exact replaced_forall (Lit.later h hcalls) (hready.mono fun hcovered => hrefused hcovered.2)
    | ok made =>
      obtain ⟨hid, hsame, hsurface⟩ := OutputEntry.createSurface_ok hmade
      change Lit true ((t.replaced (e.update .done)).replaced made, r')
      rw [replaced_replaced hid]
      exact replaced_forall (Lit.later h hcalls) ⟨fun _ => hsame, fun _ _ => hsurface⟩
  · simp only [hcover, if_false]
    refine replaced_forall h ?_
    by_cases hdone : event = .done
    · subst hdone
      exact hready.mono fun hcovered => hcover ⟨rfl, hcovered.1⟩
    · obtain ⟨hsame, hsurface⟩ := OutputEntry.update_same hdone e
      exact he.same hsame (by rw [hsurface])

theorem coverReady_ok {e e' : OutputEntry Nat Nat} {hit : Bool} {r r' : Recorder}
    (h : tried (coverReady e) r = (.ok (e', hit), r')) (he : e.Fits False) : e'.Fits True := by
  by_cases hready : e.ready
  · rcases hmade : tried (e.createSurface : Try Recorder _) r with ⟨made, r''⟩
    cases made with
    | error err => simp [coverReady, hready, hmade] at h
    | ok made =>
      obtain ⟨-, hsame, hsurface⟩ := OutputEntry.createSurface_ok hmade
      simp [coverReady, hready, hmade] at h
      rw [← h.1.1]
      exact ⟨fun _ => hsame.trans hready, fun _ _ => hsurface⟩
  · simp [coverReady, hready] at h
    rw [← h.1.1]
    exact ⟨he.1, fun _ hyes => absurd hyes hready⟩

theorem coverReady_error {e : OutputEntry Nat Nat} {err : Error} {r r' : Recorder}
    (h : tried (coverReady e) r = (.error err, r')) : ¬ r'.Unrefused := by
  by_cases hready : e.ready
  · rcases hmade : tried (e.createSurface : Try Recorder _) r with ⟨made, r''⟩
    cases made with
    | ok made => simp [coverReady, hready, hmade] at h
    | error err' =>
      simp [coverReady, hready, hmade] at h
      exact h.2 ▸ OutputEntry.createSurface_error hmade
  · simp [coverReady, hready] at h

/-- Once the lock is asked for, all outputs that are ready already get their surfaces. -/
theorem lit_ensureSurfaces {s : Outputs Nat Nat × Recorder} (h : Lit false s) :
    Lit true (tried ensureSurfaces s).2 := by
  obtain ⟨t, r⟩ := s
  rw [tried_ensureSurfaces]
  have hbefore : ∀ e ∈ t.entries, e.Fits False := fun e he => (h e he).mono False.elim
  cases hswept : (outcome (sweep coverReady t.entries) r).1.1 with
  | error err =>
    have hrefused : ¬ (outcome (sweep coverReady t.entries) r).2.Unrefused :=
      sweep_fails (P := fun r => ¬ r.Unrefused) coverReady_error t.entries r hswept
    have hafter :=
      sweep_keeps (P := Fits False) (fun he hok => (coverReady_ok hok he).mono False.elim) hbefore r
    exact fun e he => (hafter e he).mono fun hcovered => hrefused hcovered.2
  | ok n =>
    have hafter :=
      sweep_makes (Q := Fits True) (fun he hok => coverReady_ok hok he) hbefore r hswept
    exact fun e he => (hafter e he).mono fun _ => trivial

end Outputs

end ScreenLocker
