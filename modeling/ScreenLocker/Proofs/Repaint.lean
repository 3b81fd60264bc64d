import Mathlib.Algebra.Group.Nat.Defs
import ScreenLocker.Proofs.UpToDate

/-! No repaint is lost. As long as nothing fails, whatever is marked for painting is painted at once, but
for a new size or scale, which waits for the end of its batch. -/

namespace ScreenLocker

namespace Repaint

open Act (Does Turns)
open Locker

/-- The entry has a picture to show and is marked for painting. -/
def Due (e : Screen) : Prop := e.configured ∧ e.dirty ∧ e.width ≠ 0 ∧ e.height ≠ 0

/-- The event brings a size or a scale that the output did not have. -/
def Alters (event : OutputEvent) (e : Screen) : Prop :=
  match event with
  | .geometry width height => e.geometry ≠ (width, height)
  | .scale factor => e.scale ≠ factor
  | .name _ | .done => False

/-- Whatever entry is due, there is a surface on which it is owed a picture. -/
def Settled (owed : OutputId → Nat → Prop) (s : Scene) : Prop :=
  ∀ e ∈ s.1.entries, Due e → ∃ surface, e.surface = some surface ∧ owed e.id surface

theorem Settled.mono {owed owed' : OutputId → Nat → Prop} {s : Scene} (h : Settled owed s)
    (hle : ∀ id surface, owed id surface → owed' id surface) : Settled owed' s := by
  intro e he hdue
  obtain ⟨surface, hsurface, howed⟩ := h e he hdue
  exact ⟨surface, hsurface, hle _ _ howed⟩

theorem due_update {event : OutputEvent} {e : Screen} (hdue : Due (e.update event)) :
    Alters event e ∨ Due e := by
  cases event with
  | geometry width height =>
    by_cases hsame : e.geometry = (width, height)
    · rw [OutputEntry.update, if_pos hsame] at hdue
      exact .inr hdue
    · exact .inl hsame
  | scale factor =>
    by_cases hsame : e.scale = factor
    · rw [OutputEntry.update, if_pos hsame] at hdue
      exact .inr hdue
    · exact .inl hsame
  | name text => exact .inr hdue
  | done => exact .inr hdue

/-- Acts that neither mark an entry for painting nor paint one. -/
def Calm : Act → Prop
  | .received .. | .released _ | .covered .. | .asked _ => True
  | .updated e event => ¬ Alters event e
  | .configured .. | .painted .. | .damaged _ => False

section Acts

variable {first : Nat} {log : List Ledger.Mark} {owed : OutputId → Nat → Prop} {a : Act}

theorem settled_turned {e e' : Screen} {r r' : Recorder} {pre post : List Screen}
    (hbooks : Books first log (⟨pre ++ e :: post⟩, r)) (hcalm : Calm a)
    (h : Settled owed (⟨pre ++ e :: post⟩, r)) (turn : Turns a e r e' r') :
    Settled owed (⟨pre ++ e' :: post⟩, r') := by
  obtain ⟨hentry, hothers⟩ := forall_mem_middle.mp h
  refine forall_mem_middle.mpr ⟨?_, hothers⟩
  cases turn with
  | updated =>
    intro hdue
    obtain ⟨hid, -, hsurface, -⟩ := e.update_keeps ‹_›
    rw [hid, hsurface]
    exact hentry ((due_update hdue).resolve_left hcalm)
  | covered armed ready bare =>
    have hclear := hbooks.bare e (by simp) bare
    simp [Due, hclear]
  | uncovered => exact hentry
  | configured => exact hcalm.elim
  | painted => exact hcalm.elim
  | unpainted => exact hcalm.elim
  | damaged => exact hcalm.elim

theorem settled_done {s s' : Scene} (hbooks : Books first log s) (hcalm : Calm a)
    (h : Settled owed s) (hdoes : Does a s s') :
    Settled owed s' ∧ ∀ surface, ∀ call ∈ a.calls, paints surface call = false := by
  cases hdoes with
  | received => exact ⟨forall_mem_middle.mpr ⟨by simp [Due], h⟩, by simp [Act.calls]⟩
  | released => exact ⟨(forall_mem_middle.mp h).2, fun _ _ => farewell_paints⟩
  | turned pre post turn =>
    refine ⟨settled_turned hbooks hcalm h turn, fun surface call hcall => ?_⟩
    cases turn with
    | updated => simp [Act.calls] at hcall
    | covered => rw [List.mem_singleton.mp hcall]; rfl
    | uncovered => rw [List.mem_singleton.mp hcall]; rfl
    | configured => exact hcalm.elim
    | painted => exact hcalm.elim
    | unpainted => exact hcalm.elim
    | damaged => exact hcalm.elim
  | asked t r armed lock =>
    refine ⟨h, fun surface call hcall => ?_⟩
    rw [List.mem_singleton.mp hcall]
    exact lock_paints lock surface

theorem settled_performed {acts : List Act} {s s' : Scene} (hbooks : Books first log s)
    (hcalm : ∀ a ∈ acts, Calm a) (h : Settled owed s) (hacts : Performs acts s s') :
    Settled owed s' ∧ ∀ call ∈ acts.flatMap Act.calls, ∀ surface, paints surface call = false := by
  let I (s : Scene) := (∃ log, Books first log s) ∧ Settled owed s
  have hstep : ∀ a s s', Calm a → Does a s s' → I s →
      I s' ∧ ∀ call ∈ a.calls, ∀ surface, paints surface call = false := by
    rintro a s s' hcalm hdoes ⟨⟨log, hbooks⟩, hs⟩
    obtain ⟨hafter, hcalls⟩ := settled_done hbooks hcalm hs hdoes
    exact ⟨⟨⟨_, hbooks.done hdoes⟩, hafter⟩, fun call hcall surface => hcalls surface call hcall⟩
  obtain ⟨⟨-, hafter⟩, hcalls⟩ := hacts.keeps hstep hcalm ⟨⟨log, hbooks⟩, h⟩
  exact ⟨hafter, hcalls⟩

/-- A picture is empty only if its entry is. -/
theorem picture_empty {e : Screen} {fill : Color}
    (h : (e.picture fill).width = 0 ∨ (e.picture fill).height = 0) : e.width = 0 ∨ e.height = 0 := by
  have hscale : 1 ≤ (max e.scale 1).toNat := by omega
  have hzero (n : Nat) (hmin : Nat.min (n * (max e.scale 1).toNat) maxDimension = 0) : n = 0 := by
    rcases Nat.min_eq_zero_iff.mp hmin with hmul | hmax
    · exact (Nat.mul_eq_zero.mp hmul).resolve_right (by omega)
    · exact absurd hmax (by decide)
  exact h.imp (hzero e.width) (hzero e.height)

/-- What is painted without a failure is not due any more. -/
theorem present_settles {fill : Color} {e e' : Screen} {hit : Bool} {r r' : Recorder}
    (hbare : e.surface = none → e.configured = false)
    (h : tried (e.present fill) r = (.ok (e', hit), r')) : ¬ Due e' := by
  rcases OutputEntry.present_cases fill e r with
    ⟨hleft, hreason⟩ | ⟨surface, armed, hsurface, hdue, hfull, hpaint | ⟨err, hpaint⟩⟩
  · obtain rfl : e = e' := by
      rw [hleft] at h
      exact congrArg Prod.fst (Except.ok.inj (congrArg Prod.fst h))
    rintro ⟨hconfigured, hdirty, hwidth, hheight⟩
    rcases hreason with hnone | hclean | hempty
    · simp [hbare hnone] at hconfigured
    · exact hclean ⟨hconfigured, hdirty⟩
    · exact (picture_empty hempty).elim hwidth hheight
  · obtain rfl : { e with dirty := false } = e' := by
      rw [hpaint] at h
      exact congrArg Prod.fst (Except.ok.inj (congrArg Prod.fst h))
    simp [Due]
  · rw [hpaint] at h
    exact absurd (congrArg Prod.fst h) (by simp)

/-- A repaint that comes through leaves nothing due. -/
theorem render_settles {s : Scene} (hbooks : Books first log s) {fill : Color} {n : Nat}
    (hok : (tried (Outputs.render fill) s).1 = .ok n) :
    ∀ e ∈ (tried (Outputs.render fill) s).2.1.entries, ¬ Due e := by
  obtain ⟨t, r⟩ := s
  rw [Outputs.render, Outputs.tried_sweepAll] at hok ⊢
  exact Outputs.sweep_makes present_settles hbooks.bare r hok

/-- A configure that comes through leaves its entry painted, and paints no other. -/
theorem configure_settles {s : Scene} (hbooks : Books first log s) (hordered : s.1.Ordered)
    (h : Settled owed s) (id : OutputId) (c : Configure) (fill : Color)
    (hok : (tried (Outputs.handleConfigure id c fill) s).1 = .ok ()) :
    let s' := (tried (Outputs.handleConfigure id c fill) s).2
    ∃ new, s'.2.calls = s.2.calls ++ new ∧
      Settled (fun id surface => owed id surface ∧ ∀ call ∈ new, paints surface call = false) s' := by
  obtain ⟨t, r⟩ := s
  rcases Outputs.handleConfigure_cases hordered id c fill r with
    ⟨hpassed, -⟩ | ⟨pre, e, post, surface, rfl, -, hsurface, htaken⟩
  · rw [hpassed]
    exact ⟨[], (List.append_nil _).symm, h.mono fun _ _ howed => ⟨howed, by simp⟩⟩
  rw [htaken] at hok ⊢
  obtain ⟨-, hothers⟩ := forall_mem_middle.mp h
  have hbare : (e.configure c).surface = none → (e.configure c).configured = false := fun hnone =>
    absurd (hsurface.symm.trans hnone) (by simp)
  have hrest (new : List Call) (hnew : ∀ x ∈ pre ++ post, ∀ other, x.surface = some other →
      ∀ call ∈ new, paints other call = false) : ∀ x ∈ pre ++ post, Due x → ∃ other,
      x.surface = some other ∧ owed x.id other ∧ ∀ call ∈ new, paints other call = false := by
    intro x hx hdue
    obtain ⟨other, hother, howed⟩ := hothers x hx hdue
    exact ⟨other, hother, howed, hnew x hx other hother⟩
  rcases OutputEntry.present_cases fill (e.configure c)
      (r.noting [⟨.acknowledge surface c.serial, true⟩]) with
    ⟨hpaint, -⟩ | ⟨held, armed, hheld, -, -, hpaint | ⟨err, hpaint⟩⟩
  · have hclean := present_settles hbare hpaint
    rw [hpaint]
    refine ⟨[_], rfl, forall_mem_middle.mpr ⟨fun hdue => absurd hdue hclean, hrest _ ?_⟩⟩
    simp [paints]
  · have hclean := present_settles hbare hpaint
    rw [hpaint]
    refine ⟨[_, _], List.append_assoc ..,
      forall_mem_middle.mpr ⟨fun hdue => absurd hdue hclean, hrest _ ?_⟩⟩
    intro x hx other hother
    simpa [paints] using surface_apart hbooks hheld hx hother
  · rw [hpaint] at hok
    exact absurd hok (by simp)

end Acts

/-- Nothing failed, and no failure is put aside. -/
def Quiet {σ : Type} (m : Step σ) : Prop := (∀ e, m.answer ≠ .failed e) ∧ m.after.fatal = none

/-- The output has been given a new size or scale since the surface was last painted. -/
def Altered {σ : Type} (ms : List (Step σ)) (id : OutputId) (surface : Nat) : Prop :=
  ∃ pre m post event old, ms = pre ++ m :: post ∧ m.event = .output id event ∧
    m.before.outputs.find? id = some old ∧ old.surface = some surface ∧ Alters event old ∧
    ∀ m' ∈ post, ∀ call ∈ m'.calls, call.granted → ¬ paints surface call

section Quiet

variable {σ : Type} {first : Nat} {log : List Ledger.Mark} {ms : List (Step σ)} {m : Step σ}
  {c : RecordedCore σ}

theorem Altered.later {id : OutputId} {surface : Nat} (h : Altered ms id surface)
    (hm : ∀ call ∈ m.calls, paints surface call = false) : Altered (ms ++ [m]) id surface := by
  obtain ⟨pre, m', post, event, old, rfl, hevent, hfind, hsurface, halters, hpost⟩ := h
  refine ⟨pre, m', post ++ [m], event, old, by simp, hevent, hfind, hsurface, halters, ?_⟩
  intro x hx
  rcases List.mem_append.mp hx with hx | hx
  · exact hpost x hx
  · rw [List.mem_singleton.mp hx]
    exact fun call hcall _ => by simp [hm call hcall]

theorem settled_later (new : List Call) (hcalls : m.after.backend.calls = m.before.backend.calls ++ new)
    (h : Settled (fun id surface => Altered ms id surface ∧ ∀ call ∈ new, paints surface call = false)
      (scene m.after)) : Settled (Altered (ms ++ [m])) (scene m.after) := by
  refine h.mono fun id surface ⟨haltered, hnew⟩ => haltered.later ?_
  rw [Step.calls_eq hcalls]
  exact hnew

theorem redraw_settles (hbooks : Books first log (scene c)) (hok : (tried Core.redraw c).1 = .ok ()) :
    ∀ e ∈ (tried Core.redraw c).2.outputs.entries, ¬ Due e := by
  obtain ⟨log', hmarked⟩ := books_damageAll hbooks
  rw [Core.tried_redraw] at hok ⊢
  cases hpaint : (tried (Outputs.render c.fill) (c.outputs.damageAll, c.backend)).1 with
  | error err => simp [hpaint] at hok
  | ok n => exact render_settles hmarked hpaint

/-- Short of a failure, an input or a reading does nothing for the outputs or leaves nothing due. -/
theorem advance_settles {accepts : Prop} {answer : Core.Answer} {c' : RecordedCore σ}
    (hbooks : Books first log (scene c)) (hanswer : ∀ e, answer ≠ .failed e) (hfatal : c'.fatal = none)
    (h : Core.Advance accepts c answer c') :
    scene c' = scene c ∨ ∀ e ∈ c'.outputs.entries, ¬ Due e := by
  cases h with
  | still => exact .inl rfl
  | accepted => exact .inl rfl
  | repainted a s hpainted =>
    exact .inr (redraw_settles (c := { c with auth := a, sink := s }) hbooks (hpainted hfatal hanswer))

/-- Short of a failure, nothing is due at the end of a batch. -/
theorem batch_settles (hkept : Kept first ms c) (id : OutputId)
    (hfatal : (outcome (Core.onOutputEvent id .done) c).2.fatal = none) :
    ∀ e ∈ (outcome (Core.onOutputEvent id .done) c).2.outputs.entries, ¬ Due e := by
  obtain ⟨hbooks, hordered⟩ := hkept
  obtain ⟨acts, -, hacts⟩ :=
    Outputs.doing_handleEvent hordered id .done c.session.isActive c.backend
  have htaken := hbooks.performed hacts
  rw [Core.outcome_onOutputEvent] at hfatal ⊢
  generalize tried (Outputs.handleEvent id .done c.session.isActive) (c.outputs, c.backend) = taken
    at htaken hfatal ⊢
  obtain ⟨taken, s⟩ := taken
  cases taken with
  | error err => exact absurd (Core.ok_of_parked hfatal) (by simp)
  | ok u =>
    simp only [if_true] at hfatal ⊢
    cases hpaint : (tried (Outputs.render c.fill) s).1 with
    | error err =>
      rw [hpaint] at hfatal
      exact absurd (Core.ok_of_parked hfatal) (by simp)
    | ok n => exact render_settles htaken hpaint

/-- Other properties are taken down without a call, and an entry that is due after them was due before or
was given a new size or scale. -/
theorem property_settles (hkept : Kept first ms c) (id : OutputId) {event : OutputEvent}
    (hdone : event ≠ .done) {owed : OutputId → Nat → Prop} (h : Settled owed (scene c)) :
    let c' := (outcome (Core.onOutputEvent id event) c).2
    c'.backend = c.backend ∧ Settled (fun id' surface => owed id' surface ∨ id' = id ∧ ∃ old,
      c.outputs.find? id = some old ∧ old.surface = some surface ∧ Alters event old) (scene c') := by
  intro c'
  obtain ⟨hbooks, hordered⟩ := hkept
  have hafter : c' = (outcome (Core.onOutputEvent id event) c).2 := rfl
  rw [Core.outcome_onOutputEvent, Outputs.tried_handleEvent] at hafter
  cases hfind : c.outputs.find? id with
  | none =>
    have hsame : c' = c := by simpa [hfind, hdone] using hafter
    exact ⟨congrArg _ hsame, hsame ▸ h.mono fun _ _ => .inl⟩
  | some e =>
  have hid : e.id = id := by simpa using List.find?_some hfind
  obtain ⟨pre, post, ht, hreplaced, -⟩ := hordered.split hfind
  obtain ⟨hsame, -, hsurface, hconfigured, -⟩ := e.update_keeps event
  have hnoted : c' = { c with outputs := ⟨pre ++ e.update event :: post⟩ } := by
    simpa [hfind, hdone, hreplaced _ hsame] using hafter
  rw [hnoted]
  unfold Settled scene at h
  rw [ht] at h
  obtain ⟨hentry, hothers⟩ := forall_mem_middle.mp h
  refine ⟨rfl, forall_mem_middle.mpr ⟨fun hdue => ?_, fun x hx hdue => ?_⟩⟩
  · rcases due_update hdue with halters | hbefore
    · cases hheld : e.surface with
      | none =>
        have hclear := hbooks.bare e (Outputs.mem_of_find? hfind) hheld
        rw [Due, hconfigured, hclear] at hdue
        exact absurd hdue.1 (by simp)
      | some surface =>
        exact ⟨surface, hsurface.trans hheld, .inr ⟨hsame.trans hid, e, rfl, hheld, halters⟩⟩
    · obtain ⟨surface, hheld, howed⟩ := hentry hbefore
      exact ⟨surface, hsurface.trans hheld, .inl (hsame ▸ howed)⟩
  · obtain ⟨surface, hheld, howed⟩ := hothers x hx hdue
    exact ⟨surface, hheld, .inl howed⟩

/-- Events that neither mark nor paint anything lead to calm acts. -/
theorem may_calm {p : LockPhase} {fill : Color} {e : Event σ} {a : Act} (he : ¬ Repaints e)
    (h : May p fill e a) : Calm a := by
  have hbounds := h.bounds
  cases a with
  | updated x event =>
    obtain ⟨id, rfl⟩ := hbounds
    exact absurd trivial he
  | configured x surface c =>
    obtain ⟨id, rfl⟩ := hbounds
    exact absurd trivial he
  | painted x surface f granted => exact absurd hbounds.2 he
  | damaged x => exact absurd hbounds he
  | _ => trivial

variable [CredentialSink σ]

theorem settled_next (hkept : Kept first ms c) (e : Event σ) (h : Settled (Altered ms) (scene c))
    (hquiet : Quiet (Run.moment perform c e)) :
    Settled (Altered (ms ++ [Run.moment perform c e])) (scene (Run.moment perform c e).after) := by
  let m : Step σ := Run.moment perform c e
  obtain ⟨hanswer, hfatal⟩ : Quiet m := hquiet
  obtain ⟨hbooks, hordered⟩ := hkept
  have hsame (hscene : scene m.after = scene c) : Settled (Altered (ms ++ [m])) (scene m.after) := by
    have hcalls : m.after.backend.calls = m.before.backend.calls ++ [] := by
      rw [List.append_nil]
      exact congrArg (·.2.calls) hscene
    refine settled_later [] hcalls ?_
    exact hscene ▸ h.mono fun _ _ howed => ⟨howed, by simp⟩
  have hclear (hnone : ∀ x ∈ m.after.outputs.entries, ¬ Due x) :
      Settled (Altered (ms ++ [m])) (scene m.after) := fun x hx hdue => absurd hdue (hnone x hx)
  by_cases hcalm : ¬ Repaints e
  · obtain ⟨⟨acts, hmay, hacts⟩, -⟩ := performs hordered e
    have hall : ∀ a ∈ receives e ++ acts, Calm a := by
      intro a ha
      rcases List.mem_append.mp ha with ha | ha
      · obtain ⟨id, output, rfl⟩ := receives_receives ha
        trivial
      · exact may_calm hcalm (hmay a ha)
    obtain ⟨hafter, hcalls⟩ := settled_performed hbooks hall h hacts
    refine settled_later _ hacts.calls (hafter.mono fun _ surface howed => ⟨howed, ?_⟩)
    exact fun call hcall => hcalls call hcall surface
  cases e with
  | output id event =>
    by_cases hdone : event = .done
    · subst hdone
      exact hclear (batch_settles ⟨hbooks, hordered⟩ id hfatal)
    · obtain ⟨hbackend, hafter⟩ := property_settles ⟨hbooks, hordered⟩ id hdone h
      have hcalls : m.calls = [] := by
        have hnew : m.after.backend.calls = m.before.backend.calls ++ [] :=
          (congrArg Recorder.calls hbackend).trans (List.append_nil _).symm
        exact Step.calls_eq hnew
      refine hafter.mono ?_
      rintro id' surface (howed | ⟨rfl, old, hfind, hsurface, halters⟩)
      · refine howed.later (m := m) ?_
        rw [hcalls]
        exact fun _ hcall => absurd hcall List.not_mem_nil
      · exact ⟨ms, m, [], event, old, rfl, rfl, hfind, hsurface, halters, by simp⟩
  | configure id event =>
    have hpark : m.after = Core.parked (tried (Outputs.handleConfigure id event c.fill) (scene c)).1
        (tried (Core.covering.attempt (Outputs.handleConfigure id event c.fill)) c).2 := by
      change (outcome (Core.onConfigure id event) c).2 = _
      rw [Core.onConfigure, outcome_bind, Core.outcome_parking]
      rfl
    have hok := Core.ok_of_parked (hpark ▸ hfatal)
    obtain ⟨new, hcalls, hafter⟩ := configure_settles hbooks hordered h id event c.fill hok
    have hscene : scene m.after = (tried (Outputs.handleConfigure id event c.fill) (scene c)).2 := by
      rw [hpark]
      rfl
    refine settled_later new ((congrArg (·.2.calls) hscene).trans hcalls) ?_
    exact hscene ▸ hafter
  | input event =>
    exact (advance_settles hbooks hanswer hfatal (Core.advance_input event c)).elim hsame hclear
  | judged read =>
    exact (advance_settles hbooks hanswer hfatal (Core.advance_reading read c)).elim hsame hclear
  | redraw =>
    refine hclear (redraw_settles hbooks ?_)
    cases hpaint : (tried Core.redraw c).1 with
    | ok u => rfl
    | error err => exact absurd (congrArg Core.Answer.ofResult hpaint) (hanswer err)
  | _ => exact absurd (not_false) hcalm

/-- A verdict in favour of the user is taken. -/
def Accepting (m : Step σ) : Prop := ∃ read, m.event = .judged read ∧ m.before.Accepts read

/-- Until a verdict is taken in favour of the user, every configured surface that is not marked was last
painted as its entry and the phase now say. As long as nothing has failed, a surface with a picture to
show is marked only for a new size or scale since it was last painted. -/
theorem clean_surfaces_current (armed : List ArmedFailure) (nextHandle : Nat) (sink : σ)
    (buffer : SecureBuffer) (ignoreEmpty : Bool) (palette : Palette) (es : List (Event σ)) :
    let start : RecordedCore σ := Core.fresh { armed, nextHandle } sink buffer ignoreEmpty palette
    let ms : List (Step σ) := Run.moments perform es start
    let last := Run.final perform es start
    ((∀ m ∈ ms, ¬ Accepting m) →
      ∀ e ∈ last.outputs.entries, e.configured → e.dirty = false →
        ∃ surface, e.surface = some surface ∧
          lastPicture surface last.backend.calls = some ⟨.present surface {
            width := min (e.width * (max 1 e.scale).toNat) (2 ^ 32 - 1)
            height := min (e.height * (max 1 e.scale).toNat) (2 ^ 32 - 1)
            scale := max 1 e.scale
            fill := last.fill }, true⟩) ∧
    ((∀ m ∈ ms, Quiet m) →
      ∀ e ∈ last.outputs.entries, e.configured → e.dirty → e.width ≠ 0 → e.height ≠ 0 →
        ∃ surface, e.surface = some surface ∧ Altered ms e.id surface) := by
  intro start ms last
  let P (ms : List (Step σ)) (c : RecordedCore σ) : Prop :=
    Kept nextHandle ms c ∧ ((∀ m ∈ ms, ¬ Accepting m) → AllUpToDate c.fill (scene c)) ∧
      ((∀ m ∈ ms, Quiet m) → Settled (Altered ms) (scene c))
  have hstart : P [] start :=
    ⟨kept_fresh armed nextHandle sink buffer ignoreEmpty palette,
      fun _ e he => absurd he List.not_mem_nil, fun _ e he => absurd he List.not_mem_nil⟩
  have hnext : ∀ ms c e, P ms c →
      P (ms ++ [Run.moment perform c e]) (Run.moment perform c e).after := by
    rintro ms c e ⟨hkept, hcurrent, hsettled⟩
    refine ⟨hkept.next e, fun hall => ?_, fun hall => ?_⟩
    · obtain ⟨hbefore, hlast⟩ := List.forall_mem_append.mp hall
      refine upToDate_next hkept e (fun read hread haccepts => ?_) (hcurrent hbefore)
      exact hlast _ (List.mem_singleton_self _) ⟨read, hread, haccepts⟩
    · obtain ⟨hbefore, hlast⟩ := List.forall_mem_append.mp hall
      exact settled_next hkept e (hsettled hbefore) (hlast _ (List.mem_singleton_self _))
  obtain ⟨-, hcurrent, hsettled⟩ : P ms last := Run.holds_final hnext es hstart
  refine ⟨fun hall e he hconfigured hclean => ?_, fun hall e he hconfigured hdirty hwidth hheight => ?_⟩
  · have hpicture := hcurrent hall e he hconfigured hclean
    rw [OutputEntry.picture, Int.max_comm] at hpicture
    exact hpicture
  · exact hsettled hall e he ⟨hconfigured, hdirty, hwidth, hheight⟩

/-- A new scale is painted at the end of its batch. -/
example :
    let es : List (Event SubmissionRecord) :=
      [.added 1 7, .output 1 .done, .start, .configure 1 ⟨9, 800, 600⟩, .output 1 (.scale 2)]
    let start : RecordedCore SubmissionRecord := Core.fresh {} {} ⟨zeros 8, 0, 64, 0, {}⟩ false {}
    let scaled := Run.final perform es start
    let painted := Run.final perform [.output 1 .done] scaled
    scaled.outputs.entries.map (·.dirty) = [true] ∧
      painted.outputs.entries.map (·.dirty) = [false] ∧
      lastPicture 1 painted.backend.calls = some ⟨.present 1 ⟨1600, 1200, 2, painted.fill⟩, true⟩ := by
  decide +kernel

end Quiet

end Repaint

end ScreenLocker
