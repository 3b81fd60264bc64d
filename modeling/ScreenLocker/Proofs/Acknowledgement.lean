import ScreenLocker.Proofs.Books
import ScreenLocker.Proofs.Run

/-! Nothing is painted before the configure for it is acknowledged. The operations on the outputs may
come in any order, and the compositor may refuse what it likes. -/

namespace ScreenLocker

namespace Outputs

/-- The operations on the outputs. -/
inductive Operation where
  | add (id : OutputId) (output : Nat)
  | event (id : OutputId) (event : OutputEvent) (lockActive : Bool)
  | ensureSurfaces
  | configure (id : OutputId) (c : Configure) (fill : Color)
  | remove (id : OutputId)
  | damageAll
  | render (fill : Color)
  | teardown

/-- Carries out an operation; the answer says whether it failed. -/
def operate : Operation → Op Scene (Except Error Unit)
  | .add id output => .ok <$> add id output
  | .event id event lockActive => (handleEvent id event lockActive).run
  | .ensureSurfaces => ensureSurfaces.run
  | .configure id c fill => (handleConfigure id c fill).run
  | .remove id => (fun _ => .ok ()) <$> remove id
  | .damageAll => .ok <$> modify fun (t, r) => (t.damageAll, r)
  | .render fill => (fun drawn => drawn.map fun _ => ()) <$> (render fill).run
  | .teardown => .ok <$> teardown

abbrev Step := Moment Scene Operation (Except Error Unit)

/-- The calls made in one step. -/
def Step.calls (m : Step) : List Call := m.after.2.calls.drop m.before.2.calls.length

/-- Every operation comes to acts, and leaves the table in order. -/
theorem performs_operate {s : Scene} (h : s.1.Ordered) (op : Operation) :
    (∃ acts, Performs acts s (outcome (operate op) s).2) ∧ (outcome (operate op) s).2.1.Ordered := by
  obtain ⟨t, r⟩ := s
  have hdone {P : Act → Prop} {s' : Scene} (hP : ∀ a, P a → ¬ a.Receives) (hdoing : Doing P (t, r) s') :
      (∃ acts, Performs acts (t, r) s') ∧ s'.1.Ordered := by
    refine ⟨?_, Ordered.kept hP hdoing h⟩
    obtain ⟨acts, -, hacts⟩ := hdoing
    exact ⟨acts, hacts⟩
  cases op with
  | add id output =>
    obtain ⟨s, hreceived, acts, -, hreleased⟩ := doing_add id output t r
    exact ⟨⟨_, .cons hreceived hreleased⟩, ordered_add h id output r⟩
  | event id event lockActive =>
    refine hdone ?_ (doing_handleEvent h id event lockActive r)
    rintro a (⟨e, rfl⟩ | ⟨-, e, granted, rfl⟩) <;> simp [Act.Receives]
  | ensureSurfaces =>
    refine hdone ?_ (doing_ensureSurfaces t r)
    rintro a ⟨e, granted, rfl⟩
    simp [Act.Receives]
  | configure id c fill =>
    refine hdone ?_ (doing_handleConfigure h id c fill r)
    rintro a (⟨e, surface, rfl⟩ | ⟨e, surface, granted, rfl⟩) <;> simp [Act.Receives]
  | remove id =>
    refine hdone ?_ (doing_remove h id r)
    rintro a ⟨e, rfl⟩
    simp [Act.Receives]
  | damageAll =>
    refine hdone ?_ (doing_damageAll t r)
    rintro a ⟨e, rfl⟩
    simp [Act.Receives]
  | render fill =>
    refine hdone ?_ (doing_render fill t r)
    rintro a ⟨e, surface, granted, rfl⟩
    simp [Act.Receives]
  | teardown =>
    refine hdone ?_ (doing_teardown t r)
    rintro a ⟨e, rfl⟩
    simp [Act.Receives]

end Outputs

namespace Acknowledgement

open Act (Does Turns)
open Ledger (made)
open Outputs (Operation operate Step)

def acknowledges (call : Call) : Bool := call.request matches .acknowledge ..

/-- A configure was acknowledged on the surface after it was granted. -/
def Acknowledged (first surface : Nat) (calls : List Call) : Prop :=
  ∃ before serial after, calls = before ++ ⟨.acknowledge surface serial, true⟩ :: after ∧
    surface ∈ (made first before).map Prod.snd

/-- A call paints only what was acknowledged before it, and no picture is empty. -/
def Fits (first : Nat) (pre : List Call) (call : Call) : Prop :=
  ∀ surface picture, call.request = .present surface picture →
    Acknowledged first surface pre ∧ 1 ≤ picture.scale ∧ picture.width ≠ 0 ∧ picture.height ≠ 0

section Acknowledged

variable {first surface : Nat} {calls : List Call}

theorem Acknowledged.append (h : Acknowledged first surface calls) (new : List Call) :
    Acknowledged first surface (calls ++ new) := by
  obtain ⟨before, serial, after, rfl, hmade⟩ := h
  exact ⟨before, serial, after ++ new, by simp, hmade⟩

theorem acknowledged_snoc (surface serial : Nat) (h : surface ∈ (made first calls).map Prod.snd) :
    Acknowledged first surface (calls ++ [⟨.acknowledge surface serial, true⟩]) :=
  ⟨calls, serial, [], rfl, h⟩

/-- Another call than an acknowledgement on the surface makes no difference. -/
theorem acknowledged_other {call : Call} (h : ∀ serial, call.request ≠ .acknowledge surface serial) :
    Acknowledged first surface (calls ++ [call]) ↔ Acknowledged first surface calls := by
  refine ⟨fun hall => ?_, fun hcalls => hcalls.append [call]⟩
  obtain ⟨before, serial, after, hsplit, hmade⟩ := hall
  rcases mem_snoc_cases hsplit with ⟨-, rfl⟩ | ⟨rest, -, hcalls⟩
  · exact absurd rfl (h serial)
  · exact ⟨before, serial, rest, hcalls, hmade⟩

/-- What has been acknowledged was granted. -/
theorem Acknowledged.made (h : Acknowledged first surface calls) :
    surface < first + (made first calls).length := by
  obtain ⟨before, serial, after, rfl, hmade⟩ := h
  obtain ⟨m, hm, rfl⟩ := List.mem_map.mp hmade
  have hlt := Ledger.grants_lt first before hm
  rw [made, Ledger.grants_append, List.length_append]
  omega

end Acknowledged

/-- The entry knows whether its surface was acknowledged. -/
def Fair (first : Nat) (calls : List Call) (e : Screen) : Prop :=
  ∀ surface, e.surface = some surface → (e.configured ↔ Acknowledged first surface calls)

theorem Fair.other {first : Nat} {calls : List Call} {e : Screen} (h : Fair first calls e) {call : Call}
    (hother : ∀ surface serial, e.surface = some surface → call.request ≠ .acknowledge surface serial) :
    Fair first (calls ++ [call]) e := fun surface hsurface =>
  (h surface hsurface).trans (acknowledged_other fun serial => hother surface serial hsurface).symm

/-- The picture of a configured entry. -/
theorem Fair.picture {first : Nat} {calls : List Call} {e : Screen} (h : Fair first calls e)
    {surface : Nat} (hsurface : e.surface = some surface) (hconfigured : e.configured) {fill : Color}
    (hfull : (e.picture fill).width ≠ 0 ∧ (e.picture fill).height ≠ 0) (granted : Bool) :
    Fits first calls ⟨.present surface (e.picture fill), granted⟩ := by
  rintro _ _ hpresent
  obtain ⟨rfl, rfl⟩ := Request.present.inj hpresent
  exact ⟨(h surface hsurface).mp hconfigured, Int.le_max_right _ _, hfull⟩

structure Sound (first : Nat) (s : Scene) : Prop where
  calls : ∀ pre call post, s.2.calls = pre ++ call :: post → Fits first pre call
  entries : ∀ e ∈ s.1.entries, Fair first s.2.calls e

namespace Sound

variable {first : Nat}

/-- One more call that is neither a picture nor an acknowledgement. -/
theorem aside {t : Outputs Nat Nat} {r : Recorder} (h : Sound first (t, r)) (call : Call)
    (hcall : call.surface? = none ∨ ∃ surface, call.request = .destroySurface surface)
    {r' : Recorder} (hcalls : r'.calls = r.calls ++ [call]) : Sound first (t, r') where
  calls := by
    rw [hcalls]
    refine everywhere_snoc h.calls fun surface picture hpresent => ?_
    simp [Call.surface?, hpresent] at hcall
  entries := by
    rw [hcalls]
    refine fun e he => (h.entries e he).other fun surface serial _ hacknowledge => ?_
    simp [Call.surface?, hacknowledge] at hcall

/-- A surface that was just granted has not been acknowledged. -/
theorem covered {log : List Ledger.Mark} {s : Scene} (h : Books first log s) (call : Call)
    (hcall : ∀ surface serial, call.request ≠ .acknowledge surface serial) :
    ¬ Acknowledged first s.2.nextHandle (s.2.calls ++ [call]) := by
  rw [acknowledged_other (hcall _)]
  intro hacknowledged
  have hlt := hacknowledged.made
  rw [← h.next] at hlt
  exact Nat.lt_irrefl _ hlt

theorem turned {log : List Ledger.Mark} {a : Act} {e e' : Screen} {r r' : Recorder}
    {pre post : List Screen} (hbooks : Books first log (⟨pre ++ e :: post⟩, r))
    (h : Sound first (⟨pre ++ e :: post⟩, r)) (turn : Turns a e r e' r') :
    Sound first (⟨pre ++ e' :: post⟩, r') := by
  have he : e ∈ pre ++ e :: post := by simp
  obtain ⟨hfair, hothers⟩ := forall_mem_middle.mp h.entries
  cases turn with
  | updated =>
    obtain ⟨-, -, hsurface, hconfigured, -⟩ := e.update_keeps ‹_›
    refine ⟨h.calls, forall_mem_middle.mpr ⟨fun surface hheld => ?_, hothers⟩⟩
    rw [hconfigured]
    exact hfair surface (hsurface ▸ hheld)
  | damaged => exact ⟨h.calls, forall_mem_middle.mpr ⟨hfair, hothers⟩⟩
  | covered armed ready bare =>
    have hasked : Sound first
        (⟨pre ++ e :: post⟩, r.answering ⟨.createSurface e.id e.output, true⟩ armed) :=
      h.aside ⟨.createSurface e.id e.output, true⟩ (.inl rfl) rfl
    refine ⟨hasked.calls, forall_mem_middle.mpr ⟨?_, (forall_mem_middle.mp hasked.entries).2⟩⟩
    rintro surface hsurface
    obtain rfl : r.nextHandle = surface := Option.some.inj hsurface
    have hfresh := covered hbooks ⟨.createSurface e.id e.output, true⟩ (by simp)
    have hclear : e.configured = false := hbooks.bare e he bare
    simp only [hclear, Bool.false_eq_true, false_iff]
    exact hfresh
  | uncovered armed => exact h.aside ⟨.createSurface e.id e.output, false⟩ (.inl rfl) rfl
  | @configured _ surface _ c hsurface =>
    have hmade : surface ∈ (made first r.calls).map Prod.snd :=
      List.mem_map.mpr ⟨_, hbooks.made he hsurface, rfl⟩
    refine ⟨everywhere_snoc h.calls (by simp [Fits]), forall_mem_middle.mpr ⟨?_, fun x hx => ?_⟩⟩
    · rintro surface' hsurface'
      obtain rfl : surface = surface' := Option.some.inj (hsurface.symm.trans hsurface')
      exact ⟨fun _ => acknowledged_snoc surface c.serial hmade, fun _ => rfl⟩
    · refine (hothers x hx).other fun surface' serial hheld hsame => ?_
      obtain ⟨rfl, -⟩ := Request.acknowledge.inj hsame
      exact hbooks.apart hsurface x hx hheld
  | @painted _ surface fill _ armed hsurface hdue hfull =>
    have hcalls := everywhere_snoc h.calls (hfair.picture hsurface hdue.1 hfull true)
    refine ⟨hcalls, forall_mem_middle.mpr ⟨?_, fun x hx => ?_⟩⟩
    · exact hfair.other (by simp)
    · exact (hothers x hx).other (by simp)
  | @unpainted _ surface fill _ armed hsurface hdue hfull =>
    have hcalls := everywhere_snoc h.calls (hfair.picture hsurface hdue.1 hfull false)
    exact ⟨hcalls, fun x hx => (h.entries x hx).other (by simp)⟩

theorem done {log : List Ledger.Mark} {a : Act} {s s' : Scene} (hbooks : Books first log s)
    (h : Sound first s) (hdoes : Does a s s') : Sound first s' := by
  cases hdoes with
  | received => exact ⟨h.calls, forall_mem_middle.mpr ⟨by simp [Fair], h.entries⟩⟩
  | released pre post r e =>
    have hleft : Sound first (⟨pre ++ post⟩, r) := ⟨h.calls, (forall_mem_middle.mp h.entries).2⟩
    cases hsurface : e.surface with
    | none =>
      refine hleft.aside ⟨.releaseOutput e.output, true⟩ (.inl rfl) ?_
      simp [Recorder.noting, OutputEntry.farewell, hsurface]
    | some surface =>
      have hdestroyed : Sound first (⟨pre ++ post⟩, r.noting [⟨.destroySurface surface, true⟩]) :=
        hleft.aside ⟨.destroySurface surface, true⟩ (.inr ⟨surface, rfl⟩) rfl
      refine hdestroyed.aside ⟨.releaseOutput e.output, true⟩ (.inl rfl) ?_
      simp [Recorder.noting, OutputEntry.farewell, hsurface]
  | turned pre post turn => exact h.turned hbooks turn
  | asked t r armed lock => exact h.aside _ (.inl lock.nameless.1) rfl

theorem performed {log : List Ledger.Mark} {acts : List Act} {s s' : Scene} (hbooks : Books first log s)
    (h : Sound first s) (hacts : Performs acts s s') : Sound first s' := by
  let I (s : Scene) := (∃ log, Books first log s) ∧ Sound first s
  have hstep : ∀ a s s', True → Does a s s' → I s → I s' := by
    rintro a s s' - hdoes ⟨⟨log, hbooks⟩, hsound⟩
    exact ⟨⟨_, hbooks.done hdoes⟩, hsound.done hbooks hdoes⟩
  exact (Doing.keeps hstep ⟨acts, fun _ _ => trivial, hacts⟩ ⟨⟨log, hbooks⟩, h⟩).2

end Sound

/-- The books are in order, and so is what is painted. -/
def Kept (first : Nat) (s : Scene) : Prop := (∃ log, Books first log s) ∧ Sound first s ∧ s.1.Ordered

theorem kept_empty (armed : List ArmedFailure) (first : Nat) :
    Kept first (⟨[]⟩, { armed, nextHandle := first }) :=
  ⟨⟨[], .empty armed first⟩, ⟨by simp, by simp⟩, List.Pairwise.nil⟩

theorem Kept.next {first : Nat} {s : Scene} (h : Kept first s) (op : Operation) :
    Kept first (outcome (operate op) s).2 := by
  obtain ⟨⟨log, hbooks⟩, hsound, hordered⟩ := h
  obtain ⟨⟨acts, hacts⟩, hordered'⟩ := Outputs.performs_operate hordered op
  exact ⟨⟨_, hbooks.performed hacts⟩, hsound.performed hbooks hacts, hordered'⟩

/-- A configure is acknowledged once, whatever becomes of the picture. -/
theorem acknowledges_once {s : Scene} (hordered : s.1.Ordered) {id : OutputId} {e : Screen}
    (hfind : s.1.find? id = some e) {surface : Nat} (hsurface : e.surface = some surface)
    (c : Configure) (fill : Color) :
    ∃ painted, (∀ call ∈ painted, ¬ acknowledges call) ∧
      (tried (Outputs.handleConfigure id c fill) s).2.2.calls =
        s.2.calls ++ ⟨.acknowledge surface c.serial, true⟩ :: painted := by
  obtain ⟨t, r⟩ := s
  rcases Outputs.handleConfigure_cases hordered id c fill r with
    ⟨-, hnone⟩ | ⟨pre, e', post, held, -, hfind', hheld, htaken⟩
  · exact absurd (hsurface.symm.trans (hnone e hfind)) (by simp)
  obtain rfl : e = e' := Option.some.inj (hfind.symm.trans hfind')
  obtain rfl : surface = held := Option.some.inj (hsurface.symm.trans hheld)
  rw [htaken]
  rcases OutputEntry.present_cases fill (e.configure c)
      (r.noting [⟨.acknowledge surface c.serial, true⟩]) with
    ⟨hleft, -⟩ | ⟨_, armed, -, -, -, hpaint | ⟨err, hpaint⟩⟩
  · rw [hleft]
    exact ⟨[], by simp, rfl⟩
  · rw [hpaint]
    exact ⟨[_], by simp [acknowledges], List.append_assoc ..⟩
  · rw [hpaint]
    exact ⟨[_], by simp [acknowledges], List.append_assoc ..⟩

/-- Every picture comes after an acknowledgement on its surface, made since the surface was granted, and
is not empty. An entry is configured when its surface has been acknowledged and not before. Each
configure of an output with a surface is acknowledged once, with its serial. -/
theorem painted_after_acknowledged (armed : List ArmedFailure) (nextHandle : Nat)
    (ops : List Operation) :
    let start : Scene := (⟨[]⟩, { armed, nextHandle })
    let ms : List Step := Run.moments operate ops start
    let last := Run.final operate ops start
    (∀ pre surface picture granted post,
      last.2.calls = pre ++ ⟨.present surface picture, granted⟩ :: post →
        Acknowledged nextHandle surface pre ∧
        1 ≤ picture.scale ∧ picture.width ≠ 0 ∧ picture.height ≠ 0) ∧
    (∀ e ∈ last.1.entries, e.surface = none → e.configured = false) ∧
    (∀ e ∈ last.1.entries, ∀ surface, e.surface = some surface →
      (e.configured ↔ Acknowledged nextHandle surface last.2.calls)) ∧
    ∀ m ∈ ms, ∀ id c fill e surface, m.event = .configure id c fill → m.before.1.find? id = some e →
      e.surface = some surface →
        m.calls.filter acknowledges = [⟨.acknowledge surface c.serial, true⟩] := by
  intro start ms last
  have hstart : Kept nextHandle start := kept_empty armed nextHandle
  obtain ⟨⟨log, hbooks⟩, hsound, -⟩ : Kept nextHandle last :=
    Run.holds_final (P := fun _ s => Kept nextHandle s) (fun _ _ op h => h.next op) ops hstart
  refine ⟨?_, hbooks.bare, hsound.entries, ?_⟩
  · intro pre surface picture granted post hsplit
    exact hsound.calls pre _ post hsplit surface picture rfl
  · intro m hm id c fill e surface hevent hfind hsurface
    obtain ⟨pre, post, hsplit⟩ := List.append_of_mem hm
    obtain ⟨⟨-, -, hordered⟩, hmoment⟩ :=
      Run.holds_before (P := fun _ s => Kept nextHandle s) (fun _ _ op h => h.next op) hstart hsplit
    obtain ⟨painted, hpainted, hcalls⟩ := acknowledges_once hordered hfind hsurface c fill
    have hafter : m.after = (tried (Outputs.handleConfigure id c fill) m.before).2 := by
      rw [hmoment, hevent]
      rfl
    rw [Step.calls, hafter, hcalls, List.drop_left, List.filter_cons_of_pos rfl,
      List.filter_eq_nil_iff.mpr hpainted]

end Acknowledgement

end ScreenLocker
