import ScreenLocker.Proofs.Locker

/-! What is on the screens. A surface that is not marked for painting shows its output as it is now, in
the fill of the present phase: whatever changes an entry marks it, and a new phase marks all of them. -/

namespace ScreenLocker

namespace Repaint

open Act (Does Turns)
open Locker

/-- The call is to paint this surface. -/
def paints (surface : Nat) (call : Call) : Bool :=
  match call.request with
  | .present other _ => other = surface
  | _ => false

/-- The last call to paint this surface. -/
def lastPicture (surface : Nat) (calls : List Call) : Option Call :=
  (calls.filter (paints surface)).getLast?

theorem lastPicture_same {surface : Nat} (calls : List Call) {new : List Call}
    (h : ∀ call ∈ new, paints surface call = false) :
    lastPicture surface (calls ++ new) = lastPicture surface calls := by
  have hnew : new.filter (paints surface) = [] := List.filter_eq_nil_iff.mpr (by simpa using h)
  rw [lastPicture, List.filter_append, hnew, List.append_nil]
  rfl

theorem lastPicture_new (surface : Nat) (picture : Picture) (granted : Bool) (calls : List Call) :
    lastPicture surface (calls ++ [⟨.present surface picture, granted⟩]) =
      some ⟨.present surface picture, granted⟩ := by
  simp [lastPicture, paints]

/-- Unless it is to be painted, a configured entry shows what it should in this fill. -/
def UpToDate (fill : Color) (calls : List Call) (e : Screen) : Prop :=
  e.configured → e.dirty = false → ∃ surface, e.surface = some surface ∧
    lastPicture surface calls = some ⟨.present surface (e.picture fill), true⟩

def AllUpToDate (fill : Color) (s : Scene) : Prop := ∀ e ∈ s.1.entries, UpToDate fill s.2.calls e

theorem UpToDate.other {fill : Color} {calls new : List Call} {e : Screen} (h : UpToDate fill calls e)
    (hother : ∀ surface, e.surface = some surface → ∀ call ∈ new, paints surface call = false) :
    UpToDate fill (calls ++ new) e := by
  intro hconfigured hclean
  obtain ⟨surface, hsurface, hpicture⟩ := h hconfigured hclean
  exact ⟨surface, hsurface, (lastPicture_same calls (hother surface hsurface)).trans hpicture⟩

/-- A change of the picture marks the entry. -/
theorem UpToDate.update {fill : Color} {calls : List Call} {e : Screen} (h : UpToDate fill calls e)
    (event : OutputEvent) : UpToDate fill calls (e.update event) := by
  cases event with
  | geometry width height =>
    unfold OutputEntry.update
    dsimp only
    split
    · exact h
    · simp [UpToDate]
  | scale factor =>
    unfold OutputEntry.update
    dsimp only
    split
    · exact h
    · simp [UpToDate]
  | name text => exact h
  | done => exact h

theorem farewell_paints {surface : Nat} {e : Screen} {call : Call} (h : call ∈ e.farewell) :
    paints surface call = false := by
  unfold OutputEntry.farewell at h
  split at h
  · obtain rfl | rfl := by simpa using h
    · rfl
    · rfl
  · obtain rfl := by simpa using h
    rfl

theorem lock_paints {call : Call} (h : call.ForLock) (surface : Nat) : paints surface call = false := by
  obtain ⟨request, granted⟩ := call
  cases request <;> first | rfl | exact h.elim

section Acts

variable {first : Nat} {log : List Ledger.Mark} {fill : Color} {a : Act}

theorem surface_apart {pre post : List Screen} {e : Screen} {r : Recorder}
    (hbooks : Books first log (⟨pre ++ e :: post⟩, r)) {surface : Nat}
    (hsurface : e.surface = some surface)
    {x : Screen} (hx : x ∈ pre ++ post) {other : Nat} (hother : x.surface = some other) :
    surface ≠ other := fun heq => hbooks.apart hsurface x hx (heq ▸ hother)

theorem upToDate_turned {e e' : Screen} {r r' : Recorder} {pre post : List Screen}
    (hbooks : Books first log (⟨pre ++ e :: post⟩, r)) (hfill : ∀ f, a.Paints f → f = fill)
    (h : AllUpToDate fill (⟨pre ++ e :: post⟩, r)) (turn : Turns a e r e' r') :
    AllUpToDate fill (⟨pre ++ e' :: post⟩, r') := by
  obtain ⟨hentry, hothers⟩ := forall_mem_middle.mp h
  have hrest (call : Call) (hcall : ∀ x ∈ pre ++ post, ∀ surface, x.surface = some surface →
      paints surface call = false) : ∀ x ∈ pre ++ post, UpToDate fill (r.calls ++ [call]) x :=
    fun x hx => (hothers x hx).other fun surface hsurface => by
      simpa using hcall x hx surface hsurface
  refine forall_mem_middle.mpr ?_
  cases turn with
  | updated => exact ⟨hentry.update _, hothers⟩
  | damaged => exact ⟨by simp [UpToDate], hothers⟩
  | covered armed ready bare =>
    have hclear := hbooks.bare e (by simp) bare
    exact ⟨by simp [UpToDate, hclear], hrest _ fun _ _ _ _ => rfl⟩
  | uncovered armed ready bare =>
    have hclear := hbooks.bare e (by simp) bare
    exact ⟨by simp [UpToDate, hclear], hrest _ fun _ _ _ _ => rfl⟩
  | configured => exact ⟨by simp [UpToDate, OutputEntry.configure], hrest _ fun _ _ _ _ => rfl⟩
  | @painted _ surface f _ armed hsurface =>
    obtain rfl : f = fill := hfill f ⟨_, _, _, rfl⟩
    refine ⟨fun _ _ => ⟨surface, hsurface, lastPicture_new surface _ true r.calls⟩, hrest _ ?_⟩
    exact fun x hx other hother => by simpa [paints] using surface_apart hbooks hsurface hx hother
  | unpainted armed hsurface hdue =>
    refine ⟨by simp [UpToDate, hdue.2], hrest _ ?_⟩
    exact fun x hx other hother => by simpa [paints] using surface_apart hbooks hsurface hx hother

theorem upToDate_done {s s' : Scene} (hbooks : Books first log s) (hfill : ∀ f, a.Paints f → f = fill)
    (h : AllUpToDate fill s) (hdoes : Does a s s') : AllUpToDate fill s' := by
  cases hdoes with
  | received => exact forall_mem_middle.mpr ⟨by simp [UpToDate], h⟩
  | released pre post r e =>
    exact fun x hx => ((forall_mem_middle.mp h).2 x hx).other fun _ _ _ => farewell_paints
  | turned pre post turn => exact upToDate_turned hbooks hfill h turn
  | asked t r armed lock =>
    refine fun x hx => (h x hx).other fun surface _ call hcall => ?_
    rw [List.mem_singleton.mp hcall]
    exact lock_paints lock surface

/-- Acts that paint in one fill only. -/
theorem upToDate_performed {acts : List Act} {s s' : Scene} (hbooks : Books first log s)
    (hfill : ∀ a ∈ acts, ∀ f, a.Paints f → f = fill) (h : AllUpToDate fill s)
    (hacts : Performs acts s s') : AllUpToDate fill s' := by
  let I (s : Scene) := (∃ log, Books first log s) ∧ AllUpToDate fill s
  have hstep : ∀ a s s', (∀ f, a.Paints f → f = fill) → Does a s s' → I s → I s' := by
    rintro a s s' hfill hdoes ⟨⟨log, hbooks⟩, hs⟩
    exact ⟨⟨_, hbooks.done hdoes⟩, upToDate_done hbooks hfill hs hdoes⟩
  exact (Doing.keeps hstep ⟨acts, hfill, hacts⟩ ⟨⟨log, hbooks⟩, h⟩).2

end Acts

section Current

variable {σ : Type} {first : Nat} {log : List Ledger.Mark} {ms : List (Step σ)} {c : RecordedCore σ}

theorem books_damageAll (hbooks : Books first log (scene c)) :
    ∃ log', Books first log' (c.outputs.damageAll, c.backend) := by
  obtain ⟨acts, -, hacts⟩ := Outputs.doing_damageAll c.outputs c.backend
  exact ⟨_, hbooks.performed hacts⟩

/-- All entries are painted anew, so those that are clean afterwards show the present fill, whatever it
was before. -/
theorem upToDate_redraw (hbooks : Books first log (scene c)) :
    AllUpToDate c.fill (scene (tried Core.redraw c).2) := by
  obtain ⟨log', hmarked⟩ := books_damageAll hbooks
  obtain ⟨painting, hpaints, hpainted⟩ := Outputs.doing_render c.fill c.outputs.damageAll c.backend
  have hstale : AllUpToDate c.fill (c.outputs.damageAll, c.backend) := by
    intro e he
    obtain ⟨x, -, rfl⟩ := List.mem_map.mp he
    simp [UpToDate]
  rw [Core.tried_redraw]
  refine upToDate_performed hmarked ?_ hstale hpainted
  intro a ha f hf
  obtain ⟨e, surface, granted, rfl⟩ := hpaints a ha
  obtain ⟨e', surface', granted', heq⟩ := hf
  exact ((Act.painted.inj heq).2.2.1).symm

theorem upToDate_advance {accepts : Prop} (hnot : ¬ accepts) {answer : Core.Answer}
    {c' : RecordedCore σ} (hbooks : Books first log (scene c)) (h : AllUpToDate c.fill (scene c))
    (hadvance : Core.Advance accepts c answer c') : AllUpToDate c'.fill (scene c') := by
  cases hadvance with
  | @still _ a s fatal phase =>
    have hfill : Core.fill { c with auth := a, sink := s, fatal } = c.fill := by
      simp only [Core.fill, phase]
    rw [hfill]
    exact h
  | accepted a s success => exact absurd success hnot
  | @repainted _ a s fatal =>
    have hfill : Core.fill { (tried Core.redraw { c with auth := a, sink := s }).2 with fatal } =
        Core.fill { c with auth := a, sink := s } := fill_redraw _
    rw [hfill]
    exact upToDate_redraw (c := { c with auth := a, sink := s }) hbooks

variable [CredentialSink σ]

theorem upToDate_next (hkept : Kept first ms c) (e : Event σ)
    (hnot : ∀ read, e = .judged read → ¬ c.Accepts read) (h : AllUpToDate c.fill (scene c)) :
    let c' := (outcome (perform e) c).2
    AllUpToDate c'.fill (scene c') := by
  intro c'
  obtain ⟨hbooks, hordered⟩ := hkept
  by_cases haside : e.IsAside
  · obtain ⟨⟨acts, hmay, hacts⟩, -⟩ := performs hordered e
    have hfill : c'.fill = c.fill := fill_perform haside c
    rw [← hfill] at h
    refine upToDate_performed hbooks (fun a ha f hf => ?_) h hacts
    rcases List.mem_append.mp ha with ha | ha
    · obtain ⟨id, output, rfl⟩ := receives_receives ha
      obtain ⟨x, surface, granted, heq⟩ := hf
      exact absurd heq (by simp)
    · have hbounds := (hmay a ha).bounds
      obtain ⟨x, surface, granted, rfl⟩ := hf
      exact hbounds.1
  cases e with
  | input event => exact upToDate_advance not_false hbooks h (Core.advance_input event c)
  | judged read => exact upToDate_advance (hnot read rfl) hbooks h (Core.advance_reading read c)
  | _ => exact absurd trivial haside

end Current

end Repaint

end ScreenLocker
