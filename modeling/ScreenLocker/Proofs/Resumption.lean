import ScreenLocker.Proofs.Fates

/-! Passes over the outputs that the compositor interrupts. A pass that fails keeps what was granted before, and the
table records how far it came: called again, it goes on from there. However often it is interrupted, it comes to what
it comes to at once where nothing is refused. -/

namespace ScreenLocker

namespace Recorder

/-- The record of what was granted, with no failure to come. -/
def granted (r : Recorder) : Recorder := { r with calls := r.calls.filter Call.granted, armed := [] }

theorem granted_granted (r : Recorder) : r.granted.granted = r.granted := by
  simp [granted]

theorem granted_answering (r : Recorder) (request : Request) (armed : List ArmedFailure) :
    (r.answering ⟨request, true⟩ armed).granted = r.granted.noting [⟨request, true⟩] := by
  simp [granted, answering, noting]

theorem granted_refusing (r : Recorder) (request : Request) (armed : List ArmedFailure) :
    (r.answering ⟨request, false⟩ armed).granted = r.granted := by
  simp [granted, answering]

end Recorder

/-! What failures cost. -/

section Spends

variable {σ α γ : Type} {left : σ → Nat}

/-- Whatever state it starts in, the operation adds nothing to what is left, and fails only by using some of it up. -/
def Spends (left : σ → Nat) (x : Try σ α) : Prop :=
  ∀ s, left (tried x s).2 ≤ left s ∧ ∀ e, (tried x s).1 = .error e → left (tried x s).2 < left s

theorem Spends.free {x : Try σ α} (h : ∀ s, ∃ a, tried x s = (.ok a, s)) : Spends left x := by
  intro s
  obtain ⟨a, ha⟩ := h s
  rw [ha]
  exact ⟨Nat.le_refl _, nofun⟩

theorem Spends.pure (a : α) : Spends left (Pure.pure a : Try σ α) := .free fun _ => ⟨a, rfl⟩

theorem Spends.bind {x : Try σ α} {f : α → Try σ γ} (hx : Spends left x) (hf : ∀ a, Spends left (f a)) :
    Spends left (x >>= f) := by
  intro s
  obtain ⟨hkeeps, hfails⟩ := hx s
  rw [tried_bind]
  cases hfirst : (tried x s).1 with
  | error e => exact ⟨hkeeps, fun _ _ => hfails e hfirst⟩
  | ok a =>
    obtain ⟨hkeeps', hfails'⟩ := hf a (tried x s).2
    exact ⟨Nat.le_trans hkeeps' hkeeps, fun e he => Nat.lt_of_lt_of_le (hfails' e he) hkeeps⟩

end Spends

namespace Recorder

def failures (r : Recorder) : Nat := r.armed.length

/-- A request is refused by the first failure that is armed for it, and that failure is then past. -/
theorem trigger_length (name : String) (armed : List ArmedFailure) :
    (trigger name armed).2.length ≤ armed.length ∧
      ∀ e, (trigger name armed).1 = some e → (trigger name armed).2.length < armed.length := by
  induction armed with
  | nil => simp [trigger]
  | cons f rest ih =>
    by_cases hname : f.name = name
    · cases hskip : f.skip <;> simp [trigger, hname, hskip]
    · simpa [trigger, hname] using ih

theorem spends_ask (request : Request) : Spends failures (ask request) := by
  intro r
  obtain ⟨hkeeps, hfails⟩ := trigger_length request.name r.armed
  rcases htrigger : trigger request.name r.armed with ⟨failure, armed⟩
  rw [htrigger] at hkeeps hfails
  cases failure with
  | none => simpa [ask, htrigger, failures] using hkeeps
  | some e => simpa [ask, htrigger, failures] using ⟨hkeeps, hfails e rfl⟩

end Recorder

namespace OutputEntry

open Recorder (failures)

theorem spends_present (fill : Color) (e : Screen) : Spends failures (e.present fill : Try Recorder _) := by
  unfold present
  split
  · exact .pure _
  · split
    · exact .pure _
    · dsimp only
      split
      · exact .bind (.free fun _ => ⟨_, rfl⟩) fun _ => .pure _
      · refine .bind ?_ fun _ => .pure _
        exact .bind (Recorder.spends_ask _) fun _ => .pure _

theorem spends_createSurface (e : Screen) : Spends failures (e.createSurface : Try Recorder _) := by
  unfold createSurface
  split
  · exact .pure _
  · refine .bind ?_ fun _ => .bind (.free fun _ => ⟨_, rfl⟩) fun _ => .pure _
    refine .bind (Recorder.spends_ask _) fun _ => ?_
    intro r
    exact ⟨Nat.le_refl _, nofun⟩

end OutputEntry

namespace Outputs

open Recorder (failures)

theorem spends_coverReady (e : Screen) : Spends failures (coverReady e : Try Recorder _) := by
  unfold coverReady
  split
  · exact .bind e.spends_createSurface fun _ => .pure _
  · exact .pure _

/-! What a step of a pass does where it is granted, and where it is not. -/

/-- The step does to an entry what becomes of it if nothing is refused, unless it fails; then nothing is granted. An
entry that it has been done to is left as it is. -/
structure Settles (op : Operation) (step : Screen → Try Recorder (Screen × Bool)) : Prop where
  spends : ∀ e, Spends failures (step e)
  done : ∀ {e r e' hit r'}, tried (step e) r = (.ok (e', hit), r') →
    (fate op e).settle e r.granted = ([e'], r'.granted) ∧ ∀ r, tried (step e') r = (.ok (e', false), r)
  failed : ∀ {e r err r'}, tried (step e) r = (.error err, r') → r'.granted = r.granted

end Outputs

namespace OutputEntry

theorem Still.present {fill : Color} {e : Screen} (h : e.Still fill) (r : Recorder) :
    tried (e.present fill) r = (.ok (e, false), r) := by
  rcases present_cases fill e r with ⟨hleft, -⟩ | ⟨surface, armed, hheld, hdue, ⟨hwidth, hheight⟩, -⟩
  · exact hleft
  · rcases h with hnone | hidle | hempty | hempty
    · exact absurd (hheld.symm.trans hnone) (by simp)
    · exact absurd hdue hidle
    · exact absurd hempty hwidth
    · exact absurd hempty hheight

end OutputEntry

namespace Outputs

open OutputEntry (Still present_cases createSurface_cases)

theorem settles_present (fill : Color) : Settles (.render fill) (OutputEntry.present fill) where
  spends := OutputEntry.spends_present fill
  done {e r e' hit r'} h := by
    rcases present_cases fill e r with ⟨hleft, hstill⟩ | ⟨surface, armed, hheld, hdue, hfull, hpaint | ⟨err, hpaint⟩⟩
    · obtain ⟨⟨rfl, rfl⟩, rfl⟩ : (e = e' ∧ false = hit) ∧ r = r' := by simpa [hleft] using h
      have hshown : e.shown fill = (e, []) := Still.shown hstill
      exact ⟨by simp [fate, Fate.settle, hshown], Still.present hstill⟩
    · obtain ⟨⟨rfl, rfl⟩, rfl⟩ : ({ e with dirty := false } = e' ∧ true = hit) ∧
          r.answering ⟨.present surface (e.picture fill), true⟩ armed = r' := by simpa [hpaint] using h
      have hshown : e.shown fill = ({ e with dirty := false }, [⟨.present surface (e.picture fill), true⟩]) := by
        simp [OutputEntry.shown, hheld, hdue, hfull]
      exact ⟨by simp [fate, Fate.settle, hshown, Recorder.granted_answering], Still.present (.inr (.inl (by simp)))⟩
    · simp [hpaint] at h
  failed {e r err r'} h := by
    rcases present_cases fill e r with ⟨hleft, -⟩ | ⟨surface, armed, -, -, -, hpaint | ⟨err', hpaint⟩⟩
    · simp [hleft] at h
    · simp [hpaint] at h
    · obtain ⟨-, rfl⟩ := Prod.mk.inj (hpaint.symm.trans h)
      exact Recorder.granted_refusing ..

/-- An entry needs no surface, or has one, or one is made for it, or refused. -/
theorem coverReady_cases (e : Screen) (r : Recorder) :
    (tried (coverReady e) r = (.ok (e, false), r) ∧ (e.ready → e.surface.isSome)) ∨
    (e.ready ∧ e.surface = none) ∧ ∃ armed,
      (tried (coverReady e) r = (.ok ({ e with surface := some r.nextHandle }, false),
          { r.answering ⟨.createSurface e.id e.output, true⟩ armed with nextHandle := r.nextHandle + 1 }) ∨
        ∃ err, tried (coverReady e) r = (.error err, r.answering ⟨.createSurface e.id e.output, false⟩ armed)) := by
  by_cases hready : e.ready
  · rcases e.createSurface_cases r with ⟨hleft, hhas⟩ | ⟨hbare, armed, hmade | ⟨err, hmade⟩⟩
    · exact .inl ⟨by simp [coverReady, hready, hleft], fun _ => hhas⟩
    · exact .inr ⟨⟨hready, hbare⟩, armed, .inl (by simp [coverReady, hready, hmade])⟩
    · exact .inr ⟨⟨hready, hbare⟩, armed, .inr ⟨err, by simp [coverReady, hready, hmade]⟩⟩
  · exact .inl ⟨by simp [coverReady, hready], fun hyes => absurd hyes hready⟩

theorem coverReady_still {e : Screen} (h : e.ready → e.surface.isSome) (r : Recorder) :
    tried (coverReady e) r = (.ok (e, false), r) := by
  rcases coverReady_cases e r with ⟨hleft, -⟩ | ⟨⟨hready, hbare⟩, -⟩
  · exact hleft
  · exact absurd (h hready) (by simp [hbare])

theorem settles_coverReady : Settles .ensureSurfaces coverReady where
  spends := spends_coverReady
  done {e r e' hit r'} h := by
    rcases coverReady_cases e r with ⟨hleft, hstill⟩ | ⟨⟨hready, hbare⟩, armed, hmade | ⟨err, hmade⟩⟩
    · obtain ⟨⟨rfl, rfl⟩, rfl⟩ : (e = e' ∧ false = hit) ∧ r = r' := by simpa [hleft] using h
      have hfate : fate .ensureSurfaces e = .stays e [] := by
        refine if_neg ?_
        rw [Bool.and_eq_true, Option.isNone_iff_eq_none]
        rintro ⟨hready, hbare⟩
        exact absurd (hstill hready) (by simp [hbare])
      exact ⟨by simp [hfate, Fate.settle], coverReady_still hstill⟩
    · rw [hmade] at h
      cases h
      have hfate : fate .ensureSurfaces e = .covered e := by simp [fate, hready, hbare]
      refine ⟨?_, coverReady_still fun _ => rfl⟩
      simp [hfate, Fate.settle, Recorder.granted, Recorder.answering, Recorder.noting]
    · simp [hmade] at h
  failed {e r err r'} h := by
    rcases coverReady_cases e r with ⟨hleft, -⟩ | ⟨-, armed, hmade | ⟨err', hmade⟩⟩
    · simp [hleft] at h
    · simp [hmade] at h
    · obtain ⟨-, rfl⟩ := Prod.mk.inj (hmade.symm.trans h)
      exact Recorder.granted_refusing ..

section Sweep

variable {op : Operation} {step : Screen → Try Recorder (Screen × Bool)}

/-- The entries that a pass has been over, and the rest of the table as it was. -/
def Halfway (op : Operation) (s s' : Scene) : Prop :=
  ∃ first rest, s.1.entries = first ++ rest ∧ s'.1.entries = (pass op first s.2.granted).1 ++ rest ∧
    s'.2.granted = (pass op first s.2.granted).2

/-- A sweep passes over the first entries, and over all unless it fails. -/
theorem sweep_pass_front (h : Settles op step) (entries : List Screen) (r : Recorder) :
    let swept := outcome (sweep step entries) r
    ∃ first rest, entries = first ++ rest ∧ swept.1.2 = (pass op first r.granted).1 ++ rest ∧
      swept.2.granted = (pass op first r.granted).2 ∧ ((∃ n, swept.1.1 = .ok n) → rest = []) := by
  induction entries generalizing r with
  | nil => exact ⟨[], [], rfl, rfl, rfl, fun _ => rfl⟩
  | cons e entries ih =>
    dsimp only
    rw [outcome_sweep_cons]
    rcases hmade : tried (step e) r with ⟨made, r'⟩
    cases made with
    | error err => exact ⟨[], e :: entries, rfl, rfl, h.failed hmade, nofun⟩
    | ok made =>
      obtain ⟨hsettle, -⟩ := h.done hmade
      obtain ⟨first, rest, hsplit, hentries, hrecord, hall⟩ := ih r'
      refine ⟨e :: first, rest, congrArg (e :: ·) hsplit, ?_, ?_, ?_⟩
      · simp [pass, hsettle, hentries]
      · simp [pass, hsettle, hrecord]
      · rintro ⟨n, hn⟩
        cases hswept : (outcome (sweep step entries) r').1.1 with
        | error err => simp [hswept] at hn
        | ok count => exact hall ⟨count, hswept⟩

/-- Entries that the step leaves as they are. -/
theorem sweep_past {entries : List Screen} (h : ∀ e ∈ entries, ∀ r, tried (step e) r = (.ok (e, false), r))
    (rest : List Screen) (r : Recorder) :
    outcome (sweep step (entries ++ rest)) r =
      let swept := outcome (sweep step rest) r
      ((swept.1.1, entries ++ swept.1.2), swept.2) := by
  induction entries with
  | nil => rfl
  | cons e entries ih =>
    obtain ⟨he, hentries⟩ := List.forall_mem_cons.mp h
    rw [List.cons_append, outcome_sweep_cons, he r]
    dsimp only
    rw [ih hentries]
    cases (outcome (sweep step rest) r).1.1 <;> rfl

theorem spends_sweep (h : ∀ e, Spends failures (step e)) (entries : List Screen) (r : Recorder) :
    let swept := outcome (sweep step entries) r
    failures swept.2 ≤ failures r ∧ ∀ err, swept.1.1 = .error err → failures swept.2 < failures r := by
  induction entries generalizing r with
  | nil => exact ⟨Nat.le_refl _, nofun⟩
  | cons e entries ih =>
    obtain ⟨hkeeps, hfails⟩ := h e r
    dsimp only
    rw [outcome_sweep_cons]
    rcases hmade : tried (step e) r with ⟨made, r'⟩
    rw [hmade] at hkeeps hfails
    cases made with
    | error err => exact ⟨hkeeps, fun _ _ => hfails err rfl⟩
    | ok made =>
      obtain ⟨hkeeps', hfails'⟩ := ih r'
      refine ⟨Nat.le_trans hkeeps' hkeeps, fun err herr => ?_⟩
      cases hswept : (outcome (sweep step entries) r').1.1 with
      | error err' => exact Nat.lt_of_lt_of_le (hfails' err' hswept) hkeeps
      | ok count => simp [hswept] at herr

/-- Where nothing is refused the step does not fail, and what it makes of an entry it leaves as it is. -/
theorem Settles.settled (h : Settles op step) (e : Screen) (r : Recorder) :
    ∃ (e' : Screen) (r' : Recorder), (fate op e).settle e r.granted = ([e'], r'.granted) ∧
      ∀ r, tried (step e') r = (.ok (e', false), r) := by
  obtain ⟨-, hfails⟩ := h.spends e r.granted
  rcases hmade : tried (step e) r.granted with ⟨made, r'⟩
  cases made with
  | error err => exact absurd (hfails err (congrArg Prod.fst hmade)) (Nat.not_lt_zero _)
  | ok made =>
    obtain ⟨hsettle, hstill⟩ := h.done hmade
    rw [Recorder.granted_granted] at hsettle
    exact ⟨made.1, r', hsettle, hstill⟩

theorem Settles.pass_still (h : Settles op step) (entries : List Screen) (r : Recorder) :
    ∀ e ∈ (pass op entries r.granted).1, ∀ r, tried (step e) r = (.ok (e, false), r) := by
  induction entries generalizing r with
  | nil => simp [pass]
  | cons e entries ih =>
    obtain ⟨e', r', hsettle, hstill⟩ := h.settled e r
    rw [pass, hsettle]
    exact List.forall_mem_cons.mpr ⟨hstill, ih r'⟩

end Sweep

end Outputs

namespace Resumption

open Outputs
open Recorder (failures)

variable {α : Type}

/-- An operation called again as long as it fails, with the scenes that its failures leave. -/
inductive Persists (x : Try Scene α) : Scene → List Scene → α → Scene → Prop where
  | succeeds {s s' : Scene} {a : α} (call : tried x s = (.ok a, s')) : Persists x s [] a s'
  | fails {s s' s'' : Scene} {failed : List Scene} {a : α} {err : Error} (call : tried x s = (.error err, s'))
      (again : Persists x s' failed a s'') : Persists x s (s' :: failed) a s''

/-- The operation has been done to the first entries of the table, and not to the others. -/
def Partway (x : Try Scene α) (s s' : Scene) : Prop :=
  ∃ first rest first', s.1.entries = first ++ rest ∧ s'.1.entries = first' ++ rest ∧
    (tried x (⟨first⟩, s.2.granted)).2 = (⟨first'⟩, s'.2.granted)

/-- However often an operation is refused, and called again until it succeeds, what is granted is what is due, and the
scene is the one that it leaves at once where nothing is refused. -/
structure Resumes (x : Try Scene α) (idle : α) (due : List Call) (s : Scene) : Prop where
  /-- Each failure is one that was to come. -/
  ends : ∃ failed a s', Persists x s failed a s' ∧ failed.length ≤ failures s.2
  whole : ∀ {failed a s'}, Persists x s failed a s' →
    ∃ b, tried x (s.1, s.2.granted) = (.ok b, (s'.1, s'.2.granted))
  once : ∀ {failed a s'}, Persists x s failed a s' → s'.2.granted.calls = s.2.granted.calls ++ due
  /-- What was granted before a failure is kept. -/
  kept : ∀ {failed a s'}, Persists x s failed a s' → ∀ between ∈ failed, Partway x s between
  /-- One more call does nothing. -/
  settled : ∀ {failed a s'}, Persists x s failed a s' → ∀ r, tried x (s'.1, r) = (.ok idle, (s'.1, r))

/-- The operation is a sweep, and answers by the count of it. -/
structure Sweeps (x : Try Scene α) (answer : Nat → α) (op : Operation)
    (step : Screen → Try Recorder (Screen × Bool)) : Prop where
  settles : Settles op step
  sweeps : ∀ t r, tried x (t, r) =
    let swept := outcome (sweep step t.entries) r
    (swept.1.1.map answer, (⟨swept.1.2⟩, swept.2))
  unrefused : ∀ {t r}, r.armed = [] → (tried x (t, r)).2 = passed op (t, r)

theorem sweeps_render (fill : Color) : Sweeps (render fill) id (.render fill) (OutputEntry.present fill) where
  settles := settles_present fill
  sweeps t r := by
    rw [render, tried_sweepAll, Except.map_id]
    rfl
  unrefused := render_pass fill

theorem sweeps_ensureSurfaces : Sweeps ensureSurfaces (fun _ => ()) .ensureSurfaces coverReady where
  settles := settles_coverReady
  sweeps := tried_ensureSurfaces
  unrefused := ensureSurfaces_pass

variable {x : Try Scene α} {answer : Nat → α} {op : Operation} {step : Screen → Try Recorder (Screen × Bool)}

theorem Sweeps.spends (h : Sweeps x answer op step) : Spends (fun s : Scene => failures s.2) x := by
  rintro ⟨t, r⟩
  obtain ⟨hkeeps, hfails⟩ := spends_sweep h.settles.spends t.entries r
  rw [h.sweeps]
  refine ⟨hkeeps, fun err herr => ?_⟩
  cases hswept : (outcome (sweep step t.entries) r).1.1 with
  | error err' => exact hfails err' hswept
  | ok n => simp [hswept] at herr

/-- As the failures to come are used up, the operation succeeds in the end. -/
theorem persists (h : Spends (fun s : Scene => failures s.2) x) (s : Scene) :
    ∃ failed a s', Persists x s failed a s' ∧ failed.length ≤ failures s.2 := by
  induction hn : failures s.2 using Nat.strongRecOn generalizing s with
  | ind n ih =>
    obtain ⟨-, hfails⟩ := h s
    rcases hcall : tried x s with ⟨called, s'⟩
    rw [hcall] at hfails
    cases called with
    | ok a => exact ⟨[], a, s', .succeeds hcall, Nat.zero_le _⟩
    | error err =>
      have hfewer := hfails err rfl
      obtain ⟨failed, a, s'', hagain, hlength⟩ := ih (failures s'.2) (hn ▸ hfewer) s' rfl
      exact ⟨s' :: failed, a, s'', .fails hcall hagain, hn ▸ Nat.le_trans (Nat.succ_le_succ hlength) hfewer⟩

section Halfway

variable {s s' s'' : Scene}

theorem Sweeps.partway (h : Sweeps x answer op step) (hway : Halfway op s s') : Partway x s s' := by
  obtain ⟨first, rest, hentries, hentries', hrecord⟩ := hway
  refine ⟨first, rest, _, hentries, hentries', ?_⟩
  rw [h.unrefused rfl, passed, hrecord]

/-- A call goes on where those before it have stopped, and one that succeeds has been over the whole table. -/
theorem Sweeps.proceeds (h : Sweeps x answer op step) (hway : Halfway op s s') :
    Halfway op s (tried x s').2 ∧ ∀ a, (tried x s').1 = .ok a →
      ((tried x s').2.1.entries, (tried x s').2.2.granted) = pass op s.1.entries s.2.granted := by
  obtain ⟨t, r⟩ := s'
  obtain ⟨first, rest, hentries, hentries', hrecord⟩ := hway
  have hpast := sweep_past (h.settles.pass_still first s.2) rest r
  obtain ⟨more, untouched, rfl, hmade, hnoted, hall⟩ := sweep_pass_front h.settles rest r
  have hboth : pass op (first ++ more) s.2.granted =
      ((pass op first s.2.granted).1 ++ (pass op more r.granted).1, (pass op more r.granted).2) := by
    rw [pass_append, ← hrecord]
  rw [h.sweeps, hentries', hpast]
  constructor
  · refine ⟨first ++ more, untouched, by rw [hentries, List.append_assoc], ?_, by rw [hboth, ← hnoted]⟩
    rw [hboth, List.append_assoc, ← hmade]
  · intro a ha
    have hdone : untouched = [] := by
      refine hall ?_
      cases hswept : (outcome (sweep step (more ++ untouched)) r).1.1 with
      | error err => simp [hswept] at ha
      | ok n => exact ⟨n, rfl⟩
    subst hdone
    simp only [List.append_nil] at hentries hmade hnoted ⊢
    rw [hentries, hboth, ← hmade, ← hnoted]

theorem halfway_start (op : Operation) (s : Scene) : Halfway op s s := ⟨[], s.1.entries, rfl, rfl, rfl⟩

/-- By induction on the calls: each scene between them is halfway from the first, and the last one is at the end. -/
theorem Sweeps.persisted (h : Sweeps x answer op step) {s₀ : Scene} {failed : List Scene} {a : α}
    (hpersists : Persists x s failed a s') (hway : Halfway op s₀ s) :
    (∀ between ∈ failed, Partway x s₀ between) ∧
      (s'.1.entries, s'.2.granted) = pass op s₀.1.entries s₀.2.granted := by
  induction hpersists with
  | succeeds call =>
    obtain ⟨-, hend⟩ := h.proceeds hway
    rw [call] at hend
    exact ⟨nofun, hend _ rfl⟩
  | fails call again ih =>
    obtain ⟨hon, -⟩ := h.proceeds hway
    rw [call] at hon
    obtain ⟨hkept, hend⟩ := ih hon
    exact ⟨List.forall_mem_cons.mpr ⟨h.partway hon, hkept⟩, hend⟩

end Halfway

theorem Sweeps.resumes (h : Sweeps x answer op step) (s : Scene) :
    Resumes x (answer 0) (due op s.1.entries) s where
  ends := persists h.spends s
  whole {failed a s'} hpersists := by
    obtain ⟨-, hend⟩ := h.persisted hpersists (halfway_start op s)
    obtain ⟨-, hfails⟩ := h.spends (s.1, s.2.granted)
    have hscene : (tried x (s.1, s.2.granted)).2 = (s'.1, s'.2.granted) := by
      rw [h.unrefused rfl, passed, ← hend]
    cases hcall : (tried x (s.1, s.2.granted)).1 with
    | error err => exact absurd (hfails err hcall) (Nat.not_lt_zero _)
    | ok b => exact ⟨b, Prod.ext hcall hscene⟩
  once {failed a s'} hpersists := by
    obtain ⟨-, hend⟩ := h.persisted hpersists (halfway_start op s)
    rw [← pass_due, ← hend]
  kept hpersists := (h.persisted hpersists (halfway_start op s)).1
  settled {failed a s'} hpersists r := by
    obtain ⟨-, hend⟩ := h.persisted hpersists (halfway_start op s)
    have hstill := h.settles.pass_still s.1.entries s.2
    rw [← hend] at hstill
    have hpast := sweep_past hstill [] r
    rw [List.append_nil] at hpast
    rw [h.sweeps, hpast]
    simp [sweep, Except.map]

/-- However often the compositor interrupts a pass that paints, or one that covers, the pass called again goes on from
there: nothing is lost, and nothing is done twice. -/
theorem interrupted_passes_resume (s : Scene) :
    (∀ fill, Resumes (render fill) 0 (due (.render fill) s.1.entries) s) ∧
      Resumes ensureSurfaces () (due .ensureSurfaces s.1.entries) s :=
  ⟨fun fill => (sweeps_render fill).resumes s, sweeps_ensureSurfaces.resumes s⟩

end Resumption

end ScreenLocker
