import ScreenLocker.Proofs.Surfaces

/-! What is done for the outputs, one act at a time. An act touches one entry of the table and makes
the calls that go with it. Every operation on the outputs comes to a list of acts, whatever the
compositor refuses, so what each act keeps is kept by all of them. -/

namespace ScreenLocker

theorem forall_mem_middle {α : Type} {P : α → Prop} {pre post : List α} {x : α} :
    (∀ y ∈ pre ++ x :: post, P y) ↔ P x ∧ ∀ y ∈ pre ++ post, P y := by
  rw [← List.forall_mem_cons]
  exact forall_congr' fun y => imp_congr_left List.perm_middle.mem_iff

abbrev Screen := OutputEntry Nat Nat

/-- The outputs, and the compositor that writes down what it is asked for them. -/
abbrev Scene := Outputs Nat Nat × Recorder

/-- More calls that could not be refused. -/
def Recorder.noting (r : Recorder) (calls : List Call) : Recorder := { r with calls := r.calls ++ calls }

/-- One more call, after which these failures are still to come. -/
def Recorder.answering (r : Recorder) (call : Call) (armed : List ArmedFailure) : Recorder :=
  { r with armed, calls := r.calls ++ [call] }

/-- The calls by which an entry gives up its handles. -/
def OutputEntry.farewell (e : Screen) : List Call :=
  match e.surface with
  | some surface => [⟨.destroySurface surface, true⟩, ⟨.releaseOutput e.output, true⟩]
  | none => [⟨.releaseOutput e.output, true⟩]

theorem OutputEntry.mem_farewell {e : Screen} {call : Call} : call ∈ e.farewell ↔
    (∃ surface, e.surface = some surface ∧ call = ⟨.destroySurface surface, true⟩) ∨
      call = ⟨.releaseOutput e.output, true⟩ := by
  cases hsurface : e.surface <;> simp [farewell, hsurface]

/-- Calls that are made for the lock and not for an output. -/
def Call.ForLock (call : Call) : Prop :=
  match call.request with
  | .requestLock | .unlock | .abandon | .flush => True
  | _ => False

/-- A property changes neither the handles of an entry nor what the last configure said. -/
theorem OutputEntry.update_keeps (e : Screen) (event : OutputEvent) :
    (e.update event).id = e.id ∧ (e.update event).output = e.output ∧
    (e.update event).surface = e.surface ∧ (e.update event).configured = e.configured ∧
    (e.update event).width = e.width ∧ (e.update event).height = e.height := by
  cases event with
  | geometry width height => unfold update; dsimp only; split <;> exact ⟨rfl, rfl, rfl, rfl, rfl, rfl⟩
  | scale factor => unfold update; dsimp only; split <;> exact ⟨rfl, rfl, rfl, rfl, rfl, rfl⟩
  | name text => exact ⟨rfl, rfl, rfl, rfl, rfl, rfl⟩
  | done => exact ⟨rfl, rfl, rfl, rfl, rfl, rfl⟩

/-- One thing that is done for an output, with the entry as it was before. -/
inductive Act where
  | received (id : OutputId) (output : Nat)
  | released (e : Screen)
  | updated (e : Screen) (event : OutputEvent)
  | covered (e : Screen) (granted : Bool)
  | configured (e : Screen) (surface : Nat) (c : Configure)
  | painted (e : Screen) (surface : Nat) (fill : Color) (granted : Bool)
  | damaged (e : Screen)
  | asked (call : Call)

namespace Act

def calls : Act → List Call
  | released e => e.farewell
  | covered e granted => [⟨.createSurface e.id e.output, granted⟩]
  | configured _ surface c => [⟨.acknowledge surface c.serial, true⟩]
  | painted e surface fill granted => [⟨.present surface (e.picture fill), granted⟩]
  | asked call => [call]
  | received .. | updated .. | damaged _ => []

/-- An act on an entry that stays in the table, and what it makes of the entry. -/
inductive Turns : Act → Screen → Recorder → Screen → Recorder → Prop where
  | updated (e : Screen) (event : OutputEvent) (r : Recorder) :
      Turns (.updated e event) e r (e.update event) r
  | covered {e : Screen} {r : Recorder} (armed : List ArmedFailure) (ready : e.ready)
      (bare : e.surface = none) :
      Turns (.covered e true) e r { e with surface := some r.nextHandle }
        { r.answering ⟨.createSurface e.id e.output, true⟩ armed with nextHandle := r.nextHandle + 1 }
  | uncovered {e : Screen} {r : Recorder} (armed : List ArmedFailure) (ready : e.ready)
      (bare : e.surface = none) :
      Turns (.covered e false) e r e (r.answering ⟨.createSurface e.id e.output, false⟩ armed)
  | configured {e : Screen} {surface : Nat} {r : Recorder} (c : Configure)
      (held : e.surface = some surface) :
      Turns (.configured e surface c) e r (e.configure c)
        (r.noting [⟨.acknowledge surface c.serial, true⟩])
  | painted {e : Screen} {surface : Nat} {fill : Color} {r : Recorder} (armed : List ArmedFailure)
      (held : e.surface = some surface) (due : e.configured ∧ e.dirty)
      (full : (e.picture fill).width ≠ 0 ∧ (e.picture fill).height ≠ 0) :
      Turns (.painted e surface fill true) e r { e with dirty := false }
        (r.answering ⟨.present surface (e.picture fill), true⟩ armed)
  | unpainted {e : Screen} {surface : Nat} {fill : Color} {r : Recorder} (armed : List ArmedFailure)
      (held : e.surface = some surface) (due : e.configured ∧ e.dirty)
      (full : (e.picture fill).width ≠ 0 ∧ (e.picture fill).height ≠ 0) :
      Turns (.painted e surface fill false) e r e
        (r.answering ⟨.present surface (e.picture fill), false⟩ armed)
  | damaged (e : Screen) (r : Recorder) : Turns (.damaged e) e r { e with dirty := true } r

/-- What an act does to the table and to the record. -/
inductive Does : Act → Scene → Scene → Prop where
  | received (pre post : List Screen) (r : Recorder) (id : OutputId) (output : Nat) :
      Does (.received id output) (⟨pre ++ post⟩, r) (⟨pre ++ { id, output } :: post⟩, r)
  | released (pre post : List Screen) (r : Recorder) (e : Screen) :
      Does (.released e) (⟨pre ++ e :: post⟩, r) (⟨pre ++ post⟩, r.noting e.farewell)
  | turned {a : Act} {e e' : Screen} {r r' : Recorder} (pre post : List Screen)
      (turn : Turns a e r e' r') : Does a (⟨pre ++ e :: post⟩, r) (⟨pre ++ e' :: post⟩, r')
  | asked (t : Outputs Nat Nat) (r : Recorder) {call : Call} (armed : List ArmedFailure)
      (lock : call.ForLock) : Does (.asked call) (t, r) (t, r.answering call armed)

theorem Turns.same {a : Act} {e e' : Screen} {r r' : Recorder} (h : Turns a e r e' r') :
    e'.id = e.id ∧ e'.output = e.output := by
  cases h with
  | updated => exact ⟨(e.update_keeps _).1, (e.update_keeps _).2.1⟩
  | _ => exact ⟨rfl, rfl⟩

theorem Turns.calls {a : Act} {e e' : Screen} {r r' : Recorder} (h : Turns a e r e' r') :
    r'.calls = r.calls ++ a.calls := by
  cases h with
  | updated => exact (List.append_nil _).symm
  | damaged => exact (List.append_nil _).symm
  | _ => rfl

theorem Does.calls {a : Act} {s s' : Scene} (h : Does a s s') : s'.2.calls = s.2.calls ++ a.calls := by
  cases h with
  | received => exact (List.append_nil _).symm
  | released => rfl
  | turned pre post turn => exact turn.calls
  | asked => rfl

end Act

open Act (Does Turns)

/-- Acts done one after another. -/
inductive Performs : List Act → Scene → Scene → Prop where
  | nil (s : Scene) : Performs [] s s
  | cons {a : Act} {acts : List Act} {s s' s'' : Scene} (first : Does a s s')
      (rest : Performs acts s' s'') : Performs (a :: acts) s s''

namespace Performs

variable {acts acts' : List Act} {s s' s'' : Scene}

theorem append (h : Performs acts s s') (h' : Performs acts' s' s'') :
    Performs (acts ++ acts') s s'' := by
  induction h with
  | nil => exact h'
  | cons first _ ih => exact .cons first (ih h')

theorem single {a : Act} (h : Does a s s') : Performs [a] s s' := .cons h (.nil s')

theorem calls (h : Performs acts s s') : s'.2.calls = s.2.calls ++ acts.flatMap Act.calls := by
  induction h with
  | nil => simp
  | cons first _ ih => rw [ih, first.calls, List.append_assoc, List.flatMap_cons]

/-- What every act of the kind keeps is kept, and its calls are as they are to be. -/
theorem keeps {P : Act → Prop} {I : Scene → Prop} {C : Call → Prop}
    (step : ∀ a s s', P a → Does a s s' → I s → I s' ∧ ∀ call ∈ a.calls, C call)
    (h : Performs acts s s') (hacts : ∀ a ∈ acts, P a) (start : I s) :
    I s' ∧ ∀ call ∈ acts.flatMap Act.calls, C call := by
  induction h with
  | nil => exact ⟨start, by simp⟩
  | cons first _ ih =>
    obtain ⟨ha, hrest⟩ := List.forall_mem_cons.mp hacts
    obtain ⟨hfirst, hcalls⟩ := step _ _ _ ha first start
    obtain ⟨hlast, hlater⟩ := ih hrest hfirst
    rw [List.flatMap_cons]
    exact ⟨hlast, List.forall_mem_append.mpr ⟨hcalls, hlater⟩⟩

end Performs

/-- Acts such that `P` led from one scene to the other. -/
def Doing (P : Act → Prop) (s s' : Scene) : Prop := ∃ acts, (∀ a ∈ acts, P a) ∧ Performs acts s s'

namespace Doing

variable {P Q : Act → Prop} {s s' s'' : Scene}

theorem refl (s : Scene) : Doing P s s := ⟨[], by simp, .nil s⟩

theorem trans (h : Doing P s s') (h' : Doing P s' s'') : Doing P s s'' := by
  obtain ⟨acts, hacts, hdone⟩ := h
  obtain ⟨acts', hacts', hdone'⟩ := h'
  refine ⟨acts ++ acts', fun a ha => ?_, hdone.append hdone'⟩
  exact (List.mem_append.mp ha).elim (hacts a) (hacts' a)

theorem single {a : Act} (ha : P a) (h : Does a s s') : Doing P s s' :=
  ⟨[a], by simpa using ha, .single h⟩

theorem mono (h : Doing P s s') (hle : ∀ a, P a → Q a) : Doing Q s s' := by
  obtain ⟨acts, hacts, hdone⟩ := h
  exact ⟨acts, fun a ha => hle a (hacts a ha), hdone⟩

/-- What every act of the kind keeps is kept. -/
theorem keeps {I : Scene → Prop} (step : ∀ a s s', P a → Does a s s' → I s → I s')
    (h : Doing P s s') (start : I s) : I s' := by
  obtain ⟨acts, hacts, hdone⟩ := h
  have hstep : ∀ a s s', P a → Does a s s' → I s → I s' ∧ ∀ call ∈ a.calls, True :=
    fun a s s' ha hdoes hs => ⟨step a s s' ha hdoes hs, fun _ _ => trivial⟩
  exact (hdone.keeps hstep hacts start).1

end Doing

/-- Acts such that `P` lead from one entry to the other, wherever it stands in the table. -/
def Turning (P : Act → Prop) (e : Screen) (r : Recorder) (e' : Screen) (r' : Recorder) : Prop :=
  ∀ pre post, Doing P (⟨pre ++ e :: post⟩, r) (⟨pre ++ e' :: post⟩, r')

theorem Turning.single {P : Act → Prop} {a : Act} {e e' : Screen} {r r' : Recorder} (ha : P a)
    (h : Turns a e r e' r') : Turning P e r e' r' := fun pre post => .single ha (.turned pre post h)

namespace Act

def Releases (a : Act) : Prop := ∃ e, a = .released e

def Updates (event : OutputEvent) (a : Act) : Prop := ∃ e, a = .updated e event

def Covers (a : Act) : Prop := ∃ e granted, a = .covered e granted

def Configures (c : Configure) (a : Act) : Prop := ∃ e surface, a = .configured e surface c

def Paints (fill : Color) (a : Act) : Prop := ∃ e surface granted, a = .painted e surface fill granted

def Damages (a : Act) : Prop := ∃ e, a = .damaged e

def Receives (a : Act) : Prop := ∃ id output, a = .received id output

theorem Turns.not_receives {a : Act} {e e' : Screen} {r r' : Recorder} (h : Turns a e r e' r') :
    ¬ a.Receives := by
  rintro ⟨id, output, rfl⟩
  cases h

end Act

/-! The steps that operations are made of. -/

namespace OutputEntry

/-- A surface is left as it is, painted, or was to be painted and refused. -/
theorem present_cases (fill : Color) (e : Screen) (r : Recorder) :
    (tried (e.present fill) r = (.ok (e, false), r) ∧
      (e.surface = none ∨ ¬ (e.configured ∧ e.dirty) ∨ (e.picture fill).width = 0 ∨
        (e.picture fill).height = 0)) ∨
    ∃ surface armed, e.surface = some surface ∧ (e.configured ∧ e.dirty) ∧
      ((e.picture fill).width ≠ 0 ∧ (e.picture fill).height ≠ 0) ∧
      (tried (e.present fill) r = (.ok ({ e with dirty := false }, true),
          r.answering ⟨.present surface (e.picture fill), true⟩ armed) ∨
        ∃ err, tried (e.present fill) r =
          (.error err, r.answering ⟨.present surface (e.picture fill), false⟩ armed)) := by
  cases hsurface : e.surface with
  | none => exact .inl ⟨by simp [present, hsurface], .inl rfl⟩
  | some surface =>
  by_cases hdue : e.configured ∧ e.dirty
  · by_cases hfull : (e.picture fill).width ≠ 0 ∧ (e.picture fill).height ≠ 0
    · have hpresent : tried (Compositor.present surface (e.picture fill) : Try Recorder Nat) r =
          tried (do Recorder.ask (.present surface (e.picture fill)); pure surface) r := rfl
      rcases Recorder.tried_ask (.present surface (e.picture fill)) r with
        ⟨armed, hask⟩ | ⟨err, armed, hask⟩
      · refine .inr ⟨surface, armed, rfl, hdue, hfull, .inl ?_⟩
        simp [present, hsurface, hdue, hfull, hpresent, hask, Recorder.answering]
      · refine .inr ⟨surface, armed, rfl, hdue, hfull, .inr ⟨err, ?_⟩⟩
        simp [present, hsurface, hdue, hfull, hpresent, hask, Recorder.answering]
    · have hempty : (e.picture fill).width = 0 ∨ (e.picture fill).height = 0 := by omega
      exact .inl ⟨by simp [present, hsurface, hdue, hempty], .inr (.inr hempty)⟩
  · have hskip : e.configured = false ∨ e.dirty = false := by
      cases hc : e.configured <;> cases hd : e.dirty <;> simp_all
    exact .inl ⟨by simp [present, hsurface, hskip], .inr (.inl hdue)⟩

/-- An entry has its surface already, gets one, or is refused one. -/
theorem createSurface_cases (e : Screen) (r : Recorder) :
    (tried e.createSurface r = (.ok e, r) ∧ e.surface.isSome) ∨
    e.surface = none ∧ ∃ armed,
      (tried e.createSurface r = (.ok { e with surface := some r.nextHandle },
          { r.answering ⟨.createSurface e.id e.output, true⟩ armed with
            nextHandle := r.nextHandle + 1 }) ∨
        ∃ err, tried e.createSurface r =
          (.error err, r.answering ⟨.createSurface e.id e.output, false⟩ armed)) := by
  cases hsurface : e.surface with
  | some surface => exact .inl ⟨by simp [createSurface, hsurface], rfl⟩
  | none =>
  have hcreate : tried (Compositor.createSurface e.id e.output : Try Recorder Nat) r =
      tried (do Recorder.ask (.createSurface e.id e.output); liftM Recorder.newHandle) r := rfl
  rcases Recorder.tried_ask (.createSurface e.id e.output) r with
    ⟨armed, hask⟩ | ⟨err, armed, hask⟩
  · refine .inr ⟨rfl, armed, .inl ?_⟩
    simp [createSurface, hsurface, hcreate, hask, Recorder.answering, Recorder.newHandle]
  · refine .inr ⟨rfl, armed, .inr ⟨err, ?_⟩⟩
    simp [createSurface, hsurface, hcreate, hask, Recorder.answering]

theorem outcome_release (e : Screen) (r : Recorder) :
    outcome (e.release : Op Recorder Unit) r = ((), r.noting e.farewell) := by
  have hnote (request : Request) (r : Recorder) :
      outcome (Recorder.note request) r = ((), r.noting [⟨request, true⟩]) := rfl
  have hdestroy (surface : Nat) :
      (Compositor.destroySurface surface : Op Recorder Unit) = Recorder.note (.destroySurface surface) :=
    rfl
  have houtput :
      (Compositor.releaseOutput e.output : Op Recorder Unit) = Recorder.note (.releaseOutput e.output) :=
    rfl
  cases hsurface : e.surface with
  | none => simp [release, hsurface, houtput, hnote, farewell]
  | some surface => simp [release, hsurface, hdestroy, houtput, hnote, farewell, Recorder.noting]

/-- What is left of an entry after a step that may have failed. -/
def kept (e : Screen) : Except Error (Screen × Bool) → Screen
  | .ok (e', _) => e'
  | .error _ => e

theorem turning_present (fill : Color) (e : Screen) (r : Recorder) :
    Turning (Act.Paints fill) e r (e.kept (tried (e.present fill) r).1)
      (tried (e.present fill) r).2 := by
  rcases present_cases fill e r with
    ⟨hleft, -⟩ | ⟨surface, armed, hheld, hdue, hfull, hpaint | ⟨err, hpaint⟩⟩
  · rw [hleft]
    exact fun _ _ => .refl _
  · rw [hpaint]
    exact .single ⟨e, surface, true, rfl⟩ (.painted armed hheld hdue hfull)
  · rw [hpaint]
    exact .single ⟨e, surface, false, rfl⟩ (.unpainted armed hheld hdue hfull)

end OutputEntry

namespace Outputs

open OutputEntry (kept)

/-- A ready entry that is to have a surface. -/
theorem turning_createSurface {e : Screen} (hready : e.ready) (r : Recorder) :
    Turning Act.Covers e r
      (match (tried (e.createSurface : Try Recorder Screen) r).1 with | .ok e' => e' | .error _ => e)
      (tried (e.createSurface : Try Recorder Screen) r).2 := by
  rcases OutputEntry.createSurface_cases e r with ⟨hhas, -⟩ | ⟨hbare, armed, hmade | ⟨err, hmade⟩⟩
  · rw [hhas]
    exact fun _ _ => .refl _
  · rw [hmade]
    exact .single ⟨e, true, rfl⟩ (.covered armed hready hbare)
  · rw [hmade]
    exact .single ⟨e, false, rfl⟩ (.uncovered armed hready hbare)

theorem turning_coverReady (e : Screen) (r : Recorder) :
    Turning Act.Covers e r (kept e (tried (coverReady e : Try Recorder _) r).1)
      (tried (coverReady e : Try Recorder _) r).2 := by
  by_cases hready : e.ready
  · have hcreate := turning_createSurface hready r
    rcases hmade : tried (e.createSurface : Try Recorder Screen) r with ⟨made, r'⟩
    rw [hmade] at hcreate
    cases made with
    | ok e' => simpa [coverReady, hready, hmade, kept] using hcreate
    | error err => simpa [coverReady, hready, hmade, kept] using hcreate
  · have hleft : tried (coverReady e : Try Recorder _) r = (.ok (e, false), r) := by
      simp [coverReady, hready]
    rw [hleft]
    exact fun _ _ => .refl _

/-- A sweep does to each entry in its place what its step does. -/
theorem doing_sweep {P : Act → Prop} {step : Screen → Try Recorder (Screen × Bool)}
    (hstep : ∀ e r, Turning P e r (kept e (tried (step e) r).1) (tried (step e) r).2)
    (entries pre : List Screen) (r : Recorder) :
    Doing P (⟨pre ++ entries⟩, r)
      (⟨pre ++ (outcome (sweep step entries) r).1.2⟩, (outcome (sweep step entries) r).2) := by
  induction entries generalizing pre r with
  | nil => exact .refl _
  | cons e rest ih =>
    have hfirst := hstep e r pre rest
    rw [outcome_sweep_cons]
    rcases hmade : tried (step e) r with ⟨made, r'⟩
    rw [hmade] at hfirst
    cases made with
    | error err => exact hfirst
    | ok made =>
      have hrest := ih (pre ++ [made.1]) r'
      rw [List.append_assoc, List.append_assoc] at hrest
      exact hfirst.trans hrest

theorem doing_render (fill : Color) (t : Outputs Nat Nat) (r : Recorder) :
    Doing (Act.Paints fill) (t, r) (tried (render fill) (t, r)).2 := by
  rw [render, tried_sweepAll]
  exact doing_sweep (OutputEntry.turning_present fill) t.entries [] r

theorem doing_ensureSurfaces (t : Outputs Nat Nat) (r : Recorder) :
    Doing Act.Covers (t, r) (tried ensureSurfaces (t, r)).2 := by
  rw [tried_ensureSurfaces]
  exact doing_sweep turning_coverReady t.entries [] r

theorem doing_damageAll (t : Outputs Nat Nat) (r : Recorder) :
    Doing Act.Damages (t, r) (t.damageAll, r) := by
  have go (entries pre : List Screen) : Doing Act.Damages (⟨pre ++ entries⟩, r)
      (⟨pre ++ entries.map fun e => { e with dirty := true }⟩, r) := by
    induction entries generalizing pre with
    | nil => exact .refl _
    | cons e rest ih =>
      have hrest := ih (pre ++ [{ e with dirty := true }])
      rw [List.append_assoc, List.append_assoc] at hrest
      exact (Doing.single ⟨e, rfl⟩ (.turned pre rest (.damaged e r))).trans hrest
  exact go t.entries []

theorem doing_teardown (t : Outputs Nat Nat) (r : Recorder) :
    Doing Act.Releases (t, r) (outcome teardown (t, r)).2 := by
  have go (entries : List Screen) (r : Recorder) : Doing Act.Releases (⟨entries⟩, r)
      (⟨[]⟩, (outcome (entries.forM OutputEntry.release : Op Recorder Unit) r).2) := by
    induction entries generalizing r with
    | nil => exact .refl _
    | cons e rest ih =>
      have hforM : ((e :: rest).forM OutputEntry.release : Op Recorder Unit) =
          (do e.release; rest.forM OutputEntry.release) := rfl
      rw [hforM, outcome_bind, OutputEntry.outcome_release]
      exact (Doing.single ⟨e, rfl⟩ (.released [] rest r e)).trans (ih _)
  rw [outcome_teardown]
  exact go t.entries r

/-! Entries are found by their numbers, which ascend along the table. -/

def Ordered (t : Outputs Nat Nat) : Prop := t.entries.Pairwise fun e e' => e.id < e'.id

/-- In an ordered table the entry that is found stands in one place. -/
theorem Ordered.split {t : Outputs Nat Nat} (h : t.Ordered) {id : OutputId} {e : Screen}
    (hfind : t.find? id = some e) :
    ∃ pre post, t = ⟨pre ++ e :: post⟩ ∧ (∀ e', e'.id = e.id → t.replaced e' = ⟨pre ++ e' :: post⟩) ∧
      t.entries.filter (·.id ≠ id) = pre ++ post := by
  have hid : e.id = id := by simpa using List.find?_some hfind
  obtain ⟨pre, post, hsplit⟩ := List.append_of_mem (mem_of_find? hfind)
  unfold Ordered at h
  rw [hsplit, List.pairwise_append, List.pairwise_cons] at h
  obtain ⟨-, ⟨hpost, -⟩, hpre⟩ := h
  have hbefore : ∀ x ∈ pre, x.id ≠ e.id := fun x hx => Nat.ne_of_lt (hpre x hx e (by simp))
  have hafter : ∀ x ∈ post, x.id ≠ e.id := fun x hx => Nat.ne_of_gt (hpost x hx)
  refine ⟨pre, post, congrArg Outputs.mk hsplit, fun e' he' => congrArg Outputs.mk ?_, ?_⟩
  · rw [hsplit, List.map_append, List.map_cons, if_pos he'.symm]
    rw [List.map_congr_left fun x hx => if_neg (he' ▸ hbefore x hx), List.map_id']
    rw [List.map_congr_left fun x hx => if_neg (he' ▸ hafter x hx), List.map_id']
  · rw [hsplit, List.filter_append, List.filter_cons, ← hid]
    rw [List.filter_eq_self.mpr fun x hx => by simpa using hbefore x hx]
    rw [List.filter_eq_self.mpr fun x hx => by simpa using hafter x hx]
    simp

/-- Acts other than the arrival of an output leave the order as it is. -/
theorem Ordered.kept {P : Act → Prop} (hP : ∀ a, P a → ¬ a.Receives) {s s' : Scene}
    (h : Doing P s s') (hordered : s.1.Ordered) : s'.1.Ordered := by
  refine h.keeps (I := fun s => s.1.Ordered) ?_ hordered
  rintro a s s' ha (_ | _ | ⟨pre, post, turn⟩ | _) hs
  · exact absurd ⟨_, _, rfl⟩ (hP _ ha)
  · exact hs.sublist (by simp)
  · unfold Ordered at hs ⊢
    simp only [List.pairwise_append, List.pairwise_cons, List.forall_mem_cons, turn.same.1] at hs ⊢
    exact hs
  · exact hs

theorem place_ordered {e : Screen} {entries : List Screen}
    (h : entries.Pairwise fun e e' => e.id < e'.id) :
    (place e entries).2.Pairwise fun e e' => e.id < e'.id := by
  induction entries with
  | nil => simp [place]
  | cons x rest ih =>
    obtain ⟨hx, hrest⟩ := List.pairwise_cons.mp h
    unfold place
    split
    · next hlt =>
      refine List.pairwise_cons.mpr ⟨fun y hy => ?_, h⟩
      rcases List.mem_cons.mp hy with rfl | hy
      · exact hlt
      · exact Nat.lt_trans hlt (hx y hy)
    split
    · next heq => exact List.pairwise_cons.mpr ⟨fun y hy => heq ▸ hx y hy, hrest⟩
    · next hge hne =>
      have hgt : x.id < e.id := Nat.lt_of_le_of_ne (Nat.not_lt.mp hge) (Ne.symm hne)
      exact List.pairwise_cons.mpr ⟨place_forall hx hgt, ih hrest⟩

/-- A new entry comes between two others, or in the place of one that it displaces. -/
theorem place_cases (e : Screen) (entries : List Screen) :
    ∃ pre post, (place e entries = (none, pre ++ e :: post) ∧ entries = pre ++ post) ∨
      ∃ old, place e entries = (some old, pre ++ e :: post) ∧ entries = pre ++ old :: post := by
  induction entries with
  | nil => exact ⟨[], [], .inl ⟨rfl, rfl⟩⟩
  | cons x rest ih =>
    by_cases hlt : e.id < x.id
    · exact ⟨[], x :: rest, .inl ⟨by simp [place, hlt], rfl⟩⟩
    by_cases heq : e.id = x.id
    · exact ⟨[], rest, .inr ⟨x, by simp [place, heq], rfl⟩⟩
    obtain ⟨pre, post, ⟨hplace, hrest⟩ | ⟨old, hplace, hrest⟩⟩ := ih
    · exact ⟨x :: pre, post, .inl ⟨by simp [place, hlt, heq, hplace], by rw [hrest]; rfl⟩⟩
    · exact ⟨x :: pre, post, .inr ⟨old, by simp [place, hlt, heq, hplace], by rw [hrest]; rfl⟩⟩

/-- In an ordered table a new entry displaces the one of its number, and stands among all others. -/
theorem place_among {e : Screen} {entries : List Screen}
    (h : entries.Pairwise fun e e' => e.id < e'.id) :
    ∃ pre post, place e entries = (entries.find? (·.id = e.id), pre ++ e :: post) ∧
      entries.filter (·.id ≠ e.id) = pre ++ post := by
  induction entries with
  | nil => exact ⟨[], [], rfl, rfl⟩
  | cons x rest ih =>
    obtain ⟨hx, hrest⟩ := List.pairwise_cons.mp h
    have habove (hle : e.id ≤ x.id) : ∀ y ∈ rest, y.id ≠ e.id := fun y hy =>
      Nat.ne_of_gt (Nat.lt_of_le_of_lt hle (hx y hy))
    have hnone (hle : e.id ≤ x.id) : rest.find? (·.id = e.id) = none :=
      List.find?_eq_none.mpr fun y hy => by simpa using habove hle y hy
    have hall (hle : e.id ≤ x.id) : rest.filter (·.id ≠ e.id) = rest :=
      List.filter_eq_self.mpr fun y hy => by simpa using habove hle y hy
    by_cases hlt : e.id < x.id
    · have hne : x.id ≠ e.id := Nat.ne_of_gt hlt
      refine ⟨[], x :: rest, ?_, ?_⟩
      · simp [place, hlt, hne, hnone (Nat.le_of_lt hlt)]
      · simpa [hne] using hall (Nat.le_of_lt hlt)
    by_cases heq : e.id = x.id
    · refine ⟨[], rest, by simp [place, heq], ?_⟩
      simpa [heq] using hall (Nat.le_of_eq heq)
    · have hne : x.id ≠ e.id := Ne.symm heq
      obtain ⟨pre, post, hplace, hfilter⟩ := ih hrest
      refine ⟨x :: pre, post, by simp [place, hlt, heq, hne, hplace], ?_⟩
      rw [List.filter_cons_of_pos (by simpa using hne), hfilter, List.cons_append]

/-- An output arrives, and what it displaces is let go. -/
theorem doing_add (id : OutputId) (output : Nat) (t : Outputs Nat Nat) (r : Recorder) :
    ∃ s, Does (.received id output) (t, r) s ∧
      Doing Act.Releases s (outcome (add id output) (t, r)).2 := by
  obtain ⟨pre, post, ⟨hplace, hentries⟩ | ⟨old, hplace, hentries⟩⟩ :=
    place_cases { id, output } t.entries
  · have ht : t = ⟨pre ++ post⟩ := congrArg Outputs.mk hentries
    refine ⟨_, ht ▸ Does.received pre post r id output, ?_⟩
    rw [outcome_add, hplace]
    exact .refl _
  · have ht : t = ⟨pre ++ old :: post⟩ := congrArg Outputs.mk hentries
    refine ⟨_, ht ▸ Does.received pre (old :: post) r id output, ?_⟩
    rw [outcome_add, hplace]
    dsimp only
    rw [OutputEntry.outcome_release]
    have hreleased := Does.released (pre ++ [{ id := id, output := output }]) post r old
    rw [List.append_assoc, List.append_assoc] at hreleased
    exact .single ⟨old, rfl⟩ hreleased

theorem ordered_add {t : Outputs Nat Nat} (h : t.Ordered) (id : OutputId) (output : Nat)
    (r : Recorder) : (outcome (add id output) (t, r)).2.1.Ordered := by
  rw [outcome_add]
  exact place_ordered h

theorem doing_remove {t : Outputs Nat Nat} (h : t.Ordered) (id : OutputId) (r : Recorder) :
    Doing Act.Releases (t, r) (outcome (remove id) (t, r)).2 := by
  rw [outcome_remove]
  cases hfind : t.find? id with
  | none => exact .refl _
  | some e =>
    obtain ⟨pre, post, ht, -, hfilter⟩ := h.split hfind
    dsimp only
    rw [hfilter, ht, OutputEntry.outcome_release]
    exact .single ⟨e, rfl⟩ (.released pre post r e)

/-- A property event is taken down, and at the end of a batch under an active lock the output gets its
surface. -/
theorem doing_handleEvent {t : Outputs Nat Nat} (h : t.Ordered) (id : OutputId) (event : OutputEvent)
    (active : Bool) (r : Recorder) :
    Doing (fun a => a.Updates event ∨ (event = .done ∧ active) ∧ a.Covers) (t, r)
      (tried (handleEvent id event active) (t, r)).2 := by
  rw [tried_handleEvent]
  cases hfind : t.find? id with
  | none => exact .refl _
  | some e =>
  obtain ⟨pre, post, ht, hreplaced, -⟩ := h.split hfind
  have hupdated : Turns (.updated e event) e r (e.update event) r := .updated e event r
  have hnoted : Doing (fun a => a.Updates event ∨ (event = .done ∧ active) ∧ a.Covers) (t, r)
      (⟨pre ++ e.update event :: post⟩, r) :=
    ht ▸ .single (.inl ⟨e, rfl⟩) (.turned pre post hupdated)
  dsimp only
  split
  · next hdone =>
    have hready : (e.update event).ready := by rw [hdone.1]; rfl
    have hcreate := (turning_createSurface hready r pre post).mono
      (Q := fun a => a.Updates event ∨ (event = .done ∧ active) ∧ a.Covers) fun a ha => .inr ⟨hdone, ha⟩
    rcases hmade : tried ((e.update event).createSurface : Try Recorder Screen) r with ⟨made, r'⟩
    rw [hmade] at hcreate
    cases made with
    | error err =>
      change Doing _ _ (t.replaced (e.update event), r')
      rw [hreplaced _ hupdated.same.1]
      exact hnoted.trans hcreate
    | ok covered =>
      have hid := (OutputEntry.createSurface_ok hmade).1
      change Doing _ _ ((t.replaced (e.update event)).replaced covered, r')
      rw [replaced_replaced hid, hreplaced _ (hid.trans hupdated.same.1)]
      exact hnoted.trans hcreate
  · rw [hreplaced _ hupdated.same.1]
    exact hnoted

/-- A configure is passed over, or it is taken down and acknowledged for one entry, which is then painted
if that is granted. -/
theorem handleConfigure_cases {t : Outputs Nat Nat} (h : t.Ordered) (id : OutputId) (c : Configure)
    (fill : Color) (r : Recorder) :
    (tried (handleConfigure id c fill) (t, r) = (.ok (), (t, r)) ∧
      ∀ e, t.find? id = some e → e.surface = none) ∨
    ∃ pre e post surface, t = ⟨pre ++ e :: post⟩ ∧ t.find? id = some e ∧ e.surface = some surface ∧
      let painted := tried ((e.configure c).present fill : Try Recorder _)
        (r.noting [⟨.acknowledge surface c.serial, true⟩])
      tried (handleConfigure id c fill) (t, r) =
        (painted.1.map fun _ => (), (⟨pre ++ (e.configure c).kept painted.1 :: post⟩, painted.2)) := by
  rw [tried_handleConfigure]
  cases hfind : t.find? id with
  | none => exact .inl ⟨rfl, by simp⟩
  | some e =>
  cases hsurface : e.surface with
  | none => exact .inl ⟨by simp [hsurface], by simp [hsurface]⟩
  | some surface =>
  obtain ⟨pre, post, ht, hreplaced, -⟩ := h.split hfind
  refine .inr ⟨pre, e, post, surface, ht, rfl, hsurface, ?_⟩
  have hnote : (outcome (Compositor.acknowledge surface c.serial : Op Recorder Unit) r).2 =
      r.noting [⟨.acknowledge surface c.serial, true⟩] := rfl
  simp only [hsurface, hnote]
  rcases hpaint : tried ((e.configure c).present fill : Try Recorder _)
    (r.noting [⟨.acknowledge surface c.serial, true⟩]) with ⟨painted, r'⟩
  cases painted with
  | error err =>
    dsimp only
    rw [hreplaced (e.configure c) rfl]
    rfl
  | ok painted =>
    have hid := (OutputEntry.present_ok hpaint).1
    dsimp only
    rw [replaced_replaced hid, hreplaced painted.1 hid]
    rfl

theorem doing_handleConfigure {t : Outputs Nat Nat} (h : t.Ordered) (id : OutputId) (c : Configure)
    (fill : Color) (r : Recorder) :
    Doing (fun a => a.Configures c ∨ a.Paints fill) (t, r)
      (tried (handleConfigure id c fill) (t, r)).2 := by
  rcases handleConfigure_cases h id c fill r with
    ⟨hpassed, -⟩ | ⟨pre, e, post, surface, rfl, -, hsurface, htaken⟩
  · rw [hpassed]
    exact .refl _
  · have hconfigured : Doing (fun a => a.Configures c ∨ a.Paints fill) (⟨pre ++ e :: post⟩, r)
        (⟨pre ++ e.configure c :: post⟩, r.noting [⟨.acknowledge surface c.serial, true⟩]) :=
      .single (.inl ⟨e, surface, rfl⟩) (.turned pre post (.configured c hsurface))
    rw [htaken]
    exact hconfigured.trans ((OutputEntry.turning_present fill _ _ pre post).mono fun a => .inr)

end Outputs

end ScreenLocker
