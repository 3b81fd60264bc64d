import ScreenLocker.Proofs.Acknowledgement

/-! The operations on the outputs where the compositor refuses nothing. Each is one pass over the table,
in which it is settled entry by entry what becomes of it. Only the number of a new surface depends on the
entries before. -/

namespace ScreenLocker

/-- The entry once it is painted if that is due, and the call for it. -/
def OutputEntry.shown (fill : Color) (e : Screen) : Screen × List Call :=
  match e.surface with
  | none => (e, [])
  | some surface =>
    let picture := e.picture fill
    if (e.configured && e.dirty) && !(picture.width = 0 || picture.height = 0) then
      ({ e with dirty := false }, [⟨.present surface picture, true⟩])
    else (e, [])

namespace Outputs

/-- What becomes of an entry. -/
inductive Fate where
  /-- It stays, with calls for the surface that it has. -/
  | stays (e : Screen) (calls : List Call)
  /-- It is given a surface. -/
  | covered (e : Screen)
  /-- Its handles are given up. -/
  | goes

/-- What an operation does to an entry if nothing is refused. An arrival drives out the entry of its
number. -/
def fate : Operation → Screen → Fate
  | .add id _, e | .remove id, e => if e.id = id then .goes else .stays e []
  | .event id event lockActive, e =>
    if e.id = id then
      if (event = .done && lockActive) && e.surface.isNone then .covered (e.update event)
      else .stays (e.update event) []
    else .stays e []
  | .ensureSurfaces, e => if e.ready && e.surface.isNone then .covered e else .stays e []
  | .configure id c fill, e =>
    match e.surface with
    | none => .stays e []
    | some surface =>
      if e.id = id then
        let painted := (e.configure c).shown fill
        .stays painted.1 (⟨.acknowledge surface c.serial, true⟩ :: painted.2)
      else .stays e []
  | .damageAll, e => .stays { e with dirty := true } []
  | .render fill, e => .stays (e.shown fill).1 (e.shown fill).2
  | .teardown, _ => .goes

/-- What is left of an entry, and the record after it. -/
def Fate.settle (f : Fate) (e : Screen) (r : Recorder) : List Screen × Recorder :=
  match f with
  | .stays e' calls => ([e'], r.noting calls)
  | .covered e' =>
    ([{ e' with surface := some r.nextHandle }],
      { r.noting [⟨.createSurface e.id e.output, true⟩] with nextHandle := r.nextHandle + 1 })
  | .goes => ([], r.noting e.farewell)

/-- An operation, entry by entry. -/
def pass (op : Operation) : List Screen → Recorder → List Screen × Recorder
  | [], r => ([], r)
  | e :: rest, r =>
    let settled := (fate op e).settle e r
    let passed := pass op rest settled.2
    (settled.1 ++ passed.1, passed.2)

/-- The scene after a pass over its table. -/
def passed (op : Operation) : Scene → Scene
  | (t, r) => (⟨(pass op t.entries r).1⟩, (pass op t.entries r).2)

section Passes

variable {op : Operation} {r : Recorder}

@[simp] theorem noting_nil (r : Recorder) : r.noting [] = r := by
  simp [Recorder.noting]

theorem noting_noting (r : Recorder) (calls calls' : List Call) :
    (r.noting calls).noting calls' = r.noting (calls ++ calls') := by
  simp [Recorder.noting]

theorem pass_append (entries rest : List Screen) (r : Recorder) :
    pass op (entries ++ rest) r =
      ((pass op entries r).1 ++ (pass op rest (pass op entries r).2).1,
        (pass op rest (pass op entries r).2).2) := by
  induction entries generalizing r with
  | nil => rfl
  | cons e entries ih => simp only [List.cons_append, pass, ih, List.append_assoc]

/-- A pass over entries that are none of its business. -/
theorem pass_past {entries : List Screen} (h : ∀ e ∈ entries, fate op e = .stays e []) (r : Recorder) :
    pass op entries r = (entries, r) := by
  induction entries with
  | nil => rfl
  | cons e rest ih =>
    obtain ⟨he, hrest⟩ := List.forall_mem_cons.mp h
    rw [pass, he]
    simp [Fate.settle, ih hrest]

/-- A pass with one entry that it is about. -/
theorem pass_middle {pre post : List Screen} {e : Screen}
    (h : ∀ x ∈ pre ++ post, fate op x = .stays x []) (r : Recorder) :
    pass op (pre ++ e :: post) r =
      (pre ++ ((fate op e).settle e r).1 ++ post, ((fate op e).settle e r).2) := by
  obtain ⟨hpre, hpost⟩ := List.forall_mem_append.mp h
  rw [pass_append, pass_past hpre, pass, pass_past hpost, List.append_assoc]

theorem settle_armed (f : Fate) (e : Screen) (r : Recorder) : (f.settle e r).2.armed = r.armed := by
  cases f <;> rfl

theorem pass_armed (entries : List Screen) (r : Recorder) : (pass op entries r).2.armed = r.armed := by
  induction entries generalizing r with
  | nil => rfl
  | cons e rest ih => rw [pass, ih, settle_armed]

/-- The calls for an entry. -/
def Fate.calls (f : Fate) (e : Screen) : List Call :=
  match f with
  | .stays _ calls => calls
  | .covered _ => [⟨.createSurface e.id e.output, true⟩]
  | .goes => e.farewell

theorem settle_calls (f : Fate) (e : Screen) (r : Recorder) :
    (f.settle e r).2.calls = r.calls ++ f.calls e := by
  cases f <;> rfl

/-- The calls of a pass over the entries. -/
def due (op : Operation) (entries : List Screen) : List Call := entries.flatMap fun e => (fate op e).calls e

theorem pass_due (op : Operation) (entries : List Screen) (r : Recorder) :
    (pass op entries r).2.calls = r.calls ++ due op entries := by
  induction entries generalizing r with
  | nil => exact (List.append_nil _).symm
  | cons e rest ih =>
    rw [pass, ih, settle_calls, List.append_assoc]
    rfl

theorem pass_calls (op : Operation) (entries : List Screen) (r : Recorder) :
    r.calls <+: (pass op entries r).2.calls := ⟨due op entries, (pass_due op entries r).symm⟩

theorem farewell_grants (e : Screen) : ∀ call ∈ e.farewell, call.grantedTo? = none := by
  intro call hcall
  obtain ⟨surface, -, rfl⟩ | rfl := OutputEntry.mem_farewell.mp hcall <;> rfl

/-- What becomes of an entry is done to it alone. -/
inductive Fate.Own (e : Screen) : Fate → Prop where
  | stays {e' : Screen} {calls : List Call} (id : e'.id = e.id) (output : e'.output = e.output)
      (surface : e'.surface = e.surface)
      (own : ∀ call ∈ calls, call.output? = none ∧ call.grantedTo? = none ∧
        ∃ surface, call.surface? = some surface ∧ e.surface = some surface) : Own e (.stays e' calls)
  | covered {e' : Screen} (id : e'.id = e.id) (output : e'.output = e.output) : Own e (.covered e')
  | goes : Own e .goes

theorem shown_own (fill : Color) (e : Screen) :
    (e.shown fill).1.id = e.id ∧ (e.shown fill).1.output = e.output ∧
    (e.shown fill).1.surface = e.surface ∧
    ∀ call ∈ (e.shown fill).2, call.output? = none ∧ call.grantedTo? = none ∧
      ∃ surface, call.surface? = some surface ∧ e.surface = some surface := by
  unfold OutputEntry.shown
  cases hsurface : e.surface with
  | none => exact ⟨rfl, rfl, hsurface, by simp⟩
  | some surface =>
    dsimp only
    split
    · refine ⟨rfl, rfl, rfl, fun call hcall => ?_⟩
      obtain rfl := List.mem_singleton.mp hcall
      exact ⟨rfl, rfl, surface, rfl, rfl⟩
    · exact ⟨rfl, rfl, hsurface, by simp⟩

theorem fate_own (op : Operation) (e : Screen) : (fate op e).Own e := by
  have hpast : (Fate.stays e []).Own e :=
    .stays rfl rfl rfl fun _ hcall => absurd hcall List.not_mem_nil
  cases op with
  | add id output =>
    simp only [fate]
    split
    · exact .goes
    · exact hpast
  | remove id =>
    simp only [fate]
    split
    · exact .goes
    · exact hpast
  | event id event active =>
    obtain ⟨hid, houtput, hsurface, -⟩ := e.update_keeps event
    simp only [fate]
    split
    · split
      · exact .covered hid houtput
      · exact .stays hid houtput hsurface (by simp)
    · exact hpast
  | ensureSurfaces =>
    simp only [fate]
    split
    · exact .covered rfl rfl
    · exact hpast
  | configure id c fill =>
    simp only [fate]
    split
    · exact hpast
    · next surface hsurface =>
      split
      · obtain ⟨hid, houtput, hsame, hcalls⟩ := shown_own fill (e.configure c)
        refine .stays hid houtput hsame fun call hcall => ?_
        rcases List.mem_cons.mp hcall with rfl | hcall
        · exact ⟨rfl, rfl, surface, rfl, hsurface⟩
        · exact hcalls call hcall
      · exact hpast
  | damageAll => exact .stays rfl rfl rfl (by simp)
  | render fill =>
    obtain ⟨hid, houtput, hsurface, hcalls⟩ := shown_own fill e
    exact .stays hid houtput hsurface hcalls
  | teardown => exact .goes

theorem settle_id {f : Fate} {e e' : Screen} (hown : f.Own e) (he' : e' ∈ (f.settle e r).1) :
    e'.id = e.id := by
  cases hown with
  | stays hid => exact (List.mem_singleton.mp he').symm ▸ hid
  | covered hid => exact (List.mem_singleton.mp he').symm ▸ hid
  | goes => exact absurd he' List.not_mem_nil

end Passes

end Outputs

/-! What is granted. -/

namespace OutputEntry

variable {r : Recorder}

theorem tried_ask_granted (h : r.armed = []) (request : Request) :
    tried (Recorder.ask request) r = (.ok (), r.noting [⟨request, true⟩]) := by
  simp [Recorder.ask, Recorder.trigger, Recorder.noting, h]

/-- There is nothing to paint. -/
def Still (fill : Color) (e : Screen) : Prop :=
  e.surface = none ∨ ¬ (e.configured ∧ e.dirty) ∨ (e.picture fill).width = 0 ∨ (e.picture fill).height = 0

theorem Still.shown {fill : Color} {e : Screen} (h : e.Still fill) : e.shown fill = (e, []) := by
  unfold OutputEntry.shown
  split
  · rfl
  · next surface hsurface =>
    refine if_neg ?_
    rcases h with hnone | hidle | hempty
    · exact absurd (hsurface.symm.trans hnone) (by simp)
    · simp_all
    · rcases hempty with hempty | hempty <;> simp [hempty]

theorem present_granted (h : r.armed = []) (fill : Color) (e : Screen) :
    ∃ hit, tried (e.present fill) r = (.ok ((e.shown fill).1, hit), r.noting (e.shown fill).2) := by
  rcases present_cases fill e r with
    ⟨hleft, hstill⟩ | ⟨surface, armed, hheld, hdue, hfull, -⟩
  · rw [hleft, Still.shown hstill]
    exact ⟨false, by simp⟩
  · have hpresent : tried (Compositor.present surface (e.picture fill) : Try Recorder Nat) r =
        tried (do Recorder.ask (.present surface (e.picture fill)); pure surface) r := rfl
    refine ⟨true, ?_⟩
    simp [present, shown, hheld, hdue, hfull, hpresent, tried_ask_granted h]

theorem createSurface_granted (h : r.armed = []) (e : Screen) :
    tried e.createSurface r =
      if e.surface.isNone then
        (.ok { e with surface := some r.nextHandle },
          { r.noting [⟨.createSurface e.id e.output, true⟩] with nextHandle := r.nextHandle + 1 })
      else (.ok e, r) := by
  cases hsurface : e.surface with
  | some surface => simp [createSurface, hsurface]
  | none =>
    have hcreate : tried (Compositor.createSurface e.id e.output : Try Recorder Nat) r =
        tried (do Recorder.ask (.createSurface e.id e.output); liftM Recorder.newHandle) r := rfl
    simp [createSurface, hsurface, hcreate, tried_ask_granted h, Recorder.newHandle, Recorder.noting]

end OutputEntry

namespace Outputs

section Granted

variable {op : Operation} {t : Outputs Nat Nat} {r : Recorder}

theorem sweep_pass {step : Screen → Try Recorder (Screen × Bool)}
    (hstep : ∀ e r, r.armed = [] → ∃ e' hit, ((fate op e).settle e r).1 = [e'] ∧
      tried (step e) r = (.ok (e', hit), ((fate op e).settle e r).2))
    (entries : List Screen) {r : Recorder} (harmed : r.armed = []) :
    pass op entries r = ((outcome (sweep step entries) r).1.2, (outcome (sweep step entries) r).2) := by
  induction entries generalizing r with
  | nil => rfl
  | cons e rest ih =>
    obtain ⟨e', hit, hentry, hmade⟩ := hstep e r harmed
    have harmed' : ((fate op e).settle e r).2.armed = [] := (settle_armed _ e r).trans harmed
    rw [outcome_sweep_cons, hmade, pass, hentry, ih harmed']
    rfl

theorem render_pass (fill : Color) (harmed : r.armed = []) :
    (tried (render fill) (t, r)).2 = passed (.render fill) (t, r) := by
  have hstep : ∀ e r, r.armed = [] → ∃ e' hit, ((fate (.render fill) e).settle e r).1 = [e'] ∧
      tried (e.present fill) r = (.ok (e', hit), ((fate (.render fill) e).settle e r).2) := by
    intro e r harmed
    obtain ⟨hit, hpresent⟩ := e.present_granted harmed fill
    exact ⟨_, hit, rfl, hpresent⟩
  rw [render, tried_sweepAll, passed, sweep_pass hstep t.entries harmed]

theorem ensureSurfaces_pass (harmed : r.armed = []) :
    (tried ensureSurfaces (t, r)).2 = passed .ensureSurfaces (t, r) := by
  have hstep : ∀ e r, r.armed = [] → ∃ e' hit, ((fate .ensureSurfaces e).settle e r).1 = [e'] ∧
      tried (coverReady e) r = (.ok (e', hit), ((fate .ensureSurfaces e).settle e r).2) := by
    intro e r harmed
    have hcreate := e.createSurface_granted harmed
    by_cases hready : e.ready
    · by_cases hbare : e.surface.isNone
      · rw [if_pos hbare] at hcreate
        refine ⟨{ e with surface := some r.nextHandle }, false, ?_, ?_⟩
        · simp [fate, hready, hbare, Fate.settle]
        · simp [coverReady, fate, hready, hbare, hcreate, Fate.settle]
      · rw [if_neg hbare] at hcreate
        refine ⟨e, false, by simp [fate, hbare, Fate.settle], ?_⟩
        simp [coverReady, fate, hready, hbare, hcreate, Fate.settle]
    · refine ⟨e, false, by simp [fate, hready, Fate.settle], ?_⟩
      simp [coverReady, fate, hready, Fate.settle]
  rw [tried_ensureSurfaces, passed, sweep_pass hstep t.entries harmed]

theorem teardown_pass : (outcome teardown (t, r)).2 = passed .teardown (t, r) := by
  have hreleased (entries : List Screen) (r : Recorder) : pass .teardown entries r =
      ([], (outcome (entries.forM OutputEntry.release : Op Recorder Unit) r).2) := by
    induction entries generalizing r with
    | nil => rfl
    | cons e rest ih =>
      have hforM : ((e :: rest).forM OutputEntry.release : Op Recorder Unit) =
          (do e.release; rest.forM OutputEntry.release) := rfl
      rw [hforM, outcome_bind, OutputEntry.outcome_release, pass, fate, Fate.settle, ih]
      rfl
  rw [outcome_teardown, passed, hreleased]

theorem damageAll_pass : (t.damageAll, r) = passed .damageAll (t, r) := by
  have hdamaged (entries : List Screen) :
      pass .damageAll entries r = (entries.map fun e => { e with dirty := true }, r) := by
    induction entries with
    | nil => rfl
    | cons e rest ih =>
      rw [pass, fate, Fate.settle, noting_nil, ih]
      rfl
  rw [passed, hdamaged, damageAll]

/-- What a pass comes to that is about one output. -/
theorem pass_one (op : Operation) (hordered : t.Ordered) {id : OutputId}
    (hother : ∀ e : Screen, e.id ≠ id → fate op e = .stays e []) (r : Recorder) :
    match t.find? id with
    | none => pass op t.entries r = (t.entries, r)
    | some e => ∃ pre post, t = ⟨pre ++ e :: post⟩ ∧
        (∀ e', e'.id = e.id → t.replaced e' = ⟨pre ++ e' :: post⟩) ∧
        t.entries.filter (·.id ≠ id) = pre ++ post ∧
        pass op t.entries r = (pre ++ ((fate op e).settle e r).1 ++ post, ((fate op e).settle e r).2) := by
  cases hfind : t.find? id with
  | none =>
    have habsent : ∀ e ∈ t.entries, e.id ≠ id := by simpa [find?] using hfind
    exact pass_past (fun e he => hother e (habsent e he)) r
  | some e =>
    obtain ⟨pre, post, ht, hreplaced, hfilter⟩ := hordered.split hfind
    refine ⟨pre, post, ht, hreplaced, hfilter, ?_⟩
    rw [ht]
    refine pass_middle (fun x hx => hother x ?_) r
    rw [← hfilter] at hx
    simpa using (List.mem_filter.mp hx).2

theorem remove_pass (hordered : t.Ordered) (id : OutputId) :
    (outcome (remove id) (t, r)).2 = passed (.remove id) (t, r) := by
  have hpass := pass_one (.remove id) hordered (fun e he => if_neg he) r
  rw [outcome_remove, passed]
  cases hfind : t.find? id with
  | none =>
    rw [hfind] at hpass
    rw [hpass]
  | some e =>
    rw [hfind] at hpass
    obtain ⟨pre, post, -, -, hfilter, hpass⟩ := hpass
    have hid : e.id = id := by simpa using List.find?_some hfind
    have hgoes : fate (.remove id) e = .goes := if_pos hid
    dsimp only
    rw [hpass, hgoes, hfilter, OutputEntry.outcome_release]
    simp [Fate.settle]

theorem handleEvent_pass (hordered : t.Ordered) (harmed : r.armed = []) (id : OutputId)
    (event : OutputEvent) (active : Bool) :
    (tried (handleEvent id event active) (t, r)).2 = passed (.event id event active) (t, r) := by
  have hpass := pass_one (.event id event active) hordered (fun e he => if_neg he) r
  rw [tried_handleEvent, passed]
  cases hfind : t.find? id with
  | none =>
    rw [hfind] at hpass
    rw [hpass]
  | some e =>
    rw [hfind] at hpass
    obtain ⟨pre, post, -, hreplaced, -, hpass⟩ := hpass
    have hid : e.id = id := by simpa using List.find?_some hfind
    obtain ⟨hsame, houtput, hsurface, -⟩ := e.update_keeps event
    have hcreate := (e.update event).createSurface_granted harmed
    rw [hsurface] at hcreate
    dsimp only
    rw [hpass]
    by_cases hcover : event = .done ∧ active
    · rw [if_pos hcover, hcreate]
      by_cases hbare : e.surface.isNone
      · have hfate : fate (.event id event active) e = .covered (e.update event) := by
          simp [fate, hid, hcover, hbare]
        rw [if_pos hbare, hfate]
        dsimp only
        have hcovered : ({ e.update event with surface := some r.nextHandle } : Screen).id =
          (e.update event).id := rfl
        rw [replaced_replaced hcovered, hreplaced _ (hcovered.trans hsame)]
        simp [Fate.settle, hsame, houtput]
      · have hfate : fate (.event id event active) e = .stays (e.update event) [] := by
          simp [fate, hid, hbare]
        rw [if_neg hbare, hfate]
        dsimp only
        rw [replaced_replaced rfl, hreplaced _ hsame]
        simp [Fate.settle]
    · have hfate : fate (.event id event active) e = .stays (e.update event) [] := by
        simp only [fate, if_pos hid]
        refine if_neg ?_
        simp_all
      rw [if_neg hcover, hfate, hreplaced _ hsame]
      simp [Fate.settle]

theorem handleConfigure_pass (hordered : t.Ordered) (harmed : r.armed = []) (id : OutputId) (c : Configure)
    (fill : Color) :
    (tried (handleConfigure id c fill) (t, r)).2 = passed (.configure id c fill) (t, r) := by
  have hother : ∀ e : Screen, e.id ≠ id → fate (.configure id c fill) e = .stays e [] := by
    intro e he
    cases hsurface : e.surface <;> simp [fate, hsurface, he]
  have hpass := pass_one (.configure id c fill) hordered hother r
  rw [tried_handleConfigure, passed]
  cases hfind : t.find? id with
  | none =>
    rw [hfind] at hpass
    rw [hpass]
  | some e =>
    rw [hfind] at hpass
    obtain ⟨pre, post, ht, hreplaced, -, hpass⟩ := hpass
    have hid : e.id = id := by simpa using List.find?_some hfind
    dsimp only
    rw [hpass]
    cases hsurface : e.surface with
    | none => simp [fate, hsurface, Fate.settle, ht]
    | some surface =>
      have hnote : (outcome (Compositor.acknowledge surface c.serial : Op Recorder Unit) r).2 =
          r.noting [⟨.acknowledge surface c.serial, true⟩] := rfl
      obtain ⟨hit, hpresent⟩ := (e.configure c).present_granted
        (r := r.noting [⟨.acknowledge surface c.serial, true⟩]) harmed fill
      have hkept : ((e.configure c).shown fill).1.id = e.id := (OutputEntry.present_ok hpresent).1
      dsimp only
      rw [hnote, hpresent]
      dsimp only
      rw [replaced_replaced (e := e.configure c) hkept, hreplaced _ hkept, noting_noting]
      simp [fate, hsurface, hid, Fate.settle]

/-- An operation other than an arrival is a pass over the table. -/
theorem operate_pass (hordered : t.Ordered) (harmed : r.armed = [])
    (hop : ∀ id output, op ≠ .add id output) : (outcome (operate op) (t, r)).2 = passed op (t, r) := by
  cases op with
  | add id output => exact absurd rfl (hop id output)
  | event id event active => exact handleEvent_pass hordered harmed id event active
  | ensureSurfaces => exact ensureSurfaces_pass harmed
  | configure id c fill => exact handleConfigure_pass hordered harmed id c fill
  | remove id => exact remove_pass hordered id
  | damageAll => exact damageAll_pass
  | render fill => exact render_pass fill harmed
  | teardown => exact teardown_pass

/-- An output that arrives takes its place after a pass over the table. -/
theorem operate_add (hordered : t.Ordered) (id : OutputId) (output : Nat) :
    ∃ pre post, (pass (.add id output) t.entries r).1 = pre ++ post ∧ (∀ e ∈ pre ++ post, e.id ≠ id) ∧
      (outcome (operate (.add id output)) (t, r)).2 =
        (⟨pre ++ { id, output } :: post⟩, (pass (.add id output) t.entries r).2) := by
  obtain ⟨pre, post, hplace, hfilter⟩ := place_among (e := { id, output }) hordered
  have hpass := pass_one (.add id output) hordered (fun e he => if_neg he) r
  have hothers : ∀ e ∈ pre ++ post, e.id ≠ id := by
    intro e he
    rw [← hfilter] at he
    simpa using (List.mem_filter.mp he).2
  have hadded : ∀ stale, t.find? id = stale → (outcome (operate (.add id output)) (t, r)).2 =
      (⟨pre ++ { id, output } :: post⟩,
        match stale with | some old => (outcome old.release r).2 | none => r) := by
    intro stale hfind
    have hfound : t.entries.find? (fun e => e.id = id) = stale := hfind
    change (outcome (add id output) (t, r)).2 = _
    rw [outcome_add, hplace, hfound]
    cases stale <;> rfl
  cases hfind : t.find? id with
  | none =>
    rw [hfind] at hpass
    have habsent : ∀ e ∈ t.entries, e.id ≠ id := by simpa [find?] using hfind
    rw [List.filter_eq_self.mpr fun e he => by simpa using habsent e he] at hfilter
    rw [hadded _ hfind, hpass]
    exact ⟨pre, post, hfilter, hothers, rfl⟩
  | some e =>
    rw [hfind] at hpass
    obtain ⟨pre', post', -, -, hfilter', hpass⟩ := hpass
    have hid : e.id = id := by simpa using List.find?_some hfind
    have hgoes : fate (.add id output) e = .goes := if_pos hid
    rw [hadded _ hfind, hpass, hgoes]
    refine ⟨pre, post, ?_, hothers, by simp [Fate.settle, OutputEntry.outcome_release]⟩
    simpa [Fate.settle] using hfilter'.symm.trans hfilter

end Granted

end Outputs

end ScreenLocker
