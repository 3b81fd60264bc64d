import Mathlib.Data.List.Induction
import ScreenLocker.Proofs.Locker

/-! The scale of an output, and the pictures for its surface. A scale counts as soon as it is announced.
Whatever leads to a picture before the batch of properties is at its end, the picture is in the new
scale. -/

namespace ScreenLocker.Batches

open Act (Does Turns)
open Ledger (madeFor)
open Locker (Event Step perform scene May)

variable {σ : Type}

/-- What has been said about the scale of an output. -/
structure Scales where
  announced : Int := 1
  /-- The scale at the end of the last batch. -/
  settled : Int := 1

/-- An output that arrives, under whatever number, has said nothing yet. -/
def Scales.hear (id : OutputId) (k : Scales) : Event σ → Scales
  | .added id' _ => if id' = id then {} else k
  | .output id' (.scale factor) => if id' = id then { k with announced := factor } else k
  | .output id' .done => if id' = id then { k with settled := k.announced } else k
  | _ => k

def scales (id : OutputId) (es : List (Event σ)) : Scales := es.foldl (Scales.hear id) {}

/-- The scale announced for each output. -/
def announced (es : List (Event σ)) (id : OutputId) : Int := (scales id es).announced

theorem scales_snoc (id : OutputId) (es : List (Event σ)) (e : Event σ) :
    scales id (es ++ [e]) = (scales id es).hear id e := List.foldl_append

/-- The last batch is closed, or a scale has been announced since. -/
theorem settled_or_open (id : OutputId) (es : List (Event σ)) :
    (scales id es).settled = (scales id es).announced ∨
    ∃ before factor after, es = before ++ .output id (.scale factor) :: after ∧
      .output id .done ∉ after ∧ (scales id es).announced = factor := by
  induction es using List.reverseRecOn with
  | nil => exact .inl rfl
  | append_singleton es e ih =>
    rw [scales_snoc]
    have hother (hsame : (scales id es).hear id e = scales id es) (hdone : e ≠ .output id .done) :
        ((scales id es).hear id e).settled = ((scales id es).hear id e).announced ∨
        ∃ before factor after, es ++ [e] = before ++ .output id (.scale factor) :: after ∧
          .output id .done ∉ after ∧ ((scales id es).hear id e).announced = factor := by
      rw [hsame]
      refine ih.imp_right ?_
      rintro ⟨before, factor, after, rfl, hafter, hfactor⟩
      refine ⟨before, factor, after ++ [e], by simp, ?_, hfactor⟩
      simpa [hafter] using hdone.symm
    cases e with
    | added id' output =>
      by_cases hid : id' = id
      · exact .inl (by simp [Scales.hear, hid])
      · exact hother (if_neg hid) (by simp)
    | output id' event =>
      by_cases hid : id' = id
      · subst hid
        cases event with
        | scale factor => exact .inr ⟨es, factor, [], rfl, by simp, by simp [Scales.hear]⟩
        | done => exact .inl (by simp [Scales.hear])
        | geometry => exact hother rfl (by simp)
        | name => exact hother rfl (by simp)
      · refine hother ?_ (by simp [hid])
        cases event with
        | scale factor => exact if_neg hid
        | done => exact if_neg hid
        | geometry => rfl
        | name => rfl
    | _ => exact hother rfl (by simp)

/-! What each act does to the scales. -/

/-- The call shows pictures only in the scale of the output for which the surface was made. -/
def Shown (first : Nat) (scale : OutputId → Int) (calls : List Call) (call : Call) : Prop :=
  ∀ surface picture, call.request = .present surface picture →
    ∃ id, (id, surface) ∈ madeFor first calls ∧ picture.scale = max (scale id) 1

/-- Entries and the pictures since the calls in `old` are in the scale of their output. -/
structure Scaled (first : Nat) (scale : OutputId → Int) (old : List Call) (s : Scene) : Prop where
  entries : ∀ e ∈ s.1.entries, e.scale = scale e.id
  owned : ∀ e ∈ s.1.entries, ∀ surface, e.surface = some surface →
    (e.id, surface) ∈ madeFor first s.2.calls
  shown : ∃ new, s.2.calls = old ++ new ∧ ∀ call ∈ new, Shown first scale s.2.calls call

/-- Acts that leave the scales as they are. -/
def Steady (a : Act) : Prop := ¬ a.Receives ∧ ∀ factor, ¬ a.Updates (.scale factor)

section Acts

variable {first : Nat} {scale : OutputId → Int} {old : List Call} {log : List Ledger.Mark}

theorem shown_of_nameless {call : Call} (h : call.surface? = none ∨
    ∀ surface picture, call.request ≠ .present surface picture) (calls : List Call) :
    Shown first scale calls call := by
  intro surface picture hpresent
  rcases h with h | h
  · simp [Call.surface?, hpresent] at h
  · exact absurd hpresent (h surface picture)

/-- More calls, each of them shown in the right scale. -/
theorem Scaled.called {t : Outputs Nat Nat} {r r' : Recorder} (h : Scaled first scale old (t, r))
    {more : List Call} (hcalls : r'.calls = r.calls ++ more)
    (hmore : ∀ call ∈ more, Shown first scale r'.calls call) : Scaled first scale old (t, r') where
  entries := h.entries
  owned := fun e he surface hsurface =>
    Ledger.grants_subset first ⟨more, hcalls.symm⟩ (h.owned e he surface hsurface)
  shown := by
    obtain ⟨new, hnew, hshown⟩ := h.shown
    refine ⟨new ++ more, by rw [hcalls, hnew, List.append_assoc], fun call hcall => ?_⟩
    rcases List.mem_append.mp hcall with hcall | hcall
    · intro surface picture hpresent
      obtain ⟨id, hid, hscale⟩ := hshown call hcall surface picture hpresent
      exact ⟨id, Ledger.grants_subset first ⟨more, hcalls.symm⟩ hid, hscale⟩
    · exact hmore call hcall

/-- An entry in place of another of the same number and scale. -/
theorem Scaled.entered {pre post : List Screen} {e e' : Screen} {r : Recorder}
    (h : Scaled first scale old (⟨pre ++ e :: post⟩, r)) (hid : e'.id = e.id) (hscale : e'.scale = e.scale)
    (howned : ∀ surface, e'.surface = some surface → (e.id, surface) ∈ madeFor first r.calls) :
    Scaled first scale old (⟨pre ++ e' :: post⟩, r) where
  entries := by
    obtain ⟨he, hothers⟩ := forall_mem_middle.mp h.entries
    refine forall_mem_middle.mpr ⟨?_, hothers⟩
    rw [hscale, hid, he]
  owned := by
    obtain ⟨-, hothers⟩ := forall_mem_middle.mp h.owned
    exact forall_mem_middle.mpr ⟨fun surface hsurface => hid ▸ howned surface hsurface, hothers⟩
  shown := h.shown

theorem Scaled.painted {t : Outputs Nat Nat} {r : Recorder} (h : Scaled first scale old (t, r)) {e : Screen}
    (he : e ∈ t.entries) {surface : Nat} (hsurface : e.surface = some surface) (fill : Color)
    (granted : Bool) (more : List Call) :
    Shown first scale (r.calls ++ more) ⟨.present surface (e.picture fill), granted⟩ := by
  rintro _ _ hpresent
  obtain ⟨rfl, rfl⟩ := Request.present.inj hpresent
  refine ⟨e.id, Ledger.grants_subset first (List.prefix_append ..) (h.owned e he surface hsurface), ?_⟩
  rw [← h.entries e he]
  rfl

theorem scale_update {event : OutputEvent} (h : ∀ factor, event ≠ .scale factor) (e : Screen) :
    (e.update event).scale = e.scale := by
  cases event with
  | geometry width height => unfold OutputEntry.update; dsimp only; split <;> rfl
  | scale factor => exact absurd rfl (h factor)
  | name text => rfl
  | done => rfl

theorem Scaled.turned {a : Act} {e e' : Screen} {r r' : Recorder} {pre post : List Screen}
    (hbooks : Books first log (⟨pre ++ e :: post⟩, r))
    (h : Scaled first scale old (⟨pre ++ e :: post⟩, r)) (hsteady : Steady a)
    (turn : Turns a e r e' r') : Scaled first scale old (⟨pre ++ e' :: post⟩, r') := by
  have he : e ∈ pre ++ e :: post := by simp
  have hheld {surface : Nat} (hsurface : e.surface = some surface) (r' : Recorder) (more : List Call)
      (hcalls : r'.calls = r.calls ++ more) : (e.id, surface) ∈ madeFor first r'.calls :=
    Ledger.grants_subset first ⟨more, hcalls.symm⟩ (h.owned e he surface hsurface)
  cases turn with
  | updated _ event =>
    obtain ⟨hid, -, hsurface, -⟩ := e.update_keeps event
    have hscale := scale_update (fun factor hfactor => hsteady.2 factor ⟨e, hfactor ▸ rfl⟩) e
    exact h.entered hid hscale fun surface hs => h.owned e he surface (hsurface ▸ hs)
  | damaged => exact h.entered rfl rfl fun surface hs => h.owned e he surface hs
  | covered armed =>
    refine Scaled.entered (e := e) (h.called rfl fun call hcall => ?_) rfl rfl fun surface hs => ?_
    · obtain rfl := List.mem_singleton.mp hcall
      exact shown_of_nameless (.inl rfl) _
    · obtain rfl : r.nextHandle = surface := Option.some.inj hs
      rw [hbooks.next, ← Ledger.length_madeFor]
      change _ ∈ madeFor first (r.calls ++ [_])
      rw [madeFor, Ledger.grants_append]
      exact List.mem_append_right _ List.mem_cons_self
  | uncovered armed =>
    refine h.called rfl fun call hcall => ?_
    obtain rfl := List.mem_singleton.mp hcall
    exact shown_of_nameless (.inl rfl) _
  | @configured _ surface _ c hsurface =>
    refine Scaled.entered (e := e) (h.called rfl fun call hcall => ?_) rfl rfl fun surface hs => ?_
    · obtain rfl := List.mem_singleton.mp hcall
      exact shown_of_nameless (.inr (by simp)) _
    · exact hheld hs _ _ rfl
  | @painted _ surface fill _ armed hsurface =>
    refine Scaled.entered (e := e) (h.called rfl fun call hcall => ?_) rfl rfl fun surface hs => ?_
    · obtain rfl := List.mem_singleton.mp hcall
      exact h.painted he hsurface fill true _
    · exact hheld hs _ _ rfl
  | @unpainted _ surface fill _ armed hsurface =>
    refine h.called rfl fun call hcall => ?_
    obtain rfl := List.mem_singleton.mp hcall
    exact h.painted he hsurface fill false _

theorem farewell_unshown (e : Screen) (calls : List Call) :
    ∀ call ∈ e.farewell, Shown first scale calls call := by
  intro call hcall
  obtain ⟨surface, -, rfl⟩ | rfl := OutputEntry.mem_farewell.mp hcall
  · exact shown_of_nameless (.inr (by simp)) calls
  · exact shown_of_nameless (.inl rfl) calls

theorem Scaled.done {a : Act} {s s' : Scene} (hbooks : Books first log s) (h : Scaled first scale old s)
    (hsteady : Steady a) (hdoes : Does a s s') : Scaled first scale old s' := by
  cases hdoes with
  | received pre post r id output => exact absurd ⟨id, output, rfl⟩ hsteady.1
  | released pre post r e =>
    have hleft : Scaled first scale old (⟨pre ++ post⟩, r) :=
      ⟨(forall_mem_middle.mp h.entries).2, (forall_mem_middle.mp h.owned).2, h.shown⟩
    exact hleft.called rfl (farewell_unshown e _)
  | turned pre post turn => exact h.turned hbooks hsteady turn
  | asked t r armed lock =>
    refine h.called rfl fun call hcall => ?_
    obtain rfl := List.mem_singleton.mp hcall
    exact shown_of_nameless (.inl lock.nameless.1) _

theorem Scaled.performed {acts : List Act} {s s' : Scene} (hbooks : Books first log s)
    (h : Scaled first scale old s) (hsteady : ∀ a ∈ acts, Steady a) (hacts : Performs acts s s') :
    Scaled first scale old s' := by
  let I (s : Scene) := (∃ log, Books first log s) ∧ Scaled first scale old s
  have hstep : ∀ a s s', Steady a → Does a s s' → I s → I s' := by
    rintro a s s' ha hdoes ⟨⟨log, hbooks⟩, hscaled⟩
    exact ⟨⟨_, hbooks.done hdoes⟩, hscaled.done hbooks ha hdoes⟩
  exact (Doing.keeps hstep ⟨acts, hsteady, hacts⟩ ⟨⟨log, hbooks⟩, h⟩).2

end Acts

/-! A run, event by event. -/

theorem announced_other {id : OutputId} {e : Event σ} (h : ∀ output, e ≠ .added id output)
    (h' : ∀ factor, e ≠ .output id (.scale factor)) (es : List (Event σ)) :
    announced (es ++ [e]) id = announced es id := by
  rw [announced, scales_snoc]
  cases e with
  | added id' output =>
    have hid : id' ≠ id := fun hid => h output (hid ▸ rfl)
    rw [Scales.hear, if_neg hid]
    rfl
  | output id' event =>
    cases event with
    | scale factor =>
      have hid : id' ≠ id := fun hid => h' factor (hid ▸ rfl)
      rw [Scales.hear, if_neg hid]
      rfl
    | done =>
      rw [Scales.hear]
      split <;> rfl
    | geometry => rfl
    | name => rfl
  | _ => rfl

theorem announced_added (id : OutputId) (output : Nat) (es : List (Event σ)) :
    announced (es ++ [.added id output]) id = 1 := by
  rw [announced, scales_snoc, Scales.hear, if_pos rfl]

theorem announced_scale (id : OutputId) (factor : Int) (es : List (Event σ)) :
    announced (es ++ [.output id (.scale factor)]) id = factor := by
  rw [announced, scales_snoc, Scales.hear, if_pos rfl]

section Events

variable {first : Nat} {es : List (Event σ)} {c : RecordedCore σ}

theorem steady_of_may {p : LockPhase} {fill : Color} {e : Event σ} {a : Act} (h : May p fill e a)
    (hscale : ∀ id factor, e ≠ .output id (.scale factor)) : Steady a := by
  refine ⟨h.not_receives, ?_⟩
  rintro factor ⟨x, rfl⟩
  obtain ⟨id, hevent⟩ := h.bounds
  exact hscale id factor hevent

theorem scaled_added (hordered : c.outputs.Ordered)
    (h : Scaled first (announced es) c.backend.calls (scene c)) (id : OutputId) (output : Nat) :
    Scaled first (announced (es ++ [(.added id output : Event σ)])) c.backend.calls
      (outcome (Outputs.add id output) (scene c)).2 := by
  obtain ⟨pre, post, hplace, hfilter⟩ := Outputs.place_among (e := { id, output }) hordered
  have hothers : ∀ x ∈ pre ++ post, x ∈ c.outputs.entries ∧ x.id ≠ id := by
    intro x hx
    rw [← hfilter] at hx
    simpa using hx
  have hplaced : Scaled first (announced (es ++ [(.added id output : Event σ)])) c.backend.calls
      (⟨pre ++ { id, output } :: post⟩, c.backend) := by
    refine ⟨forall_mem_middle.mpr ⟨(announced_added id output es).symm, fun x hx => ?_⟩,
      forall_mem_middle.mpr ⟨by simp, fun x hx => h.owned x (hothers x hx).1⟩, [], by simp, by simp⟩
    obtain ⟨hmem, hne⟩ := hothers x hx
    rw [h.entries x hmem, announced_other (by simp [hne.symm]) (by simp)]
  rw [scene, Outputs.outcome_add, hplace]
  cases hfind : c.outputs.entries.find? fun x => x.id = id with
  | none => simpa [hfind] using hplaced
  | some old =>
    simp only [OutputEntry.outcome_release]
    exact hplaced.called rfl (farewell_unshown old _)

theorem scaled_scale (h : Scaled first (announced es) c.backend.calls (scene c))
    (id : OutputId) (factor : Int) :
    Scaled first (announced (es ++ [(.output id (.scale factor) : Event σ)])) c.backend.calls
      (tried (Outputs.handleEvent id (.scale factor) c.session.isActive) (scene c)).2 := by
  have hother {x : Screen} (hx : x ∈ c.outputs.entries) (hne : x.id ≠ id) :
      x.scale = announced (es ++ [(.output id (.scale factor) : Event σ)]) x.id := by
    rw [h.entries x hx, announced_other (by simp) (by simp [hne.symm])]
  rw [scene, Outputs.tried_handleEvent]
  cases hfind : c.outputs.find? id with
  | none =>
    have habsent : ∀ x ∈ c.outputs.entries, x.id ≠ id := by
      simpa [Outputs.find?] using hfind
    exact ⟨fun x hx => hother hx (habsent x hx), h.owned, [], by simp, by simp⟩
  | some e =>
    have hmem : e ∈ c.outputs.entries := Outputs.mem_of_find? hfind
    have hid : e.id = id := by simpa using List.find?_some hfind
    obtain ⟨hsame, -, hsurface, -⟩ := e.update_keeps (.scale factor)
    have hscale : (e.update (.scale factor)).scale = factor := by
      unfold OutputEntry.update
      dsimp only
      split
      · assumption
      · rfl
    simp only [reduceCtorEq, false_and, if_false]
    refine ⟨?_, ?_, [], by simp, by simp⟩
    · intro x hx
      obtain ⟨y, hy, rfl⟩ := List.mem_map.mp hx
      split
      · rw [hscale, hsame, hid, announced_scale]
      · next hne => exact hother hy (hid ▸ hsame ▸ hne)
    · refine Outputs.replaced_forall h.owned fun surface hheld => ?_
      rw [hsame]
      exact h.owned e hmem surface (hsurface ▸ hheld)

theorem scaled_perform [CredentialSink σ] {ms : List (Step σ)} (hkept : Locker.Kept first ms c)
    (h : Scaled first (announced es) c.backend.calls (scene c)) (e : Event σ) :
    Scaled first (announced (es ++ [e])) c.backend.calls (scene (outcome (perform e) c).2) := by
  have hother (hadded : ∀ id output, e ≠ .added id output)
      (hscale : ∀ id factor, e ≠ .output id (.scale factor)) (hreceives : Locker.receives e = []) :
      Scaled first (announced (es ++ [e])) c.backend.calls (scene (outcome (perform e) c).2) := by
    obtain ⟨hbooks, hordered⟩ := hkept
    obtain ⟨⟨acts, hmay, hacts⟩, -⟩ := Locker.performs hordered e
    have hsame : announced (es ++ [e]) = announced es :=
      funext fun id => announced_other (hadded id) (hscale id) es
    rw [hreceives] at hacts
    rw [hsame]
    exact h.performed hbooks (fun a ha => steady_of_may (hmay a ha) hscale) hacts
  cases e with
  | added id output => exact scaled_added hkept.2 h id output
  | output id event =>
    cases event with
    | scale factor =>
      have hscene : scene (outcome (perform (.output id (.scale factor))) c).2 =
          (tried (Outputs.handleEvent id (.scale factor) c.session.isActive) (scene c)).2 := by
        change scene (outcome (Core.onOutputEvent id (.scale factor)) c).2 = _
        rw [Core.outcome_onOutputEvent]
        dsimp only
        split <;> rfl
      rw [hscene]
      exact scaled_scale h id factor
    | geometry => exact hother (by simp) (by simp) rfl
    | name => exact hother (by simp) (by simp) rfl
    | done => exact hother (by simp) (by simp) rfl
  | _ => exact hother (by simp) (by simp) rfl

end Events

/-- The books are in order, and the entries in the scales announced. -/
def Kept (first : Nat) (ms : List (Step σ)) (c : RecordedCore σ) : Prop :=
  Locker.Kept first ms c ∧ Scaled first (announced (ms.map Moment.event)) c.backend.calls (scene c)

theorem Kept.next [CredentialSink σ] {first : Nat} {ms : List (Step σ)} {c : RecordedCore σ}
    (h : Kept first ms c) (e : Event σ) :
    Kept first (ms ++ [Run.moment perform c e]) (Run.moment perform c e).after := by
  have hscaled := scaled_perform h.1 h.2 e
  refine ⟨h.1.next e, ?_⟩
  rw [List.map_append]
  exact ⟨hscaled.entries, hscaled.owned, [], (List.append_nil _).symm, by simp⟩

/-- A picture for the surface of an output is in the scale that was announced for the output last, whatever
the step is that leads to it. That is the scale at the end of the last batch, or one that was announced
since in a batch that is still open. -/
theorem painted_in_announced_scale [CredentialSink σ] (armed : List ArmedFailure) (nextHandle : Nat)
    (sink : σ) (buffer : SecureBuffer) (ignoreEmpty : Bool) (palette : Palette) (es : List (Event σ)) :
    let start : RecordedCore σ := Core.fresh { armed, nextHandle } sink buffer ignoreEmpty palette
    let ms : List (Step σ) := Run.moments perform es start
    ∀ (pre : List (Step σ)) (m : Step σ) post, ms = pre ++ m :: post → ∀ surface picture granted,
      ⟨.present surface picture, granted⟩ ∈ m.calls →
      ∀ id, (id, surface) ∈ madeFor nextHandle m.after.backend.calls →
        let heard := (pre ++ [m]).map Moment.event
        picture.scale = max (scales id heard).announced 1 ∧
        (picture.scale = max (scales id heard).settled 1 ∨
          ∃ before factor after, heard = before ++ .output id (.scale factor) :: after ∧
            .output id .done ∉ after ∧ picture.scale = max factor 1) := by
  intro start ms pre m post hsplit surface picture granted hcall id hmade heard
  have hstart : Kept nextHandle ([] : List (Step σ)) start :=
    ⟨Locker.kept_fresh armed nextHandle sink buffer ignoreEmpty palette,
      by simp [start, scene, Core.fresh], by simp [start, scene, Core.fresh], [], rfl, by simp⟩
  have hnext : ∀ (ms : List (Step σ)) c e, Kept nextHandle ms c →
      Kept nextHandle (ms ++ [Run.moment perform c e]) (Run.moment perform c e).after :=
    fun _ _ e h => h.next e
  obtain ⟨hbefore, hmoment⟩ := Run.holds_before hnext hstart hsplit
  have hscaled := scaled_perform hbefore.1 hbefore.2 m.event
  have hafter : (outcome (perform m.event) m.before).2 = m.after := (congrArg Moment.after hmoment).symm
  have hheard : heard = pre.map Moment.event ++ [m.event] := List.map_append
  rw [hafter, ← hheard] at hscaled
  have hpicture : picture.scale = max (scales id heard).announced 1 := by
    obtain ⟨new, hcalls, hshown⟩ := hscaled.shown
    rw [Locker.Step.calls_eq hcalls] at hcall
    obtain ⟨owner, howner, hscale⟩ := hshown _ hcall surface picture rfl
    rw [Ledger.grants_unique nextHandle _ hmade howner]
    exact hscale
  refine ⟨hpicture, ?_⟩
  rcases settled_or_open id heard with hsettled | ⟨before, factor, after, hopen, hdone, hfactor⟩
  · exact .inl (hsettled ▸ hpicture)
  · exact .inr ⟨before, factor, after, hopen, hdone, hfactor ▸ hpicture⟩

/-- A repaint in the middle of a batch is in the scale of that batch. -/
theorem painted_before_done :
    let start : RecordedCore SubmissionRecord :=
      Core.fresh { nextHandle := 2 } {} ⟨zeros 8, 0, 64, 0, {}⟩ false {}
    let es : List (Event SubmissionRecord) :=
      [.added 1 1, .output 1 .done, .start, .configure 1 ⟨4, 800, 600⟩, .output 1 (.scale 2), .redraw]
    let ms : List (Step SubmissionRecord) := Run.moments perform es start
    (scales 1 es).settled = 1 ∧
    ∃ m ∈ ms, (1, 2) ∈ madeFor 2 m.after.backend.calls ∧ m.event matches .redraw ∧
      m.calls = [⟨.present 2 ⟨1600, 1200, 2, start.fill⟩, true⟩] := by
  decide +kernel

end ScreenLocker.Batches
