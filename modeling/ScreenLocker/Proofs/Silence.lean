import ScreenLocker.Proofs.Locker

/-! What can follow once the session is over. The lock is neither asked for nor given back again, no
output gets a surface, and the handles that are left are given up. If the lock was refused, the surfaces
made while the answer was out are still there until then; configures of them are acknowledged and they
are painted, as if the session went on. -/

namespace ScreenLocker.Silence

open Act (Does Turns)
open Locker

/-- The handles that the entries hold are among these. -/
def Confined (outputs surfaces : Nat → Prop) (s : Scene) : Prop :=
  ∀ e ∈ s.1.entries, outputs e.output ∧ ∀ surface, e.surface = some surface → surfaces surface

/-- Requests for these handles, apart from new surfaces; and to flush, if that is to be. -/
def Residual (outputs surfaces : Nat → Prop) (closing : Prop) : Request → Prop
  | .acknowledge surface _ | .present surface _ | .destroySurface surface => surfaces surface
  | .releaseOutput output => outputs output
  | .flush => closing
  | .requestLock | .createSurface .. | .unlock | .abandon => False

/-- Acts that take in no handles but these. -/
def TakesOnly (outputs : Nat → Prop) : Act → Prop
  | .received _ output => outputs output
  | .covered .. => False
  | _ => True

/-- Acts that are nothing to the lock, unless to flush. -/
def Late (closing : Prop) : Act → Prop
  | .asked call => call.request = .flush ∧ closing
  | .covered .. => False
  | _ => True

section Acts

variable {outputs surfaces : Nat → Prop} {closing : Prop} {a : Act} {s s' : Scene}

theorem confined_done (htakes : TakesOnly outputs a) (h : Confined outputs surfaces s)
    (hdoes : Does a s s') : Confined outputs surfaces s' := by
  cases hdoes with
  | received => exact forall_mem_middle.mpr ⟨⟨htakes, by simp⟩, h⟩
  | released => exact (forall_mem_middle.mp h).2
  | turned pre post turn =>
    obtain ⟨⟨houtput, hsurface⟩, hothers⟩ := forall_mem_middle.mp h
    refine forall_mem_middle.mpr ⟨⟨turn.same.2 ▸ houtput, ?_⟩, hothers⟩
    cases turn with
    | updated =>
      rw [(OutputEntry.update_keeps _ _).2.2.1]
      exact hsurface
    | covered => exact htakes.elim
    | _ => exact hsurface
  | asked => exact h

theorem residual_done (hlate : Late closing a) (h : Confined outputs surfaces s) (hdoes : Does a s s') :
    ∀ call ∈ a.calls, Residual outputs surfaces closing call.request := by
  cases hdoes with
  | received => simp [Act.calls]
  | released pre post r e =>
    obtain ⟨⟨houtput, hsurface⟩, -⟩ := forall_mem_middle.mp h
    intro call hcall
    cases hheld : e.surface with
    | none =>
      obtain rfl : call = _ := by simpa [Act.calls, OutputEntry.farewell, hheld] using hcall
      exact houtput
    | some surface =>
      obtain rfl | rfl : call = _ ∨ call = _ := by
        simpa [Act.calls, OutputEntry.farewell, hheld] using hcall
      · exact hsurface surface hheld
      · exact houtput
  | turned pre post turn =>
    obtain ⟨⟨houtput, hsurface⟩, -⟩ := forall_mem_middle.mp h
    cases turn with
    | updated => simp [Act.calls]
    | damaged => simp [Act.calls]
    | covered => exact hlate.elim
    | uncovered => exact hlate.elim
    | configured c hheld => simpa [Act.calls, Residual] using hsurface _ hheld
    | painted armed hheld => simpa [Act.calls, Residual] using hsurface _ hheld
    | unpainted armed hheld => simpa [Act.calls, Residual] using hsurface _ hheld
  | asked t r armed lock =>
    intro call hcall
    obtain ⟨hflush, hclosing⟩ := hlate
    rw [List.mem_singleton.mp hcall, hflush]
    exact hclosing

theorem confined_performed {acts : List Act} (htakes : ∀ a ∈ acts, TakesOnly outputs a)
    (h : Confined outputs surfaces s) (hacts : Performs acts s s') : Confined outputs surfaces s' :=
  Doing.keeps (fun _ _ _ ha hdoes hs => confined_done ha hs hdoes) ⟨acts, htakes, hacts⟩ h

theorem residual_performed {acts : List Act} (hlate : ∀ a ∈ acts, TakesOnly outputs a ∧ Late closing a)
    (h : Confined outputs surfaces s) (hacts : Performs acts s s') :
    Confined outputs surfaces s' ∧
      ∀ call ∈ acts.flatMap Act.calls, Residual outputs surfaces closing call.request :=
  hacts.keeps (fun _ _ _ ha hdoes hs => ⟨confined_done ha.1 hs hdoes, residual_done ha.2 hs hdoes⟩)
    hlate h

end Acts

theorem isTerminated_iff {p : LockPhase} : p.isTerminated ↔ ∃ how, p = .terminated how := by
  cases p <;> simp [LockPhase.isTerminated]

section Events

variable {σ : Type} {c : RecordedCore σ}

/-- Outputs get surfaces while the lock is asked for or held, and when it is asked for. -/
theorem may_take {p : LockPhase} {fill : Color} {e : Event σ} {a : Act} (h : May p fill e a)
    (hidle : p ≠ .idle) (hactive : ¬ p.isActive) (outputs : Nat → Prop) : TakesOnly outputs a := by
  have hbounds := h.bounds
  cases a with
  | received id output => exact hbounds.elim
  | covered x granted => exact hbounds.elim hidle hactive
  | _ => trivial

theorem may_late {how : Termination} {fill : Color} {e : Event σ} {a : Act}
    (h : May (.terminated how) fill e a) (outputs : Nat → Prop) :
    TakesOnly outputs a ∧ Late (e = .shutdown) a := by
  have htakes := may_take h (by simp) (by simp [LockPhase.isActive]) outputs
  refine ⟨htakes, ?_⟩
  have hbounds := h.bounds
  cases a with
  | covered x granted => exact htakes
  | asked call => exact hbounds.resolve_left (by simp [LockPhase.isTerminated])
  | _ => trivial

theorem session_advance {accepts : Prop} {answer : Core.Answer} {c' : RecordedCore σ}
    (h : Core.Advance accepts c answer c') : c'.session = c.session := by
  cases h with
  | still => rfl
  | accepted => rfl
  | repainted a s =>
    rw [Core.tried_redraw]

variable [CredentialSink σ]

/-- A session that is over stays as it is. Otherwise, when the phase changes, the lock is then asked for
or held or has been refused, or else no output is left. -/
theorem session_perform (e : Event σ) (c : RecordedCore σ) :
    let c' := (outcome (perform e) c).2
    c'.session = c.session ∨ c.session.isTerminated = false ∧
      (c'.session.isActive ∨ c'.session = .terminated .rejected ∨ c'.outputs.entries = []) := by
  intro c'
  cases e with
  | start =>
    have hafter : c' = (tried Core.start c).2 := rfl
    rw [Core.tried_start] at hafter
    split at hafter
    · next hidle =>
      split at hafter
      · exact .inr ⟨by rw [hidle]; rfl, .inl (by rw [hafter]; rfl)⟩
      · exact .inl (by rw [hafter])
    · exact .inl (by rw [hafter])
  | lock event =>
    have hafter : c' = (outcome (Core.onLockEvent event) c).2 := rfl
    rw [Core.outcome_onLockEvent] at hafter
    split at hafter
    · next hpending => exact .inr ⟨by rw [hpending]; rfl, .inl (by rw [hafter]; rfl)⟩
    · next hpending => exact .inr ⟨by rw [hpending]; rfl, .inr (.inl (by rw [hafter]; rfl))⟩
    · next hlocked => exact .inr ⟨by rw [hlocked]; rfl, .inr (.inr (entries_ended hlocked))⟩
    · exact .inl (by rw [hafter])
  | output id event =>
    have hafter : c' = (outcome (Core.onOutputEvent id event) c).2 := rfl
    rw [Core.outcome_onOutputEvent] at hafter
    refine .inl ?_
    rw [hafter]
    dsimp only
    split
    · rfl
    · split <;> rfl
  | input event => exact .inl (session_advance (Core.advance_input event c))
  | judged read => exact .inl (session_advance (Core.advance_reading read c))
  | configure id event => exact .inl (RecordedCore.steady_configure id event c).session
  | redraw => exact .inl (RecordedCore.steady_redraw c).session
  | cancel => exact .inl (RecordedCore.steady_requestExit .cancelled c).session
  | shutdown =>
    cases hphase : c.session.isTerminated with
    | false => exact .inr ⟨rfl, .inr (.inr (entries_shutdown c))⟩
    | true =>
      obtain ⟨how, hover⟩ := isTerminated_iff.mp hphase
      have hafter : c' = (tried Core.shutdown c).2 := rfl
      rw [Core.tried_shutdown, SessionLock.outcome_beginUnlock, hover] at hafter
      refine .inl ?_
      rw [hafter, hover]
      dsimp only
      split <;> rfl
  | added | removed | takeFatal | takeNewlyLocked => exact .inl rfl

theorem session_stays {how : Termination} (h : c.session = .terminated how) (e : Event σ) :
    (outcome (perform e) c).2.session = .terminated how := by
  rcases session_perform e c with hsame | ⟨hnot, -⟩
  · exact hsame.trans h
  · exact absurd (h ▸ hnot) (by simp [LockPhase.isTerminated])

/-- Once the lock is being given back, or is gone without having been refused, no output has a
surface. -/
def Bare (c : RecordedCore σ) : Prop :=
  c.session = .unlocking ∨ c.session = .terminated .clean →
    Confined (fun _ => True) (fun _ => False) (scene c)

theorem bare_next (hordered : c.outputs.Ordered) (h : Bare c) (e : Event σ) :
    Bare (outcome (perform e) c).2 := by
  intro hgiven
  rcases session_perform e c with hsame | ⟨-, hactive | hrejected | hempty⟩
  · rw [hsame] at hgiven
    have hidle : c.session ≠ .idle := by rcases hgiven with hgiven | hgiven <;> rw [hgiven] <;> simp
    have hactive : ¬ c.session.isActive := by
      rcases hgiven with hgiven | hgiven <;> rw [hgiven] <;> simp [LockPhase.isActive]
    obtain ⟨⟨acts, hmay, hacts⟩, -⟩ := performs hordered e
    refine confined_performed (List.forall_mem_append.mpr ⟨fun a ha => ?_, fun a ha => ?_⟩)
      (h hgiven) hacts
    · obtain ⟨id, output, rfl⟩ := receives_receives ha
      trivial
    · exact may_take (hmay a ha) hidle hactive _
  · rcases hgiven with hgiven | hgiven <;> simp [hgiven, LockPhase.isActive] at hactive
  · rcases hgiven with hgiven | hgiven <;> simp [hgiven] at hrejected
  · intro x hx
    rw [scene, hempty] at hx
    exact absurd hx List.not_mem_nil

/-- An event after the end. -/
theorem late_next {how : Termination} {outputs surfaces : Nat → Prop} (hordered : c.outputs.Ordered)
    (hover : c.session = .terminated how) (h : Confined outputs surfaces (scene c)) {e : Event σ}
    (hreceived : ∀ id output, e = .added id output → outputs output) :
    let m : Step σ := Run.moment perform c e
    Confined outputs surfaces (scene m.after) ∧
      ∀ call ∈ m.calls, Residual outputs surfaces (e = .shutdown) call.request := by
  intro m
  obtain ⟨⟨acts, hmay, hacts⟩, -⟩ := performs hordered e
  have hlate : ∀ a ∈ receives e ++ acts, TakesOnly outputs a ∧ Late (e = .shutdown) a := by
    refine List.forall_mem_append.mpr ⟨fun a ha => ?_, fun a ha => may_late (hover ▸ hmay a ha) outputs⟩
    cases e with
    | added id output =>
      rw [List.mem_singleton.mp ha]
      exact ⟨hreceived id output rfl, trivial⟩
    | _ => exact absurd ha List.not_mem_nil
  rw [Step.calls_eq (m := m) hacts.calls]
  exact residual_performed hlate h hacts

/-- A run that starts when the session is over: the handles used are those held at its start, and the
outputs received in it. -/
theorem late_run {how : Termination} (hordered : c.outputs.Ordered)
    (hover : c.session = .terminated how) (es : List (Event σ)) :
    let ms : List (Step σ) := Run.moments perform es c
    ∀ m ∈ ms, m.after.session = .terminated how ∧
      ∀ call ∈ m.calls, Residual
        (fun output => (∃ e ∈ c.outputs.entries, e.output = output) ∨
          output ∈ Ledger.received (ms.flatMap Step.marks))
        (fun surface => ∃ e ∈ c.outputs.entries, e.surface = some surface)
        (m.event = .shutdown) call.request := by
  intro ms m hm
  let outputs (output : Nat) : Prop :=
    (∃ e ∈ c.outputs.entries, e.output = output) ∨ output ∈ Ledger.received (ms.flatMap Step.marks)
  let surfaces (surface : Nat) : Prop := ∃ e ∈ c.outputs.entries, e.surface = some surface
  have hreceived : ∀ x ∈ ms, ∀ id output, x.event = .added id output → outputs output := by
    intro x hx id output hadded
    have hmark : .received output ∈ ms.flatMap Step.marks :=
      List.mem_flatMap.mpr ⟨x, hx, by simp [Step.marks, hadded]⟩
    exact .inr (List.mem_filterMap.mpr ⟨.received output, hmark, rfl⟩)
  let P (past : List (Step σ)) (c' : RecordedCore σ) : Prop :=
    c'.session = .terminated how ∧ c'.outputs.Ordered ∧
      ((∀ x ∈ past, x ∈ ms) → Confined outputs surfaces (scene c'))
  have hstart : P [] c :=
    ⟨hover, hordered, fun _ e he => ⟨.inl ⟨e, he, rfl⟩, fun surface hsurface => ⟨e, he, hsurface⟩⟩⟩
  have hnext : ∀ past c' e, P past c' →
      P (past ++ [Run.moment perform c' e]) (Run.moment perform c' e).after := by
    rintro past c' e ⟨hover', hordered', hconfined⟩
    refine ⟨session_stays hover' e, (performs hordered' e).2, fun hpast => ?_⟩
    obtain ⟨hpast, hlast⟩ := List.forall_mem_append.mp hpast
    refine (late_next hordered' hover' (hconfined hpast) ?_).1
    exact hreceived _ (hlast _ (List.mem_singleton_self _))
  obtain ⟨pre, post, hsplit⟩ := List.append_of_mem hm
  obtain ⟨⟨hover', hordered', hconfined⟩, hmoment⟩ := Run.holds_before hnext hstart hsplit
  have hbefore : Confined outputs surfaces (scene m.before) :=
    hconfined fun x hx => by simp [hsplit, hx]
  have hcalls := (late_next hordered' hover' hbefore (hreceived m hm)).2
  have hstays := session_stays hover' m.event
  rw [hmoment]
  exact ⟨hstays, hcalls⟩

end Events

/-- The requests that can follow on `c` after its session has ended, with these outputs received
since. -/
def Follows {σ : Type} (how : Termination) (c : RecordedCore σ) (received : List Nat) (closing : Prop) :
    Request → Prop
  | .acknowledge surface _ | .present surface _ =>
    how = .rejected ∧ ∃ e ∈ c.outputs.entries, e.surface = some surface
  | .destroySurface surface => ∃ e ∈ c.outputs.entries, e.surface = some surface
  | .releaseOutput output => (∃ e ∈ c.outputs.entries, e.output = output) ∨ output ∈ received
  | .flush => closing
  | .requestLock | .createSurface .. | .unlock | .abandon => False

variable {σ : Type} [CredentialSink σ]

/-- Whatever comes after the end of the session, the lock is left alone and no surface is made. Surfaces
are acknowledged or painted only where the lock was refused with surfaces made for it; what else follows
is that handles are given up, and a flush at shutdown. -/
theorem silent_after_termination (armed : List ArmedFailure) (nextHandle : Nat) (sink : σ)
    (buffer : SecureBuffer) (ignoreEmpty : Bool) (palette : Palette) (es es' : List (Event σ))
    (how : Termination) :
    let start : RecordedCore σ := Core.fresh { armed, nextHandle } sink buffer ignoreEmpty palette
    let c := Run.final perform es start
    let ms : List (Step σ) := Run.moments perform es' c
    c.session = .terminated how →
      ∀ m ∈ ms, m.after.session = .terminated how ∧
        ∀ call ∈ m.calls,
          Follows how c (Ledger.received (ms.flatMap Step.marks)) (m.event = .shutdown)
            call.request := by
  intro start c ms hover m hm
  have hstart : start.outputs.Ordered ∧ Bare start :=
    ⟨List.Pairwise.nil, fun h => by simp [start, Core.fresh] at h⟩
  obtain ⟨hordered, hbare⟩ : c.outputs.Ordered ∧ Bare c :=
    Run.holds_final (P := fun _ c => c.outputs.Ordered ∧ Bare c)
      (fun _ c e h => ⟨(performs h.1 e).2, bare_next h.1 h.2 e⟩) es hstart
  -- Where the session ended cleanly, there is no surface left to be painted.
  have hrejected (surface : Nat) (h : ∃ e ∈ c.outputs.entries, e.surface = some surface) :
      how = .rejected := by
    cases how with
    | rejected => rfl
    | clean =>
      obtain ⟨e, he, hsurface⟩ := h
      exact ((hbare (.inr hover) e he).2 surface hsurface).elim
  obtain ⟨hstays, hcalls⟩ := late_run hordered hover es' m hm
  refine ⟨hstays, fun call hcall => ?_⟩
  have hresidual := hcalls call hcall
  obtain ⟨request, granted⟩ := call
  cases request with
  | acknowledge surface serial => exact ⟨hrejected surface hresidual, hresidual⟩
  | present surface picture => exact ⟨hrejected surface hresidual, hresidual⟩
  | _ => exact hresidual

theorem silent_after_refusal :
    let es : List (Event SubmissionRecord) := [.added 1 1, .output 1 .done, .start, .lock .finished]
    let es' : List (Event SubmissionRecord) := [.configure 1 ⟨9, 800, 600⟩, .shutdown]
    let start : RecordedCore SubmissionRecord :=
      Core.fresh { nextHandle := 2 } {} ⟨zeros 8, 0, 64, 0, {}⟩ false {}
    let c := Run.final perform es start
    let ms : List (Step SubmissionRecord) := Run.moments perform es' c
    c.session = .terminated .rejected ∧
      ∀ m ∈ ms, m.after.session = .terminated .rejected ∧
        ∀ call ∈ m.calls,
          Follows .rejected c (Ledger.received (ms.flatMap Step.marks)) (m.event = .shutdown)
            call.request := by
  intro es es' start c ms
  have hover : c.session = .terminated .rejected := by decide +kernel
  exact ⟨hover, silent_after_termination _ _ _ _ _ _ es es' .rejected hover⟩

/-- A lock that is refused while a configure is under way: the configure is acknowledged and the surface
painted after the session has ended. -/
theorem painted_after_refusal :
    let es : List (Event SubmissionRecord) := [.added 1 1, .output 1 .done, .start, .lock .finished]
    let start : RecordedCore SubmissionRecord :=
      Core.fresh { nextHandle := 2 } {} ⟨zeros 8, 0, 64, 0, {}⟩ false {}
    let c := Run.final perform es start
    let m : Step SubmissionRecord := Run.moment perform c (.configure 1 ⟨9, 800, 600⟩)
    c.session = .terminated .rejected ∧
      m.calls = [⟨.acknowledge 2 9, true⟩, ⟨.present 2 ⟨800, 600, 1, c.fill⟩, true⟩] := by
  decide +kernel

end ScreenLocker.Silence
