import ScreenLocker.Proofs.RecordedCore

/-! The lock as the compositor sees it. What a locker asks for over a whole run is read by a small
automaton: the lock is got once, outputs are covered while it is held, and it is given back once.
Each event has one of a few effects on the phase of the session and the calls made with it, whatever
the compositor refuses. -/

namespace ScreenLocker.LockDiscipline

open Recorder (Adds)
open Outputs (AddsCalls)
open RecordedCore

variable {σ : Type}

abbrev Step (σ : Type) := Moment (RecordedCore σ) Event Core.Answer

/-- The calls made in one step. -/
def Step.calls (m : Step σ) : List Call := m.after.backend.calls.drop m.before.backend.calls.length

/-- The step brought the news that the session is secured. -/
def Step.Secures (m : Step σ) : Prop :=
  ∃ event, m.event = .lock event ∧
    (tried (SessionLock.handle event) (m.before.session, m.before.backend)).1 = .ok .secured

/-- The place of a phase in the order in which a session goes through them. -/
def rank : LockPhase → Nat
  | .idle => 0
  | .pending => 1
  | .locked => 2
  | .unlocking => 3
  | .terminated _ => 4

/-! The automaton. -/

inductive Stage where
  | before
  | held
  | after
deriving DecidableEq

namespace Stage

/-- What the lock allows to be asked for; `none` for a call out of turn. -/
def next (stage : Stage) (call : Call) : Option Stage :=
  match call.request, stage with
  | .requestLock, .before => some (if call.granted then .held else .before)
  | .createSurface .., .held => some .held
  | .unlock, .held | .abandon, .held => some .after
  | .requestLock, _ | .createSurface .., _ | .unlock, _ | .abandon, _ => none
  | _, stage => some stage

def run (stage : Stage) (calls : List Call) : Option Stage := calls.foldlM next stage

theorem run_cons {stage stage' : Stage} {call : Call} (h : stage.next call = some stage')
    (calls : List Call) :
    stage.run (call :: calls) = stage'.run calls := by
  unfold run
  rw [List.foldlM_cons, h]
  rfl

theorem run_append {stage stage' : Stage} {calls : List Call} (h : stage.run calls = some stage')
    (new : List Call) :
    stage.run (calls ++ new) = stage'.run new := by
  unfold run at h ⊢
  rw [List.foldlM_append, h]
  rfl

theorem run_same {stage : Stage} {calls : List Call} (h : ∀ call ∈ calls, stage.next call = some stage) :
    stage.run calls = some stage := by
  induction calls with
  | nil => rfl
  | cons call calls ih =>
    obtain ⟨hcall, hcalls⟩ := List.forall_mem_cons.mp h
    rw [run_cons hcall]
    exact ih hcalls

theorem next_plain {stage : Stage} {call : Call} (h : call.Plain) : stage.next call = some stage := by
  obtain ⟨request, granted⟩ := call
  cases request <;> first | exact h.elim | rfl

theorem next_covering {call : Call} (h : call.Covering) : held.next call = some held := by
  obtain ⟨request, granted⟩ := call
  cases request <;> first | exact h.elim | rfl

/-- How often the lock has been got. -/
def got : Stage → Nat
  | before => 0
  | held | after => 1

/-- How often it has been given back. -/
def given : Stage → Nat
  | before | held => 0
  | after => 1

theorem next_counts {stage stage' : Stage} {call : Call} (h : stage.next call = some stage') :
    stage'.got = stage.got + call.locks.toNat ∧
    stage'.given = stage.given + call.releases.toNat := by
  obtain ⟨request, granted⟩ := call
  cases request <;> cases stage <;> cases granted <;> cases h <;> exact ⟨rfl, rfl⟩

theorem run_counts {stage stage' : Stage} {calls : List Call} (h : stage.run calls = some stage') :
    stage'.got = stage.got + calls.countP Call.locks ∧
    stage'.given = stage.given + calls.countP Call.releases := by
  induction calls generalizing stage with
  | nil =>
    cases h
    exact ⟨rfl, rfl⟩
  | cons call calls ih =>
    unfold run at h
    rw [List.foldlM_cons] at h
    obtain ⟨middle, hnext, hrest⟩ := Option.bind_eq_some_iff.mp h
    obtain ⟨hgot, hgiven⟩ := next_counts hnext
    obtain ⟨hgot', hgiven'⟩ := ih hrest
    rw [hgot', hgot, hgiven', hgiven, List.countP_cons, List.countP_cons]
    cases call.locks <;> cases call.releases <;> simp <;> omega

/-- Outputs are covered only after the lock was got and before it is given back. -/
theorem covers_held {calls pre post : List Call} {call : Call} {stage : Stage}
    (h : before.run calls = some stage) (hsplit : calls = pre ++ call :: post)
    (hcovers : call.covers) :
    (∃ c ∈ pre, c.locks) ∧ ∀ c ∈ pre, ¬ c.releases := by
  unfold run at h
  rw [hsplit, List.foldlM_append] at h
  obtain ⟨reached, hpre, hrest⟩ := Option.bind_eq_some_iff.mp h
  rw [List.foldlM_cons] at hrest
  obtain ⟨middle, hnext, -⟩ := Option.bind_eq_some_iff.mp hrest
  have hheld : reached = held := by
    obtain ⟨request, granted⟩ := call
    cases request <;> simp [Call.covers] at hcovers
    cases reached <;> simp [next] at hnext ⊢
  subst hheld
  obtain ⟨hgot, hgiven⟩ := run_counts hpre
  refine ⟨List.countP_pos_iff.mp ?_, fun c hc hreleases => ?_⟩
  · simp only [got] at hgot
    omega
  · have := List.countP_pos_iff.mpr ⟨c, hc, hreleases⟩
    simp only [given] at hgiven
    omega

end Stage

/-! What an event can do. -/

/-- The phase before, the calls made, and the phase after. -/
inductive Effect (e : Event) : LockPhase → List Call → LockPhase → Prop where
  | quiet (p : LockPhase) {new : List Call} : (∀ call ∈ new, call.Plain) → Effect e p new p
  | covered {p : LockPhase} {new : List Call} : p.isActive → (∀ call ∈ new, call.Covering) →
      Effect e p new p
  | refused : Effect e .idle [⟨.requestLock, false⟩] .idle
  | requested {new : List Call} : (∀ call ∈ new, call.Covering) →
      Effect e .idle (⟨.requestLock, true⟩ :: new) .pending
  | granted : e = .lock .locked → Effect e .pending [] .locked
  | rejected : Effect e .pending [⟨.abandon, true⟩] (.terminated .rejected)
  | ended {new : List Call} : (∀ call ∈ new, call.Plain) →
      Effect e .locked (⟨.abandon, true⟩ :: new) (.terminated .clean)
  | unlocked {new : List Call} {p : LockPhase} : e = .shutdown → (∀ call ∈ new, call.Plain) →
      p = .unlocking ∨ p = .terminated .clean → Effect e .locked (⟨.unlock, true⟩ :: new) p
  | withdrawn {new : List Call} {p : LockPhase} : (∀ call ∈ new, call.Plain) →
      p = .unlocking ∨ p = .terminated .clean → Effect e .pending (⟨.abandon, true⟩ :: new) p
  | closed {new : List Call} {p p' : LockPhase} : p = .idle ∨ p = .unlocking →
      (∀ call ∈ new, call.Plain) → p' = .unlocking ∨ p' = .terminated .clean → Effect e p new p'

/-- An effect of `e` on a locker. -/
def Affects (e : Event) (c c' : RecordedCore σ) : Prop :=
  ∃ new, c'.backend.calls = c.backend.calls ++ new ∧ Effect e c.session new c'.session

theorem affects_steady {c c' : RecordedCore σ} (h : Steady c c') (e : Event) : Affects e c c' := by
  obtain ⟨new, hcalls, hplain⟩ := h.calls
  exact ⟨new, hcalls, h.session ▸ .quiet _ hplain⟩

theorem affects_start (c : RecordedCore σ) : Affects .start c (tried Core.start c).2 := by
  rw [Core.tried_start]
  split
  · next hidle =>
    rcases Recorder.tried_ask .requestLock c.backend with ⟨armed, hask⟩ | ⟨e, armed, hask⟩
    · have hrequest : tried (Compositor.requestLock : Try Recorder Unit) c.backend = _ := hask
      rw [hrequest]
      dsimp only
      obtain ⟨new, hcalls, hnew⟩ := Outputs.adds_ensureSurfaces
        (c.outputs, { c.backend with armed, calls := c.backend.calls ++ [⟨.requestLock, true⟩] })
      exact ⟨⟨.requestLock, true⟩ :: new, hcalls.trans (List.append_assoc ..),
        hidle ▸ .requested hnew⟩
    · have hrequest : tried (Compositor.requestLock : Try Recorder Unit) c.backend = _ := hask
      rw [hrequest]
      exact ⟨_, rfl, hidle ▸ .refused⟩
  · exact ⟨[], (List.append_nil _).symm, .quiet _ (by simp)⟩

theorem affects_lock (event : LockEvent) (c : RecordedCore σ) :
    Affects (.lock event) c (outcome (Core.onLockEvent event) c).2 := by
  rw [Core.outcome_onLockEvent]
  split
  · next hpending => exact ⟨[], (List.append_nil _).symm, hpending ▸ .granted rfl⟩
  · next hpending => exact ⟨_, rfl, hpending ▸ .rejected⟩
  · next hlocked =>
    obtain ⟨new, hcalls, hnew⟩ := Outputs.adds_teardown
      (c.outputs, (outcome (Compositor.abandon : Op Recorder Unit) c.backend).2)
    exact ⟨⟨.abandon, true⟩ :: new, hcalls.trans (List.append_assoc ..), hlocked ▸ .ended hnew⟩
  · exact affects_steady (Steady.same rfl rfl rfl) _

theorem affects_output (id : OutputId) (event : OutputEvent) (c : RecordedCore σ) :
    Affects (.output id event) c (outcome (Core.onOutputEvent id event) c).2 := by
  let P (call : Call) := (c.session.isActive ∧ call.Covering) ∨ call.Plain
  let taken := tried (Outputs.handleEvent id event c.session.isActive) (c.outputs, c.backend)
  have htaken : Adds P c.backend taken.2.2 :=
    (Outputs.adds_handleEvent id event c.session.isActive (c.outputs, c.backend)).mono fun _ =>
      Or.inl
  have hpainted : Adds P taken.2.2 (tried (Outputs.render c.fill) taken.2).2.2 :=
    (Outputs.adds_render c.fill taken.2).mono fun _ => Or.inr
  have hafter : (outcome (Core.onOutputEvent id event) c).2.session = c.session ∧
      Adds P c.backend (outcome (Core.onOutputEvent id event) c).2.backend := by
    rw [Core.outcome_onOutputEvent]
    dsimp only
    split
    · exact ⟨rfl, htaken⟩
    · split
      · exact ⟨rfl, htaken.trans hpainted⟩
      · exact ⟨rfl, htaken⟩
  obtain ⟨hsession, new, hcalls, hnew⟩ := hafter
  refine ⟨new, hcalls, ?_⟩
  rw [hsession]
  by_cases hactive : c.session.isActive
  · exact .covered hactive fun call hcall => (hnew call hcall).elim And.right Call.Plain.covering
  · exact .quiet _ fun call hcall => (hnew call hcall).resolve_left fun h => hactive h.1

/-- Once the lock has been given back only handles are released and requests pushed out. -/
theorem shutdown_stays (c : RecordedCore σ) :
    let begun :=
      (outcome (SessionLock.beginUnlock : Op (LockPhase × Recorder) Unit) (c.session, c.backend)).2
    let c' := (tried Core.shutdown c).2
    Adds Call.Plain begun.2 c'.backend ∧
      (c'.session = begun.1 ∨ c'.session = begun.1.completeUnlock) := by
  intro begun c'
  let released :=
    (outcome (Outputs.teardown : Op (Outputs Nat Nat × Recorder) Unit) (c.outputs, begun.2)).2
  have hreleased : Adds Call.Plain begun.2 released.2 := Outputs.adds_teardown (c.outputs, begun.2)
  have hflush :
      Adds Call.Plain released.2 (tried (Compositor.flush : Try Recorder Unit) released.2).2 :=
    Recorder.adds_ask .flush (fun _ => trivial) released.2
  have hafter : c' = (tried Core.shutdown c).2 := rfl
  rw [Core.tried_shutdown] at hafter
  dsimp only at hafter
  rcases hflushed : tried (Compositor.flush : Try Recorder Unit) released.2 with ⟨r, recorder⟩
  rw [hflushed] at hafter hflush
  cases r with
  | ok u =>
    rw [hafter]
    exact ⟨hreleased.trans hflush, .inr rfl⟩
  | error e =>
    rw [hafter]
    exact ⟨hreleased.trans hflush, .inl rfl⟩

theorem affects_shutdown (c : RecordedCore σ) : Affects .shutdown c (tried Core.shutdown c).2 := by
  obtain ⟨⟨new, hcalls, hnew⟩, hsession⟩ := shutdown_stays c
  generalize (tried Core.shutdown c).2 = c' at hcalls hsession ⊢
  rw [SessionLock.outcome_beginUnlock] at hcalls hsession
  cases hphase : c.session with
  | idle =>
    rw [hphase] at hcalls hsession
    exact ⟨new, hcalls, hphase ▸ .closed (.inl rfl) hnew hsession⟩
  | pending =>
    rw [hphase] at hcalls hsession
    exact ⟨_, hcalls.trans (List.append_assoc ..), hphase ▸ .withdrawn hnew hsession⟩
  | locked =>
    rw [hphase] at hcalls hsession
    exact ⟨_, hcalls.trans (List.append_assoc ..), hphase ▸ .unlocked rfl hnew hsession⟩
  | unlocking =>
    rw [hphase] at hcalls hsession
    exact ⟨new, hcalls, hphase ▸ .closed (.inr rfl) hnew hsession⟩
  | terminated how =>
    rw [hphase] at hcalls hsession
    have hsame : c'.session = .terminated how := hsession.elim id id
    exact ⟨new, hcalls, by rw [hphase, hsame]; exact .quiet _ hnew⟩

theorem affects [CredentialSink σ] (e : Event) (c : RecordedCore σ) :
    Affects e c (outcome (perform e) c).2 := by
  by_cases hsteady : IsSteady e
  · exact affects_steady (steady_perform hsteady c) e
  cases e with
  | start => exact affects_start c
  | lock event => exact affects_lock event c
  | output id event => exact affects_output id event c
  | shutdown => exact affects_shutdown c
  | _ => exact absurd trivial hsteady

/-! What a whole run is held to. -/

/-- How far the calls have gone in a phase. A session can be over without a lock ever having been
got. -/
def Fits : LockPhase → Stage → Prop
  | .idle, stage => stage = .before
  | .pending, stage | .locked, stage => stage = .held
  | .unlocking, stage | .terminated _, stage => stage ≠ .held

namespace Effect

variable {e : Event} {p p' : LockPhase} {new : List Call}

theorem run (h : Effect e p new p') {stage : Stage} (hfits : Fits p stage) :
    ∃ stage', stage.run new = some stage' ∧ Fits p' stage' := by
  have hafter {p : LockPhase} (hp : p = .unlocking ∨ p = .terminated .clean) : Fits p .after := by
    rcases hp with rfl | rfl <;> simp [Fits]
  have hplains {stage : Stage} {calls : List Call} (h : ∀ call ∈ calls, call.Plain) :
      stage.run calls = some stage :=
    Stage.run_same fun call hcall => Stage.next_plain (h call hcall)
  have hcovers {calls : List Call} (h : ∀ call ∈ calls, call.Covering) :
      Stage.held.run calls = some .held :=
    Stage.run_same fun call hcall => Stage.next_covering (h call hcall)
  cases h with
  | quiet p hplain => exact ⟨stage, hplains hplain, hfits⟩
  | covered hactive hcovering =>
    have hheld : stage = .held := by
      cases p <;> first | exact hfits | simp [LockPhase.isActive] at hactive
    subst hheld
    exact ⟨.held, hcovers hcovering, hfits⟩
  | refused =>
    obtain rfl : stage = .before := hfits
    exact ⟨.before, rfl, rfl⟩
  | requested hcovering =>
    obtain rfl : stage = .before := hfits
    exact ⟨.held, hcovers hcovering, rfl⟩
  | granted => exact ⟨stage, rfl, hfits⟩
  | rejected =>
    obtain rfl : stage = .held := hfits
    exact ⟨.after, rfl, by simp [Fits]⟩
  | ended hplain =>
    obtain rfl : stage = .held := hfits
    exact ⟨.after, hplains hplain, by simp [Fits]⟩
  | unlocked _ hplain hp =>
    obtain rfl : stage = .held := hfits
    exact ⟨.after, hplains hplain, hafter hp⟩
  | withdrawn hplain hp =>
    obtain rfl : stage = .held := hfits
    exact ⟨.after, hplains hplain, hafter hp⟩
  | closed hp hplain hp' =>
    have hfree : stage ≠ .held := by
      rcases hp with rfl | rfl
      · obtain rfl : stage = .before := hfits
        simp
      · exact hfits
    refine ⟨stage, hplains hplain, ?_⟩
    rcases hp' with rfl | rfl
    · exact hfree
    · exact hfree

theorem rank_le (h : Effect e p new p') : rank p ≤ rank p' := by
  cases h with
  | quiet => exact Nat.le_refl _
  | covered => exact Nat.le_refl _
  | refused => decide
  | requested => decide
  | granted => decide
  | rejected => decide
  | ended => decide
  | unlocked _ _ hp => rcases hp with rfl | rfl <;> decide
  | withdrawn _ hp => rcases hp with rfl | rfl <;> decide
  | closed hp _ hp' => rcases hp with rfl | rfl <;> rcases hp' with rfl | rfl <;> decide

theorem rejected_from (h : Effect e p new (.terminated .rejected)) :
    p = .terminated .rejected ∨ p = .pending := by
  cases h with
  | quiet => exact .inl rfl
  | covered => exact .inl rfl
  | rejected => exact .inr rfl
  | unlocked _ _ hp => simp at hp
  | withdrawn _ hp => simp at hp
  | closed _ _ hp => simp at hp

theorem locked_from (h : Effect e p new .locked) :
    p = .locked ∨ (e = .lock .locked ∧ p = .pending) := by
  cases h with
  | quiet => exact .inl rfl
  | covered => exact .inl rfl
  | granted he => exact .inr ⟨he, rfl⟩
  | unlocked _ _ hp => simp at hp
  | withdrawn _ hp => simp at hp
  | closed _ _ hp => simp at hp

/-- The session is unlocked by a shutdown, and from no other phase than the one in which it is
locked. -/
theorem unlocks (h : Effect e p new p') {call : Call} (hcall : call ∈ new)
    (hunlock : call.request = .unlock) :
    e = .shutdown ∧ p = .locked := by
  have hplain (h : ∀ call ∈ new, call.Plain) : False := (h call hcall).covering.not_unlock hunlock
  have hrest {first : Call} {rest : List Call} (hcall : call ∈ first :: rest)
      (hfirst : first.request ≠ .unlock) (h : ∀ call ∈ rest, call.Covering) : False := by
    rcases List.mem_cons.mp hcall with rfl | hcall
    · exact hfirst hunlock
    · exact (h call hcall).not_unlock hunlock
  cases h with
  | quiet _ hnew => exact (hplain hnew).elim
  | covered _ hnew => exact absurd hunlock (hnew call hcall).not_unlock
  | refused => exact (hrest hcall (by simp) (by simp)).elim
  | requested hnew => exact (hrest hcall (by simp) hnew).elim
  | granted => simp at hcall
  | rejected => exact (hrest hcall (by simp) (by simp)).elim
  | ended hnew => exact (hrest hcall (by simp) fun c hc => (hnew c hc).covering).elim
  | unlocked he => exact ⟨he, rfl⟩
  | withdrawn hnew => exact (hrest hcall (by simp) fun c hc => (hnew c hc).covering).elim
  | closed _ hnew => exact (hplain hnew).elim

end Effect

/-- The news comes with the compositor's word, to a session that waits for it. -/
theorem secures_iff (m : Step σ) :
    m.Secures ↔ m.event = .lock .locked ∧ m.before.session = .pending := by
  unfold Step.Secures
  constructor
  · rintro ⟨event, hevent, hsecured⟩
    rw [SessionLock.tried_handle] at hsecured
    split at hsecured
    · next hpending => exact ⟨hevent, hpending⟩
    · simp at hsecured
    · simp at hsecured
    · simp at hsecured
  · rintro ⟨hevent, hpending⟩
    exact ⟨.locked, hevent, by rw [hpending, SessionLock.tried_handle]⟩

variable [CredentialSink σ]

theorem secured_after {c : RecordedCore σ} {e : Event} (h : Step.Secures (Run.moment perform c e)) :
    (outcome (perform e) c).2.session = .locked := by
  obtain ⟨hevent, hpending⟩ := (secures_iff _).mp h
  obtain rfl : e = .lock .locked := hevent
  have hpending : c.session = .pending := hpending
  change (outcome (Core.onLockEvent .locked) c).2.session = .locked
  rw [Core.outcome_onLockEvent, hpending]

/-- What the moments so far have to do with the state they led to. -/
structure Kept (ms : List (Step σ)) (c : RecordedCore σ) : Prop where
  calls : c.backend.calls = ms.flatMap Step.calls
  stage : ∃ stage, Stage.before.run c.backend.calls = some stage ∧ Fits c.session stage
  locked : c.session = .locked → ∃ m ∈ ms, m.event = .lock .locked ∧ m.before.session = .pending
  secured : ∀ m ∈ ms, m.Secures → 2 ≤ rank c.session
  once : ms.Pairwise fun m m' => ¬ (m.Secures ∧ m'.Secures)

omit [CredentialSink σ] in
theorem Step.calls_eq {m : Step σ} {new : List Call}
    (h : m.after.backend.calls = m.before.backend.calls ++ new) : m.calls = new := by
  rw [Step.calls, h, List.drop_left]

theorem Kept.next {ms : List (Step σ)} {c : RecordedCore σ} (h : Kept ms c) (e : Event) :
    Kept (ms ++ [Run.moment perform c e]) (Run.moment perform c e).after := by
  obtain ⟨new, hcalls, heffect⟩ := affects e c
  let m : Step σ := Run.moment perform c e
  have hnew : m.calls = new := Step.calls_eq hcalls
  have hsecured : ∀ m ∈ ms, m.Secures → 2 ≤ rank (Run.moment perform c e).after.session :=
    fun m hm hsecures => Nat.le_trans (h.secured m hm hsecures) heffect.rank_le
  refine ⟨?_, ?_, ?_, ?_, ?_⟩
  · rw [List.flatMap_append, List.flatMap_singleton, hnew, ← h.calls]
    exact hcalls
  · obtain ⟨stage, hrun, hfits⟩ := h.stage
    obtain ⟨stage', hrun', hfits'⟩ := heffect.run hfits
    refine ⟨stage', ?_, hfits'⟩
    change Stage.before.run (outcome (perform e) c).2.backend.calls = some stage'
    rw [hcalls, Stage.run_append hrun, hrun']
  · intro hlocked
    have heffect : Effect e c.session new .locked := hlocked ▸ heffect
    rcases heffect.locked_from with hbefore | ⟨he, hpending⟩
    · obtain ⟨m, hm, hevent⟩ := h.locked hbefore
      exact ⟨m, List.mem_append_left _ hm, hevent⟩
    · exact ⟨Run.moment perform c e, by simp, he, hpending⟩
  · intro m hm hsecures
    rcases List.mem_append.mp hm with hm | hm
    · exact hsecured m hm hsecures
    · obtain rfl := List.mem_singleton.mp hm
      have hafter := secured_after hsecures
      change 2 ≤ rank (outcome (perform e) c).2.session
      rw [hafter]
      decide
  · refine List.pairwise_append.mpr ⟨h.once, List.pairwise_singleton _ _, ?_⟩
    rintro m hm m' hm' ⟨hfirst, hsecond⟩
    obtain rfl := List.mem_singleton.mp hm'
    have hrank := h.secured m hm hfirst
    have hpending : c.session = .pending := ((secures_iff _).mp hsecond).2
    rw [hpending] at hrank
    exact absurd hrank (by decide)

/-- The protocol of the lock object, over any run and whatever the compositor refuses. -/
theorem lock_protocol_kept (armed : List ArmedFailure) (nextHandle : Nat) (sink : σ)
    (buffer : SecureBuffer) (ignoreEmpty : Bool) (palette : Palette) (es : List Event) :
    let start : RecordedCore σ := Core.fresh { armed, nextHandle } sink buffer ignoreEmpty palette
    let ms : List (Step σ) := Run.moments perform es start
    let calls := (Run.final perform es start).backend.calls
    calls = ms.flatMap Step.calls ∧
    calls.countP Call.locks ≤ 1 ∧
    (∀ pre call post, calls = pre ++ call :: post → call.covers →
      (∃ c ∈ pre, c.locks) ∧ ∀ c ∈ pre, ¬ c.releases) ∧
    calls.countP Call.releases ≤ 1 ∧
    (∀ pre m post, ms = pre ++ m :: post → (∃ call ∈ m.calls, call.request = .unlock) →
      m.event = .shutdown ∧ ∃ m' ∈ pre, m'.event = .lock .locked ∧ m'.before.session = .pending) ∧
    (∀ m ∈ ms, rank m.before.session ≤ rank m.after.session) ∧
    (∀ m ∈ ms, m.after.session = .terminated .rejected →
      m.before.session = .terminated .rejected ∨ m.before.session = .pending) ∧
    ms.Pairwise fun m m' => ¬ (m.Secures ∧ m'.Secures) := by
  intro start ms calls
  have hstart : Kept [] start := by
    refine ⟨rfl, ⟨.before, rfl, rfl⟩, ?_, by simp, List.Pairwise.nil⟩
    simp [start, Core.fresh]
  have hnext : ∀ (ms : List (Step σ)) c e, Kept ms c →
      Kept (ms ++ [Run.moment perform c e]) (Run.moment perform c e).after :=
    fun ms c e h => h.next e
  have hkept : Kept ms (Run.final perform es start) := Run.holds_final hnext es hstart
  obtain ⟨stage, hrun, -⟩ := hkept.stage
  change Stage.before.run calls = some stage at hrun
  obtain ⟨hgot, hgiven⟩ := Stage.run_counts hrun
  have heffect : ∀ m ∈ ms, ∃ new, m.calls = new ∧
      Effect m.event m.before.session new m.after.session := by
    intro m hm
    obtain ⟨new, hcalls, heffect⟩ := affects m.event m.before
    rw [Run.eq_moment_of_mem hm]
    exact ⟨new, Step.calls_eq hcalls, heffect⟩
  refine ⟨hkept.calls, ?_, ?_, ?_, ?_, ?_, ?_, hkept.once⟩
  · have hbound : stage.got ≤ 1 := by cases stage <;> decide
    simp only [Stage.got] at hgot hbound
    omega
  · exact fun pre call post hsplit hcovers => Stage.covers_held hrun hsplit hcovers
  · have hbound : stage.given ≤ 1 := by cases stage <;> decide
    simp only [Stage.given] at hgiven hbound
    omega
  · rintro pre m post hsplit ⟨call, hcall, hunlock⟩
    have hm : m ∈ ms := hsplit ▸ List.mem_append_right _ List.mem_cons_self
    obtain ⟨new, rfl, heffect⟩ := heffect m hm
    obtain ⟨hevent, hlocked⟩ := heffect.unlocks hcall hunlock
    exact ⟨hevent, (Run.holds_before hnext hstart hsplit).1.locked hlocked⟩
  · intro m hm
    obtain ⟨new, -, heffect⟩ := heffect m hm
    exact heffect.rank_le
  · intro m hm hrejected
    obtain ⟨new, -, heffect⟩ := heffect m hm
    exact (hrejected ▸ heffect).rejected_from

end ScreenLocker.LockDiscipline
