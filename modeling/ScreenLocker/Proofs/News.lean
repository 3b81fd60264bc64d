import ScreenLocker.Proofs.Leaving

/-! The news that the screen is locked. It comes with the grant of the lock, of which there is at most
one in a run, and is told once, when it is next asked for. Nothing takes it back: a lock that has ended
in between is still told of. -/

namespace ScreenLocker.News

open Leaving (Event Step perform)

variable {β O S σ : Type}

/-- The compositor grants the lock that was asked for. -/
def isGrant (e : Event O σ) (p : LockPhase) : Bool := (e matches .lock .locked) && p = .pending

/-- A lock that was granted is ended by the compositor or given back. -/
def isEnd (e : Event O σ) (p : LockPhase) : Bool :=
  (e matches .lock .finished | .shutdown) && p = .locked

def grants (m : Step β O S σ) : Bool := isGrant m.event m.before.session

def ends (m : Step β O S σ) : Bool := isEnd m.event m.before.session

/-- The event asks whether the lock has newly been granted. -/
def asks (e : Event O σ) : Bool := e matches .takeNewlyLocked

/-- The answer is that the lock has newly been granted. -/
def tells (m : Step β O S σ) : Bool := m.answer = .newlyLocked true

/-- How an event moves a session on. -/
inductive Shift : Event O σ → LockPhase → LockPhase → Prop where
  | requested : Shift .start .idle .pending
  | granted : Shift (.lock .locked) .pending .locked
  | refused : Shift (.lock .finished) .pending (.terminated .rejected)
  | ended : Shift (.lock .finished) .locked (.terminated .clean)
  | released {p p' : LockPhase} (open' : p.isTerminated = false)
      (closed : p' = .unlocking ∨ p' = .terminated .clean) : Shift .shutdown p p'
  | still {e : Event O σ} {p : LockPhase} (grant : isGrant e p = false) (ending : isEnd e p = false) :
      Shift e p p

/-- How many grants and how many ends of a lock there have been in each phase. -/
def Balance : LockPhase → (granted ended : Nat) → Prop
  | .idle, granted, ended | .pending, granted, ended | .terminated .rejected, granted, ended =>
    granted = 0 ∧ ended = 0
  | .locked, granted, ended => granted = 1 ∧ ended = 0
  | .unlocking, granted, ended | .terminated .clean, granted, ended => granted = ended ∧ granted ≤ 1

theorem Balance.closed {p : LockPhase} (h : p = .unlocking ∨ p = .terminated .clean) {granted ended : Nat} :
    Balance p granted ended ↔ granted = ended ∧ granted ≤ 1 := by
  rcases h with rfl | rfl <;> rfl

theorem Balance.le_one {p : LockPhase} {granted ended : Nat} (h : Balance p granted ended) :
    ended ≤ granted ∧ granted ≤ 1 := by
  rcases p with _ | _ | _ | _ | _ | _ <;> simp only [Balance] at h <;> omega

/-- After a grant the session is locked until the lock is ended. -/
theorem Balance.granted {p : LockPhase} {ended : Nat} (h : Balance p 1 ended) :
    p = .locked ∧ ended = 0 ∨ (p = .unlocking ∨ p = .terminated .clean) ∧ ended = 1 := by
  rcases p with _ | _ | _ | _ | _ | _ <;> simp_all [Balance]

theorem Balance.shift {e : Event O σ} {p p' : LockPhase} (h : Shift e p p') {granted ended : Nat}
    (hbalance : Balance p granted ended) :
    Balance p' (granted + (isGrant e p).toNat) (ended + (isEnd e p).toNat) := by
  cases h with
  | requested => exact hbalance
  | granted =>
    obtain ⟨rfl, rfl⟩ := hbalance
    exact ⟨rfl, rfl⟩
  | refused => exact hbalance
  | ended =>
    obtain ⟨rfl, rfl⟩ := hbalance
    exact ⟨rfl, Nat.le_refl 1⟩
  | released hopen hclosed =>
    rw [Balance.closed hclosed]
    cases p with
    | terminated how => exact absurd hopen (by simp [LockPhase.isTerminated])
    | idle | pending | locked | unlocking =>
      simp only [Balance] at hbalance
      simp [isGrant, isEnd]
      omega
  | still hgrant hend => simpa [hgrant, hend] using hbalance

theorem tells_ofResult (c c' : Core β O S σ) (e : Event O σ) (r : Except Error Unit) :
    tells (⟨c, e, .ofResult r, c'⟩ : Step β O S σ) = false := by
  cases r <;> rfl

section Events

variable [Compositor β O S] (c : Core β O S σ)

theorem advance_keeps {accepts : Prop} {answer : Core.Answer} {c c' : Core β O S σ}
    (h : Core.Advance accepts c answer c') :
    c'.session = c.session ∧ c'.newlyLocked = c.newlyLocked := by
  cases h with
  | still => exact ⟨rfl, rfl⟩
  | accepted => exact ⟨rfl, rfl⟩
  | repainted =>
    rw [Core.tried_redraw]
    exact ⟨rfl, rfl⟩

theorem shift_start : Shift (.start : Event O σ) c.session (tried Core.start c).2.session ∧
    (tried Core.start c).2.newlyLocked = c.newlyLocked := by
  rw [Core.tried_start]
  split
  · next hidle =>
    split
    · exact ⟨hidle ▸ .requested, rfl⟩
    · exact ⟨.still rfl rfl, rfl⟩
  · exact ⟨.still rfl rfl, rfl⟩

theorem shift_shutdown : Shift (.shutdown : Event O σ) c.session (tried Core.shutdown c).2.session ∧
    (tried Core.shutdown c).2.newlyLocked = c.newlyLocked := by
  rw [Core.tried_shutdown, SessionLock.outcome_beginUnlock]
  dsimp only
  cases hphase : c.session with
  | terminated how => split <;> exact ⟨.still rfl rfl, rfl⟩
  | idle | pending | locked | unlocking =>
    split
    · exact ⟨.released rfl (.inr rfl), rfl⟩
    · exact ⟨.released rfl (.inl rfl), rfl⟩

theorem shift_lock (event : LockEvent) :
    let c' := (outcome (Core.onLockEvent event) c).2
    Shift (.lock event : Event O σ) c.session c'.session ∧
    c'.newlyLocked = (isGrant (.lock event : Event O σ) c.session || c.newlyLocked) := by
  rw [Core.outcome_onLockEvent]
  cases event with
  | locked =>
    cases hphase : c.session with
    | pending => exact ⟨.granted, rfl⟩
    | idle | locked | unlocking | terminated =>
      change Shift _ _ c.session ∧ c.newlyLocked = c.newlyLocked
      rw [hphase]
      exact ⟨.still rfl rfl, rfl⟩
  | finished =>
    cases hphase : c.session with
    | pending => exact ⟨.refused, rfl⟩
    | locked => exact ⟨.ended, rfl⟩
    | idle | unlocking | terminated =>
      change Shift _ _ c.session ∧ c.newlyLocked = c.newlyLocked
      rw [hphase]
      exact ⟨.still rfl rfl, rfl⟩

theorem tells_perform [CredentialSink σ] (e : Event O σ) :
    tells (Run.moment perform c e : Step β O S σ) = (asks e && c.newlyLocked) := by
  cases e with
  | start | judged | redraw | shutdown => exact tells_ofResult ..
  | takeNewlyLocked =>
    change tells (⟨c, .takeNewlyLocked, .newlyLocked c.newlyLocked, _⟩ : Step β O S σ) = c.newlyLocked
    cases c.newlyLocked <;> rfl
  | _ => rfl

/-- The grant brings the news, and being asked for it takes it away. -/
theorem shift_perform [CredentialSink σ] (e : Event O σ) :
    let c' := (Run.moment perform c e : Step β O S σ).after
    Shift e c.session c'.session ∧
    c'.newlyLocked = (!asks e && (isGrant e c.session || c.newlyLocked)) := by
  intro c'
  have hstill (h : c'.session = c.session ∧ c'.newlyLocked = c.newlyLocked) (hasks : asks e = false)
      (hgrant : isGrant e c.session = false) (hend : isEnd e c.session = false) :
      Shift e c.session c'.session ∧
      c'.newlyLocked = (!asks e && (isGrant e c.session || c.newlyLocked)) := by
    rw [h.1, h.2, hasks, hgrant]
    exact ⟨.still hgrant hend, rfl⟩
  cases e with
  | start => exact shift_start c
  | shutdown => exact shift_shutdown c
  | lock event => exact shift_lock c event
  | takeNewlyLocked => exact ⟨.still rfl rfl, rfl⟩
  | output id event =>
    refine hstill ?_ rfl rfl rfl
    change (outcome (Core.onOutputEvent id event) c).2.session = _ ∧
      (outcome (Core.onOutputEvent id event) c).2.newlyLocked = _
    rw [Core.outcome_onOutputEvent]
    dsimp only
    split
    · exact ⟨rfl, rfl⟩
    · split <;> exact ⟨rfl, rfl⟩
  | configure id event =>
    refine hstill ?_ rfl rfl rfl
    change (outcome (Core.onConfigure id event) c).2.session = _ ∧
      (outcome (Core.onConfigure id event) c).2.newlyLocked = _
    rw [Core.onConfigure, outcome_bind, Core.outcome_parking]
    exact ⟨rfl, rfl⟩
  | input event => exact hstill (advance_keeps (Core.advance_input event c)) rfl rfl rfl
  | judged read => exact hstill (advance_keeps (Core.advance_reading read c)) rfl rfl rfl
  | cancel =>
    refine hstill ?_ rfl rfl rfl
    change (outcome (Core.requestExit .cancelled) c).2.session = _ ∧
      (outcome (Core.requestExit .cancelled) c).2.newlyLocked = _
    rw [Core.outcome_requestExit]
    exact ⟨rfl, rfl⟩
  | redraw =>
    refine hstill ?_ rfl rfl rfl
    change (tried Core.redraw c).2.session = _ ∧ (tried Core.redraw c).2.newlyLocked = _
    rw [Core.tried_redraw]
    exact ⟨rfl, rfl⟩
  | takeFatal | added | removed => exact hstill ⟨rfl, rfl⟩ rfl rfl rfl

end Events

/-! What has been over the steps so far. -/

/-- The news is still to be told if and only if there was a grant and it has not been told. -/
structure Kept (ms : List (Step β O S σ)) (c : Core β O S σ) : Prop where
  balance : Balance c.session (ms.countP grants) (ms.countP ends)
  told : c.newlyLocked.toNat + ms.countP tells = ms.countP grants

theorem countP_snoc {α : Type} (p : α → Bool) (l : List α) (x : α) :
    (l ++ [x]).countP p = l.countP p + (p x).toNat := by
  cases hp : p x <;> simp [hp]

theorem any_iff_countP {α : Type} {p : α → Bool} {l : List α} : l.any p ↔ 0 < l.countP p := by
  rw [List.any_eq_true, List.countP_pos_iff]

variable [Compositor β O S] [CredentialSink σ]

theorem Kept.next {ms : List (Step β O S σ)} {c : Core β O S σ} (h : Kept ms c) (e : Event O σ) :
    Kept (ms ++ [Run.moment perform c e]) (Run.moment perform c e).after := by
  obtain ⟨hshift, hnews⟩ := shift_perform c e
  have htells := tells_perform c e
  have hnone (hgrant : isGrant e c.session = true) : ms.countP grants = 0 ∧ asks e = false := by
    have hbalance := h.balance
    cases e with
    | lock event =>
      simp only [isGrant, Bool.and_eq_true, decide_eq_true_eq] at hgrant
      rw [hgrant.2] at hbalance
      exact ⟨hbalance.1, rfl⟩
    | _ => exact absurd hgrant (by simp [isGrant])
  constructor
  · rw [countP_snoc, countP_snoc]
    exact h.balance.shift hshift
  · have htold := h.told
    have hgrants : grants (Run.moment perform c e : Step β O S σ) = isGrant e c.session := rfl
    rw [countP_snoc, countP_snoc, hnews, htells, hgrants]
    cases hgrant : isGrant e c.session with
    | true =>
      obtain ⟨hzero, hasks⟩ := hnone hgrant
      rw [hasks]
      simp only [Bool.not_false, Bool.true_or, Bool.and_self, Bool.false_and, Bool.toNat_true, Bool.toNat_false]
      omega
    | false =>
      generalize c.newlyLocked = news at htold
      cases asks e <;> cases news <;> simp at htold ⊢ <;> omega

/-- The news is told at most once. It is told when it is asked for after the grant of the lock and has not
been told before, and the session is then locked unless the lock has been ended since. -/
theorem told_once_after_the_grant (backend : β) (sink : σ) (buffer : SecureBuffer) (ignoreEmpty : Bool)
    (palette : Palette) (es : List (Event O σ)) :
    let start : Core β O S σ := Core.fresh backend sink buffer ignoreEmpty palette
    let ms : List (Step β O S σ) := Run.moments perform es start
    ms.countP tells ≤ 1 ∧
    ∀ pre m post, ms = pre ++ m :: post →
      (tells m ↔ m.event = .takeNewlyLocked ∧ pre.any grants ∧ ¬ pre.any tells) ∧
      (tells m → (m.before.session = .locked ↔ ¬ pre.any ends) ∧
        (pre.any ends → m.before.session = .unlocking ∨ m.before.session = .terminated .clean)) := by
  intro start ms
  have hnext : ∀ (ms : List (Step β O S σ)) c e, Kept ms c →
      Kept (ms ++ [Run.moment perform c e]) (Run.moment perform c e).after := fun _ _ e h => h.next e
  have hstart : Kept ([] : List (Step β O S σ)) start := ⟨⟨rfl, rfl⟩, rfl⟩
  have hlast : Kept ms (Run.final perform es start) := Run.holds_final hnext es hstart
  refine ⟨?_, fun pre m post hsplit => ?_⟩
  · have htold := hlast.told
    have hone := hlast.balance.le_one.2
    omega
  obtain ⟨⟨hbalance, htold⟩, hmoment⟩ := Run.holds_before hnext hstart hsplit
  have htells : tells m = (asks m.event && m.before.newlyLocked) := by
    rw [hmoment]
    exact tells_perform m.before m.event
  have hone := hbalance.le_one
  refine ⟨?_, fun hm => ?_⟩
  · rw [htells, Bool.and_eq_true, any_iff_countP, any_iff_countP]
    refine and_congr (by cases m.event <;> simp [asks]) ?_
    generalize m.before.newlyLocked = news at htold
    cases news with
    | false =>
      rw [Bool.toNat_false] at htold
      exact iff_of_false Bool.false_ne_true (by omega)
    | true =>
      rw [Bool.toNat_true] at htold
      exact iff_of_true rfl (by omega)
  · have hnews : m.before.newlyLocked = true := by
      rw [htells, Bool.and_eq_true] at hm
      exact hm.2
    have hgranted : pre.countP grants = 1 := by
      rw [hnews, Bool.toNat_true] at htold
      omega
    rw [hgranted] at hbalance
    rw [any_iff_countP]
    rcases hbalance.granted with ⟨hlocked, hends⟩ | ⟨hover, hends⟩
    · exact ⟨iff_of_true hlocked (by omega), fun hpos => by omega⟩
    · refine ⟨iff_of_false (fun hlocked => ?_) (by omega), fun _ => hover⟩
      rcases hover with hover | hover <;> exact absurd (hlocked.symm.trans hover) (by simp)

/-- The news is told though the lock has been ended since. -/
theorem told_after_the_end :
    let start : RecordedCore SubmissionRecord := Core.fresh {} {} ⟨zeros 8, 0, 64, 0, {}⟩ false {}
    ∀ ending ∈ [.lock .finished, .shutdown],
      ∃ m ∈ Run.moments perform [.start, .lock .locked, ending, .takeNewlyLocked] start,
        tells m ∧ m.before.session = .terminated .clean := by
  decide +kernel

end ScreenLocker.News
