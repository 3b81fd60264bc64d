import ScreenLocker.Compositor.Recorder
import ScreenLocker.Proofs.CredentialShape
import ScreenLocker.Proofs.Core
import ScreenLocker.Proofs.Submissions

/-! The locker tells nobody but the sink what was typed. Take two runs over the same compositor, the
same memory and a sink that answers the same, in which the same keys do the same but insert other
bytes of the same shape. Whatever is seen of them, at any step, is the same: lines, results, sizes,
requests to the compositor and to the memory. -/

namespace ScreenLocker

namespace Input

/-- The same input, but for the bytes that are inserted. -/
inductive Alike : Input → Input → Prop where
  | same (i : Input) : Alike i i
  | typed {x x' : Bytes} (shape : SameShape x x') : Alike (.insert x) (.insert x')

end Input

namespace Watched

/-- How long the submissions were, and which of them were taken. -/
def lengths {S : Type} (w : Watched S) : List (Nat × Bool) := w.given.map fun g => (g.1.length, g.2)

/-- Sinks that are to refuse the same submissions and have been given ones of the same lengths. -/
structure Alike (w w' : Watched SubmissionRecord) : Prop where
  armed : w.sink.armed = w'.sink.armed
  lengths : w.lengths = w'.lengths

theorem Alike.refl (w : Watched SubmissionRecord) : Alike w w := ⟨rfl, rfl⟩

/-- A record answers by what it is armed with, whatever it is given. -/
theorem twins_record (x x' : Bytes) :
    Twins (fun r r' : SubmissionRecord => r.armed = r'.armed)
      (CredentialSink.submit x : Try SubmissionRecord Unit).run
      (CredentialSink.submit x' : Try SubmissionRecord Unit).run := by
  refine Twins.tryGetBind fun r r' h => ?_
  rw [h]
  match r'.armed with
  | [] => exact Twins.trySet rfl
  | (0, e) :: rest => exact Twins.tryBind (Twins.trySet rfl) fun _ => Twins.tryThrow e
  | (skip + 1, e) :: rest => exact Twins.trySet rfl

/-- The submission goes to the sink first, and is then written down with the answer. -/
theorem run_submit (x : Bytes) :
    (CredentialSink.submit x : Try (Watched SubmissionRecord) Unit).run =
      (inner.on (CredentialSink.submit x : Try SubmissionRecord Unit).run >>= fun r =>
        modify (fun w => { w with given := w.given ++ [(x, r.isOk)] }) >>= fun _ => pure r) :=
  rfl

theorem twins_submit {x x' : Bytes} (hx : SameShape x x') :
    Twins Alike (CredentialSink.submit x : Try (Watched SubmissionRecord) Unit).run
      (CredentialSink.submit x' : Try (Watched SubmissionRecord) Unit).run := by
  have hinner : inner.Carries Alike fun r r' : SubmissionRecord => r.armed = r'.armed :=
    ⟨fun _ _ h => h.armed, fun _ _ _ _ h harmed => ⟨harmed, h.lengths⟩⟩
  rw [run_submit, run_submit]
  refine Twins.bind (Twins.on hinner (twins_record x x')) fun r => ?_
  refine Twins.bind (Twins.change fun w w' h => ⟨h.armed, ?_⟩) fun _ => Twins.pure r
  simp only [Watched.lengths, List.map_append, List.map_singleton]
  rw [hx.length]
  exact congrArg (· ++ [(x'.length, r.isOk)]) h.lengths

end Watched

namespace Auth

/-- Attempts alike, each with the sink it is to go to. -/
structure Paired (s s' : Auth × Watched SubmissionRecord) : Prop where
  auth : Alike s.1 s'.1
  sink : Watched.Alike s.2 s'.2

theorem carries_entry : Part.Carries entry Paired Alike where
  get _ _ h := h.auth
  put _ _ _ _ h hauth := ⟨hauth, h.sink⟩

theorem carries_sink : Part.Carries sink Paired Watched.Alike where
  get _ _ h := h.sink
  put _ _ _ _ h hsink := ⟨h.auth, hsink⟩

/-- A submission is withheld, taken or refused for reasons that the shape alone decides. -/
theorem discreet_submit :
    Discreet Paired (submit : Try (Auth × Watched SubmissionRecord) AuthOutcome).run := by
  refine Twins.tryGetBind fun s s' h => ?_
  dsimp only
  rw [h.auth.buffer.isEmpty, h.auth.ignoreEmpty]
  split
  · exact Twins.tryBind (Twins.tryLog _) fun _ => Twins.tryPure _
  · -- The sinks are given other bytes here, and nothing of them comes back but the answer.
    have hsubmit := Twins.on carries_sink (Watched.twins_submit h.auth.buffer.content)
    refine Twins.tryBind (Twins.host hsubmit) fun sent => ?_
    refine Twins.tryBind (Twins.tryOn carries_entry discreet_wipe) fun _ => ?_
    cases sent with
    | error e => exact Twins.tryThrow e
    | ok _ =>
      refine Twins.tryBind (Twins.tryChange fun t t' h => ?_) fun _ => Twins.tryPure _
      exact ⟨{ h.auth with phase := rfl }, h.sink⟩

theorem twins_handleInput {i i' : Input} (hi : Input.Alike i i') :
    Twins Paired (handleInput i : Try (Auth × Watched SubmissionRecord) AuthOutcome).run
      (handleInput i' : Try (Auth × Watched SubmissionRecord) AuthOutcome).run := by
  refine Twins.tryGetBind fun s s' h => ?_
  rw [h.auth.phase]
  split
  · exact Twins.tryBind (Twins.tryLog _) fun _ => Twins.tryPure _
  · cases hi with
    | typed shape => exact Twins.tryOn carries_entry (twins_insert shape)
    | same =>
      cases i with
      | insert bytes => exact Twins.tryOn carries_entry (twins_insert (SameShape.refl bytes))
      | backspace => exact Twins.tryOn carries_entry discreet_backspace
      | clear => exact Twins.tryOn carries_entry (discreet_enter .cleared)
      | submit => exact discreet_submit

end Auth

abbrev WatchedCore (β O S : Type) := Core β O S (Watched SubmissionRecord)

namespace Core

variable {β O S : Type}

/-- Lockers that are the same but for the bytes of the credential and of what was submitted. -/
structure Alike (c c' : WatchedCore β O S) : Prop where
  backend : c.backend = c'.backend
  sink : Watched.Alike c.sink c'.sink
  session : c.session = c'.session
  outputs : c.outputs = c'.outputs
  auth : Auth.Alike c.auth c'.auth
  palette : c.palette = c'.palette
  fatal : c.fatal = c'.fatal
  newlyLocked : c.newlyLocked = c'.newlyLocked
  exit : c.exit = c'.exit

namespace Alike

variable {c c' : WatchedCore β O S}

theorem refl (c : WatchedCore β O S) : Alike c c :=
  ⟨rfl, Watched.Alike.refl _, rfl, rfl, Auth.Alike.refl _, rfl, rfl, rfl, rfl⟩

theorem fill (h : Alike c c') : c.fill = c'.fill := by
  unfold Core.fill
  rw [h.auth.phase, h.palette]

theorem shouldExit (h : Alike c c') : c.shouldExit = c'.shouldExit := by
  unfold Core.shouldExit
  rw [h.exit, h.fatal]

end Alike

theorem carries_locking :
    Part.Carries locking (Alike : WatchedCore β O S → WatchedCore β O S → Prop) Eq where
  get _ _ h := Prod.ext h.session h.backend
  put _ _ _ _ h heq := { h with session := congrArg Prod.fst heq, backend := congrArg Prod.snd heq }

theorem carries_covering :
    Part.Carries covering (Alike : WatchedCore β O S → WatchedCore β O S → Prop) Eq where
  get _ _ h := Prod.ext h.outputs h.backend
  put _ _ _ _ h heq := { h with outputs := congrArg Prod.fst heq, backend := congrArg Prod.snd heq }

theorem carries_asking :
    Part.Carries asking (Alike : WatchedCore β O S → WatchedCore β O S → Prop) Eq where
  get _ _ h := h.backend
  put _ _ _ _ h heq := { h with backend := heq }

theorem carries_judging :
    Part.Carries judging (Alike : WatchedCore β O S → WatchedCore β O S → Prop) Auth.Alike where
  get _ _ h := h.auth
  put _ _ _ _ h hauth := { h with auth := hauth }

theorem carries_entering :
    Part.Carries entering (Alike : WatchedCore β O S → WatchedCore β O S → Prop) Auth.Paired where
  get _ _ h := ⟨h.auth, h.sink⟩
  put _ _ _ _ h hpaired := { h with auth := hpaired.auth, sink := hpaired.sink }

theorem discreet_park (r : Except Error Unit) :
    Discreet Alike (park r : Op (WatchedCore β O S) Unit) := by
  cases r with
  | ok _ => exact Twins.pure _
  | error e =>
    refine Twins.getBind fun c c' h => ?_
    rw [h.fatal]
    split
    · exact Twins.change fun c c' h => { h with fatal := rfl }
    · exact Twins.log _

theorem twins_parking {x y : Try (WatchedCore β O S) Unit}
    (h : Twins Alike x.run y.run) : Twins Alike (parking x) (parking y) :=
  Twins.bind h discreet_park

theorem discreet_requestExit (reason : ExitReason) :
    Discreet Alike (requestExit reason : Op (WatchedCore β O S) Unit) := by
  refine Twins.getBind fun c c' h => ?_
  rw [h.exit]
  split
  · exact Twins.bind (Twins.log _) fun _ => Twins.change fun c c' h => { h with exit := rfl }
  · exact Twins.pure _

/-- What there is to see of a locker from outside its sink: the compositor with all it was asked, the
calls that pin and unpin memory, and of the credential no more than its sizes. -/
structure View (β O S : Type) where
  backend : β
  session : LockPhase
  outputs : Outputs O S
  phase : AuthPhase
  failedAttempts : Nat
  length : Nat
  capacity : Nat
  description : String
  pinning : List String
  fatal : Option Error
  newlyLocked : Bool
  exit : Option ExitReason
  /-- How long each submission was, and whether it was taken. -/
  submitted : List (Nat × Bool)

def view (c : WatchedCore β O S) : View β O S where
  backend := c.backend
  session := c.session
  outputs := c.outputs
  phase := c.auth.phase
  failedAttempts := c.auth.failedAttempts
  length := c.auth.buffer.length
  capacity := c.auth.buffer.capacity
  description := c.auth.buffer.describe
  pinning := c.auth.buffer.memory.events.filterMap MemoryEvent.call?
  fatal := c.fatal
  newlyLocked := c.newlyLocked
  exit := c.exit
  submitted := c.sink.lengths

theorem Alike.view {c c' : WatchedCore β O S} (h : Alike c c') :
    c.view = c'.view := by
  unfold Core.view
  rw [h.backend, h.session, h.outputs, h.auth.phase, h.auth.failedAttempts, h.auth.buffer.length,
    h.auth.buffer.capacity, h.auth.buffer.describe, h.auth.buffer.memory.calls, h.fatal,
    h.newlyLocked, h.exit, h.sink.lengths]

variable [Compositor β O S]

theorem discreet_redraw :
    Discreet Alike (redraw : Try (WatchedCore β O S) Unit).run := by
  refine Twins.tryBind (Twins.tryChange fun c c' h => ?_) fun _ => Twins.tryGetBind fun c c' h => ?_
  · rw [h.outputs]
    exact { h with outputs := rfl }
  · rw [h.fill]
    exact Twins.tryBind (Twins.attempt carries_covering (Twins.eq _)) fun _ => Twins.tryPure _

theorem discreet_apply (r : AuthOutcome) :
    Discreet Alike (apply r : Try (WatchedCore β O S) Unit).run := by
  cases r with
  | unchanged => exact Twins.tryPure _
  | redraw => exact discreet_redraw
  | unlock => exact Twins.host (discreet_requestExit .authenticated)

theorem twins_onInput {i i' : Input} (hi : Input.Alike i i') :
    Twins Alike (onInput i : Op (WatchedCore β O S) Unit) (onInput i') := by
  refine Twins.getBind fun c c' h => ?_
  rw [h.shouldExit]
  split
  · exact Twins.pure _
  · refine twins_parking (Twins.tryBind ?_ discreet_apply)
    exact Twins.attempt carries_entering (Auth.twins_handleInput hi)

theorem discreet_onVerdict (v : Verdict) :
    Discreet Alike (onVerdict v : Try (WatchedCore β O S) Unit).run :=
  Twins.tryBind (Twins.attempt carries_judging (Auth.discreet_handleVerdict v)) discreet_apply

theorem discreet_start :
    Discreet Alike (start : Try (WatchedCore β O S) Unit).run :=
  Twins.tryBind (Twins.attempt carries_locking (Twins.eq _)) fun _ =>
    Twins.attempt carries_covering (Twins.eq _)

theorem discreet_onLockEvent (event : LockEvent) :
    Discreet Alike (onLockEvent event : Op (WatchedCore β O S) Unit) := by
  refine Twins.bind (Twins.on carries_locking (Twins.eq _)) fun r => ?_
  match r with
  | .ok .none => exact Twins.pure _
  | .ok .secured => exact Twins.change fun c c' h => { h with newlyLocked := rfl }
  | .ok .endedByCompositor =>
    exact Twins.bind (Twins.on carries_covering (Twins.eq _)) fun _ => discreet_requestExit _
  | .error e => exact discreet_park _

theorem discreet_onOutputEvent (id : OutputId) (event : OutputEvent) :
    Discreet Alike (onOutputEvent id event : Op (WatchedCore β O S) Unit) := by
  refine Twins.getBind fun c c' h => ?_
  rw [h.session, h.fill]
  refine twins_parking (Twins.tryBind (Twins.attempt carries_covering (Twins.eq _)) fun _ => ?_)
  split
  · exact Twins.tryBind (Twins.attempt carries_covering (Twins.eq _)) fun _ => Twins.tryPure _
  · exact Twins.tryPure _

theorem discreet_onOutputRemoved (id : OutputId) :
    Discreet Alike (onOutputRemoved id : Op (WatchedCore β O S) Unit) :=
  Twins.bind (Twins.on carries_covering (Twins.eq _)) fun _ => Twins.pure _

theorem discreet_onConfigure (id : OutputId) (event : Configure) :
    Discreet Alike (onConfigure id event : Op (WatchedCore β O S) Unit) := by
  refine Twins.getBind fun c c' h => ?_
  rw [h.fill]
  exact twins_parking (Twins.attempt carries_covering (Twins.eq _))

theorem discreet_shutdown :
    Discreet Alike (shutdown : Try (WatchedCore β O S) Unit).run := by
  refine Twins.tryBind (Twins.tryOn carries_locking (Twins.eq _)) fun _ => ?_
  refine Twins.tryBind (Twins.tryOn carries_covering (Twins.eq _)) fun _ => ?_
  refine Twins.tryBind (Twins.attempt carries_asking (Twins.eq _)) fun _ => ?_
  refine Twins.tryChange fun c c' h => ?_
  rw [h.session]
  exact { h with session := rfl }

namespace Event

/-- The same event, but for the bytes that are typed. -/
inductive Alike : Event O Verdict → Event O Verdict → Prop where
  | same (e : Event O Verdict) : Alike e e
  | input {i i' : Input} (h : Input.Alike i i') : Alike (.input i) (.input i')

end Event

theorem twins_perform {e e' : Event O Verdict} (he : Event.Alike e e') :
    Twins Alike (perform onVerdict e : Op (WatchedCore β O S) Answer) (perform onVerdict e') := by
  cases he with
  | input hi => exact Twins.map _ (twins_onInput hi)
  | same =>
    cases e with
    | start => exact Twins.map _ discreet_start
    | lock event => exact Twins.map _ (discreet_onLockEvent event)
    | added id output => exact Twins.map _ (Twins.on carries_covering (Twins.eq _))
    | output id event => exact Twins.map _ (discreet_onOutputEvent id event)
    | removed id => exact Twins.map _ (discreet_onOutputRemoved id)
    | configure id event => exact Twins.map _ (discreet_onConfigure id event)
    | input i => exact Twins.map _ (twins_onInput (.same i))
    | judged v => exact Twins.map _ (discreet_onVerdict v)
    | cancel => exact Twins.map _ (Twins.bind (Twins.log _) fun _ => discreet_requestExit _)
    | redraw => exact Twins.map _ discreet_redraw
    | shutdown => exact Twins.map _ discreet_shutdown
    | takeFatal => exact Twins.map _ fun c c' h => ⟨rfl, h.fatal, { h with fatal := rfl }⟩
    | takeNewlyLocked =>
      exact Twins.map _ fun c c' h => ⟨rfl, h.newlyLocked, { h with newlyLocked := rfl }⟩

/-- What there is to see of one step: the lines it logs, its result and the locker it leaves. -/
structure Glimpse (β O S : Type) where
  entries : List Entry
  answer : Answer
  view : View β O S

def glimpse (m : Moment (WatchedCore β O S) (Event O Verdict) Answer) :
    Glimpse β O S :=
  ⟨(perform onVerdict m.event m.before).entries, m.answer, m.after.view⟩

/-- Two runs in which other bytes of the same shape are typed look the same at every step, and when
the buffer is given up at the end. -/
theorem only_the_sink_learns (c : WatchedCore β O S)
    {es es' : List (Event O Verdict)} (h : List.Forall₂ Event.Alike es es') :
    (Run.moments (perform onVerdict) es c).map glimpse =
      (Run.moments (perform onVerdict) es' c).map glimpse ∧
    (Run.final (perform onVerdict) es c).auth.buffer.drop.events.filterMap MemoryEvent.call? =
      (Run.final (perform onVerdict) es' c).auth.buffer.drop.events.filterMap MemoryEvent.call? := by
  have hstep : ∀ e e', Event.Alike e e' → Twins Alike (perform onVerdict e) (perform onVerdict e') :=
    fun _ _ he => twins_perform (β := β) (S := S) he
  obtain ⟨hmoments, hfinal⟩ := Run.matching hstep h (Alike.refl c)
  constructor
  · rw [← List.forall₂_eq_eq_eq, List.forall₂_map_left_iff, List.forall₂_map_right_iff]
    refine hmoments.imp fun m m' hm => ?_
    unfold glimpse
    rw [hm.entries, hm.answer, hm.after.view]
  · exact hfinal.auth.buffer.drop.calls

/-- Two texts of one shape, of which all but the first letter is taken back: the sink is given that
letter, and nothing else tells the runs apart. -/
theorem told_to_the_sink_alone :
    let c : WatchedCore Recorder Nat Nat :=
      fresh {} { sink := {} } ⟨zeros 2, 0, 64, 0, { answers := [0, 12] }⟩ true {}
    let typing (x : Bytes) : List (Event Nat Verdict) :=
      [.added 1 7, .start, .lock .locked, .input (.insert x), .input (.insert [97, 98]),
        .input .backspace, .input .submit, .judged .failure]
    let x : Bytes := [112, 0xC3, 0xA9]
    let x' : Bytes := [113, 0xC4, 0x80]
    List.Forall₂ Event.Alike (typing x) (typing x') ∧
    (Run.moments (perform onVerdict) (typing x) c).map glimpse =
      (Run.moments (perform onVerdict) (typing x') c).map glimpse ∧
    (Run.final (perform onVerdict) (typing x) c).sink.given = [([112], true)] ∧
    (Run.final (perform onVerdict) (typing x') c).sink.given = [([113], true)] := by
  intro c typing x x'
  have hshape : SameShape x x' := by decide
  have h : List.Forall₂ Event.Alike (typing x) (typing x') :=
    .cons (.same _) (.cons (.same _) (.cons (.same _) (.cons (.input (.typed hshape))
      (.cons (.same _) (.cons (.same _) (.cons (.same _) (.cons (.same _) .nil)))))))
  refine ⟨h, (only_the_sink_learns c h).1, ?_, ?_⟩
  · decide +kernel
  · decide +kernel

end Core

end ScreenLocker
