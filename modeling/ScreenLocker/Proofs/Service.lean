import ScreenLocker.Proofs.Transfers
import ScreenLocker.Proofs.VerifierProcess

/-! The acts of a verifier in the order that they keep. A request is read, judged and answered, and so is the
next, up to a read that brings no request or a reply that fails. From this order alone it can be told what
was judged, what was written for it, and what ends the service. -/

namespace ScreenLocker.Verifier

open ScreenLocker.Frame (Fits Stuck ReadEnd ReplyEnd encodeAll)

namespace Act

def taken : Act → Bytes
  | read taken _ _ _ => taken
  | _ => []

/-- The answers that the calls on the requests met. -/
def reads : Act → List Move
  | read _ calls _ _ => calls
  | _ => []

/-- The error numbers that the requests to pin met. -/
def pins : Act → List Nat
  | opened pins _ => pins
  | read _ _ pins _ => pins
  | _ => []

def written : Act → Bytes
  | replied _ written _ _ _ => written
  | _ => []

/-- The answers that the calls on the replies met. -/
def writes : Act → List Move
  | replied _ _ calls _ _ => calls
  | _ => []

def flushes : Act → List (Option Fault)
  | replied _ _ _ flushes _ => flushes
  | _ => []

/-- Nothing that the act met was a fault or a refusal. -/
structure Untroubled (act : Act) : Prop where
  reads : Harmless act.reads
  pins : ∀ errno ∈ act.pins, errno = 0
  writes : Harmless act.writes
  flushes : ∀ fault ∈ act.flushes, fault = none

end Act

/-- The acts of a service that has this stream before it, once it has its buffer, and its end. The last of
them is a read that brings no request or a reply that fails. -/
inductive Course (judge : Judge) (max : Nat) : Bytes → List Act → Except Error Unit → Prop where
  | ended {stream taken : Bytes} {reads : List Move} {pins : List Nat}
      (fetch : ReadEnd max stream taken reads pins (.ok false)) :
      Course judge max stream [.read taken reads pins (.ok false)] (.ok ())
  | failed {stream taken : Bytes} {reads : List Move} {pins : List Nat} {e : Error}
      (fetch : ReadEnd max stream taken reads pins (.error e)) :
      Course judge max stream [.read taken reads pins (.error e)] (.error e)
  | unanswered {c rest storage bytes : Bytes} {reads writes : List Move} {pins : List Nat}
      {flushes : List (Option Fault)} {e : Error}
      (fetch : ReadEnd max (Frame.encode c ++ rest) (Frame.encode c) reads pins (.ok true))
      (blank : ∀ byte ∈ storage, byte = 0)
      (reply : ReplyEnd (verdictOn judge c) bytes writes flushes (.error e)) :
      Course judge max (Frame.encode c ++ rest)
        [.read (Frame.encode c) reads pins (.ok true), .judged c,
          .replied storage bytes writes flushes (.error e)]
        (.error e)
  | answered {c rest storage bytes : Bytes} {reads writes : List Move} {pins : List Nat}
      {flushes : List (Option Fault)} {acts : List Act} {r : Except Error Unit}
      (fetch : ReadEnd max (Frame.encode c ++ rest) (Frame.encode c) reads pins (.ok true))
      (blank : ∀ byte ∈ storage, byte = 0)
      (reply : ReplyEnd (verdictOn judge c) bytes writes flushes (.ok ()))
      (next : Course judge max rest acts r) :
      Course judge max (Frame.encode c ++ rest)
        (.read (Frame.encode c) reads pins (.ok true) :: .judged c ::
          .replied storage bytes writes flushes (.ok ()) :: acts)
        r

/-- The acts of a service from its beginning. Without a pinned buffer it does nothing. -/
inductive Service (judge : Judge) (max : Nat) (stream : Bytes) :
    List Act → Except Error Unit → Prop where
  | refused {errno : Nat} (unpinned : errno ≠ 0) :
      Service judge max stream [.opened [errno] (.error (.unpinned errno))]
        (.error (.unpinned errno))
  | opened {pins : List Nat} {acts : List Act} {r : Except Error Unit}
      (pinned : ∀ errno ∈ pins, errno = 0) (course : Course judge max stream acts r) :
      Service judge max stream (.opened pins (.ok ()) :: acts) r

variable {judge : Judge}

/-- The credentials among the acts that were shown to the judge. -/
def judged (acts : List Act) : List Bytes := acts.filterMap Act.credential?

namespace Act

/-- A read that brings no request for any other reason than that there is none has met a fault. -/
theorem Untroubled.stuck {max : Nat} {stream taken : Bytes} {reads : List Move} {pins : List Nat}
    {r : Except Error Unit} (h : Untroubled (.read taken reads pins (r.map fun _ => false)))
    (hend : ReadEnd max stream taken reads pins (r.map fun _ => false)) : Stuck max stream r := by
  have hreads : Harmless reads := h.reads
  have hpins : ∀ errno ∈ pins, errno = 0 := h.pins
  cases r with
  | ok _ =>
    cases hend with
    | ended short => exact .ended short
    | closed _ _ cut => exact absurd hreads cut.not_harmless
  | error e =>
    cases hend with
    | stuck stuck => exact stuck
    | failed _ cut => exact absurd hreads cut.not_harmless
    | unpinned _ refused alone => exact absurd (hpins _ (alone ▸ List.mem_singleton_self _)) refused

theorem untroubled_fetch {max : Nat} {stream taken : Bytes} {reads : List Move} {pins : List Nat}
    (h : ReadEnd max stream taken reads pins (.ok true)) :
    Untroubled (.read taken reads pins (.ok true)) := by
  cases h with
  | whole _ _ free pinned => exact ⟨free, pinned, .nil, List.forall_mem_nil _⟩

theorem untroubled_judged (c : Bytes) : Untroubled (.judged c) :=
  ⟨.nil, List.forall_mem_nil _, .nil, List.forall_mem_nil _⟩

theorem untroubled_reply (storage : Bytes) {v : Verdict} {bytes : Bytes} {writes : List Move}
    {flushes : List (Option Fault)} {r : Except Error Unit} (h : ReplyEnd v bytes writes flushes r) :
    Untroubled (.replied storage bytes writes flushes r) ↔ r = .ok () := by
  cases h with
  | delivered went flushed =>
    exact iff_of_true ⟨.nil, List.forall_mem_nil _, (Went.none_iff.mp went).2, flushed⟩ rfl
  | unwritten went =>
    refine iff_of_false (fun hact => ?_) (by simp)
    exact went.not_harmless hact.writes
  | @unflushed f _ alone =>
    refine iff_of_false (fun hact => ?_) (by simp)
    have hflushes : ∀ fault ∈ flushes, fault = none := hact.flushes
    simp [alone] at hflushes

end Act

/-- A stream of which no request was read, at an act that can have met a fault. -/
theorem split_unread {max : Nat} {stream : Bytes} {act : Act} {r : Except Error Unit}
    (h : act.Untroubled → Stuck max stream r) :
    ∃ more tail ending, stream = encodeAll more ++ tail ∧ (∀ c ∈ more, Fits max c) ∧
      Stuck max tail ending ∧ (act.Untroubled → more = [] ∧ r = ending) := by
  by_cases hact : act.Untroubled
  · exact ⟨[], stream, r, rfl, List.forall_mem_nil _, h hact, fun _ => ⟨rfl, rfl⟩⟩
  · obtain ⟨more, tail, ending, hsplit, hall, hstuck⟩ := Frame.split_frames max stream
    exact ⟨more, tail, ending, hsplit, hall, hstuck, fun hfree => absurd hfree hact⟩

/-- How the last act of a service ends it. -/
inductive Closes (max : Nat) : Act → Except Error Unit → Prop where
  | refused {errno : Nat} (unpinned : errno ≠ 0) :
      Closes max (.opened [errno] (.error (.unpinned errno))) (.error (.unpinned errno))
  | unread {stream taken : Bytes} {reads : List Move} {pins : List Nat} {r : Except Error Unit}
      (fetch : ReadEnd max stream taken reads pins (r.map fun _ => false)) :
      Closes max (.read taken reads pins (r.map fun _ => false)) r
  | unanswered {v : Verdict} {storage bytes : Bytes} {writes : List Move}
      {flushes : List (Option Fault)} {e : Error} (reply : ReplyEnd v bytes writes flushes (.error e)) :
      Closes max (.replied storage bytes writes flushes (.error e)) (.error e)

namespace Course

variable {max : Nat} {stream : Bytes} {acts : List Act} {r : Except Error Unit}

/-- What is judged is a front of the frames that the stream begins with, and it is all of them unless
something went wrong. -/
theorem leading (h : Course judge max stream acts r) :
    ∃ more tail ending, stream = encodeAll (judged acts ++ more) ++ tail ∧
      (∀ c ∈ judged acts ++ more, Fits max c) ∧ Stuck max tail ending ∧
      ((∀ act ∈ acts, act.Untroubled) → more = [] ∧ r = ending) := by
  induction h with
  | ended fetch =>
    obtain ⟨more, tail, ending, hsplit, hall, hstuck, hfree⟩ :=
      split_unread fun h => h.stuck (r := .ok ()) fetch
    exact ⟨more, tail, ending, hsplit, hall, hstuck, fun h => hfree (h _ List.mem_cons_self)⟩
  | @failed _ _ _ _ e fetch =>
    obtain ⟨more, tail, ending, hsplit, hall, hstuck, hfree⟩ :=
      split_unread fun h => h.stuck (r := .error e) fetch
    exact ⟨more, tail, ending, hsplit, hall, hstuck, fun h => hfree (h _ List.mem_cons_self)⟩
  | @unanswered c rest storage bytes reads writes pins flushes e fetch _ reply =>
    obtain ⟨more, tail, ending, rfl, hall, hstuck⟩ := Frame.split_frames max rest
    refine ⟨more, tail, ending, (List.append_assoc ..).symm, ?_, hstuck, fun h => ?_⟩
    · exact List.forall_mem_cons.mpr ⟨fetch.fits, hall⟩
    · have hreply := (Act.untroubled_reply storage reply).mp (h _ (by simp))
      simp at hreply
  | @answered c rest storage bytes reads writes pins flushes acts r fetch _ reply _ ih =>
    obtain ⟨more, tail, ending, rfl, hall, hstuck, hfree⟩ := ih
    refine ⟨more, tail, ending, (List.append_assoc ..).symm, ?_, hstuck, fun h => hfree ?_⟩
    · exact List.forall_mem_cons.mpr ⟨fetch.fits, hall⟩
    · exact fun act hact => h act (by simp [hact])

/-- Only the last act meets a fault or a refusal. -/
theorem closes (h : Course judge max stream acts r) :
    ∃ front last, acts = front ++ [last] ∧ (∀ act ∈ front, act.Untroubled) ∧ Closes max last r := by
  induction h with
  | ended fetch => exact ⟨[], _, rfl, List.forall_mem_nil _, .unread (r := .ok ()) fetch⟩
  | @failed _ _ _ _ e fetch =>
    exact ⟨[], _, rfl, List.forall_mem_nil _, .unread (r := .error e) fetch⟩
  | @unanswered c _ _ _ _ _ _ _ _ fetch _ reply =>
    refine ⟨[_, _], _, rfl, ?_, .unanswered reply⟩
    simpa using And.intro (Act.untroubled_fetch fetch) (Act.untroubled_judged c)
  | @answered c rest storage bytes reads writes pins flushes acts r fetch _ reply _ ih =>
    obtain ⟨front, last, rfl, hfront, hlast⟩ := ih
    have hreply := (Act.untroubled_reply storage reply).mpr rfl
    refine ⟨_ :: _ :: _ :: front, last, rfl, ?_, hlast⟩
    simpa using And.intro (Act.untroubled_fetch fetch)
      (And.intro (Act.untroubled_judged c) (And.intro hreply hfront))

theorem blank (h : Course judge max stream acts r) {storage bytes : Bytes} {writes : List Move}
    {flushes : List (Option Fault)} {reply : Except Error Unit}
    (hreply : Act.replied storage bytes writes flushes reply ∈ acts) : ∀ byte ∈ storage, byte = 0 := by
  induction h with
  | ended => simp at hreply
  | failed => simp at hreply
  | unanswered _ blank _ =>
    obtain ⟨rfl, -⟩ : storage = _ ∧ _ := by simpa using hreply
    exact blank
  | answered _ blank _ _ ih =>
    rcases (by simpa using hreply : (storage = _ ∧ _) ∨ _) with ⟨rfl, -⟩ | hlater
    · exact blank
    · exact ih hlater

/-- What was written is the verdict on each credential, but for the last if its write failed. -/
theorem delivered (h : Course judge max stream acts r) :
    let verdicts := (judged acts).map fun c => (verdictOn judge c).toByte
    acts.flatMap Act.written = verdicts ∨ ∃ missing storage writes f,
      acts.flatMap Act.written ++ [missing] = verdicts ∧
        acts.getLast? = some (.replied storage [] writes [] (.error (.io f))) := by
  induction h with
  | ended => exact .inl rfl
  | failed => exact .inl rfl
  | @unanswered c rest storage bytes reads writes pins flushes e fetch _ reply =>
    cases reply with
    | unwritten went unflushed =>
      obtain rfl := went.nothing_of_stopped
      subst unflushed
      exact .inr ⟨_, storage, writes, _, rfl, rfl⟩
    | unflushed went =>
      obtain ⟨rfl, -⟩ := Went.none_iff.mp went
      exact .inl rfl
  | answered fetch _ reply next ih =>
    cases reply with
    | delivered went =>
      obtain ⟨rfl, -⟩ := Went.none_iff.mp went
      rcases ih with hall | ⟨missing, storage, writes, f, hfront, hlast⟩
      · exact .inl (congrArg _ hall)
      · refine .inr ⟨missing, storage, writes, f, congrArg _ hfront, ?_⟩
        simp [List.getLast?_cons, hlast]

end Course

namespace Act

/-- The service ends as a fault or a refusal that the act met has it. -/
structure Decides (act : Act) (r : Except Error Unit) : Prop where
  pins : ∀ errno ∈ act.pins, errno ≠ 0 → r = .error (.unpinned errno)
  reads : ∀ f, CutBy f act.reads → r = .error (.io f) ∨
    f.isEndOfStream = true ∧ act.taken.length < Frame.headerLength ∧ r = .ok ()
  writes : ¬Harmless act.writes → ∃ f, r = .error (.io f)
  flushes : ∀ f, some f ∈ act.flushes → r = .error (.io f)

theorem Untroubled.decides {act : Act} (h : act.Untroubled) (r : Except Error Unit) :
    act.Decides r where
  pins errno hmet hrefused := absurd (h.pins errno hmet) hrefused
  reads _ hcut := absurd h.reads hcut.not_harmless
  writes hwrites := absurd h.writes hwrites
  flushes f hmet := by simpa using h.flushes _ hmet

end Act

section Last

variable {max : Nat} {stream taken bytes : Bytes} {reads writes : List Move} {pins : List Nat}
  {flushes : List (Option Fault)} {r : Except Error Unit} {v : Verdict} {e : Error}

/-- A refused pin has the last read fail. -/
theorem unread_refused (fetch : ReadEnd max stream taken reads pins (r.map fun _ => false))
    {errno : Nat} (hmet : errno ∈ pins) (hrefused : errno ≠ 0) : r = .error (.unpinned errno) := by
  cases r with
  | ok _ =>
    cases fetch with
    | ended _ _ unasked => exact absurd (unasked ▸ hmet) List.not_mem_nil
    | closed _ _ _ unasked => exact absurd (unasked ▸ hmet) List.not_mem_nil
  | error e =>
    cases fetch with
    | stuck _ _ pinned => exact absurd (pinned errno hmet) hrefused
    | failed _ _ pinned => exact absurd (pinned errno hmet) hrefused
    | unpinned _ _ alone =>
      subst alone
      rw [List.mem_singleton.mp hmet]

/-- A fault has the last read fail, unless it is the end of the stream and comes before the header is whole. -/
theorem unread_cut (fetch : ReadEnd max stream taken reads pins (r.map fun _ => false)) {f : Fault}
    (hcut : CutBy f reads) : r = .error (.io f) ∨
      f.isEndOfStream = true ∧ taken.length < Frame.headerLength ∧ r = .ok () := by
  cases r with
  | ok _ =>
    cases fetch with
    | ended _ free => exact absurd free hcut.not_harmless
    | closed gone early cut => exact .inr ⟨hcut.unique cut ▸ gone, early, rfl⟩
  | error e =>
    cases fetch with
    | stuck _ free => exact absurd free hcut.not_harmless
    | failed _ cut => exact .inl (by rw [hcut.unique cut])
    | unpinned free => exact absurd free hcut.not_harmless

/-- A reply fails with the fault of its write or of its flush. -/
theorem unanswered_fault (reply : ReplyEnd v bytes writes flushes (.error e)) :
    ∃ f, e = .io f ∧ ∀ f', some f' ∈ flushes → f' = f := by
  cases reply with
  | @unwritten f _ unflushed =>
    exact ⟨f, rfl, fun _ hmet => absurd (unflushed ▸ hmet) List.not_mem_nil⟩
  | @unflushed f _ alone =>
    subst alone
    exact ⟨f, rfl, fun _ hmet => Option.some.inj (List.mem_singleton.mp hmet)⟩

theorem Closes.decides {act : Act} (h : Closes max act r) : act.Decides r := by
  cases h with
  | @refused errno =>
    refine ⟨fun _ hmet _ => ?_, fun _ hcut => absurd .nil hcut.not_harmless, absurd .nil,
      fun _ hmet => absurd hmet List.not_mem_nil⟩
    rw [List.mem_singleton.mp hmet]
  | unread fetch =>
    exact ⟨fun _ => unread_refused fetch, fun _ => unread_cut fetch, absurd .nil,
      fun _ hmet => absurd hmet List.not_mem_nil⟩
  | unanswered reply =>
    obtain ⟨f, rfl, hflushes⟩ := unanswered_fault reply
    exact ⟨fun _ hmet => absurd hmet List.not_mem_nil, fun _ hcut => absurd .nil hcut.not_harmless,
      fun _ => ⟨f, rfl⟩, fun f' hmet => by rw [hflushes f' hmet]⟩

end Last

namespace Service

variable {max : Nat} {stream : Bytes} {acts : List Act} {r : Except Error Unit}
  (h : Service judge max stream acts r)

include h

theorem leading :
    ∃ more tail ending, stream = encodeAll (judged acts ++ more) ++ tail ∧
      (∀ c ∈ judged acts ++ more, Fits max c) ∧ Stuck max tail ending ∧
      ((∀ act ∈ acts, act.Untroubled) → more = [] ∧ r = ending) := by
  cases h with
  | @refused errno unpinned =>
    obtain ⟨more, tail, ending, hsplit, hall, hstuck⟩ := Frame.split_frames max stream
    refine ⟨more, tail, ending, hsplit, hall, hstuck, fun h => ?_⟩
    have hopened := h _ List.mem_cons_self
    exact absurd (hopened.pins errno List.mem_cons_self) unpinned
  | opened _ course =>
    obtain ⟨more, tail, ending, hsplit, hall, hstuck, hfree⟩ := course.leading
    exact ⟨more, tail, ending, hsplit, hall, hstuck,
      fun h => hfree (List.forall_mem_of_forall_mem_cons h)⟩

theorem closes :
    ∃ front last, acts = front ++ [last] ∧ (∀ act ∈ front, act.Untroubled) ∧ Closes max last r := by
  cases h with
  | refused unpinned => exact ⟨[], _, rfl, List.forall_mem_nil _, .refused unpinned⟩
  | opened pinned course =>
    obtain ⟨front, last, rfl, hfront, hlast⟩ := course.closes
    exact ⟨_ :: front, last, rfl,
      List.forall_mem_cons.mpr ⟨⟨.nil, pinned, .nil, List.forall_mem_nil _⟩, hfront⟩, hlast⟩

theorem blank {storage bytes : Bytes} {writes : List Move} {flushes : List (Option Fault)}
    {reply : Except Error Unit} (hreply : Act.replied storage bytes writes flushes reply ∈ acts) :
    ∀ byte ∈ storage, byte = 0 := by
  cases h with
  | refused => simp at hreply
  | opened _ course => exact course.blank (by simpa using hreply)

theorem delivered :
    let verdicts := (judged acts).map fun c => (verdictOn judge c).toByte
    acts.flatMap Act.written = verdicts ∨ ∃ missing storage writes f,
      acts.flatMap Act.written ++ [missing] = verdicts ∧
        acts.getLast? = some (.replied storage [] writes [] (.error (.io f))) := by
  cases h with
  | refused => exact .inl rfl
  | opened _ course =>
    rcases course.delivered with hall | ⟨missing, storage, writes, f, hfront, hlast⟩
    · exact .inl hall
    · exact .inr ⟨missing, storage, writes, f, hfront, by simp [List.getLast?_cons, hlast]⟩

end Service

end ScreenLocker.Verifier
