import Mathlib.Algebra.GroupWithZero.Nat
import ScreenLocker.Proofs.Pinning
import ScreenLocker.Proofs.Requests
import ScreenLocker.Proofs.Sending

/-! What a transfer uses up: bytes of a stream, answers of a script, error numbers of the memory. A block is
stopped by the first of the answers to its calls that is a fault, so what came before it came by answers
that do no harm. A script that is not at its end has let through no more than its answers allow. -/

namespace ScreenLocker

/-- The answers at the front of a script that calls have met, which moved so much in all. An answer allows
no more than its worth; past the end of the script nothing holds a call back. -/
structure Met {α : Type} (worth : α → Nat) (script rest : List α) (moved : Nat) (met : List α) :
    Prop where
  front : script = met ++ rest
  allowed : rest = [] ∨ moved ≤ (met.map worth).sum

namespace Met

variable {α : Type} {worth : α → Nat} {script rest last met more : List α} {moved n : Nat}

theorem refl (script : List α) : Met worth script script 0 [] := ⟨rfl, .inr (Nat.zero_le _)⟩

theorem trans (h : Met worth script rest moved met) (h' : Met worth rest last n more) :
    Met worth script last (moved + n) (met ++ more) where
  front := by rw [h.front, h'.front, List.append_assoc]
  allowed := by
    rcases h'.allowed with hend | hmore
    · exact .inl hend
    rcases h.allowed with hend | hmoved
    · left
      rw [h'.front] at hend
      exact (List.append_eq_nil_iff.mp hend).2
    · right
      rw [List.map_append, List.sum_append]
      exact Nat.add_le_add hmoved hmore

/-- One more answer at the front allows what it is worth. -/
theorem cons {answer : α} (hworth : n ≤ worth answer) (h : Met worth script rest moved met) :
    Met worth (answer :: script) rest (n + moved) (answer :: met) where
  front := congrArg _ h.front
  allowed := by
    refine h.allowed.imp id fun hmoved => ?_
    rw [List.map_cons, List.sum_cons]
    exact Nat.add_le_add hworth hmoved

/-- The next answer, if there is one, is for one request. -/
theorem next (script : List α) : Met (fun _ => 1) script script.tail 1 (script.take 1) := by
  cases script with
  | nil => exact ⟨rfl, .inl rfl⟩
  | cons answer rest => exact ⟨rfl, .inr (Nat.le_refl 1)⟩

end Met

/-- The most that a call with this answer moves. -/
def Move.most : Move → Nat
  | upTo n => n
  | fail _ => 0

/-- The call is the last of a block that is to come in, with this fault. -/
def Move.Cuts : Move → Fault → Prop
  | upTo 0, f => f = .shortRead
  | upTo (_ + 1), _ => False
  | fail cause, f => f = cause ∧ cause.isInterrupted = false

theorem Move.Cuts.not_harmless {call : Move} {f : Fault} (h : call.Cuts f) : ¬call.Harmless := by
  match call with
  | .upTo 0 => exact Nat.lt_irrefl 0
  | .fail cause => exact fun hagain => Bool.false_ne_true (h.2.symm.trans hagain)

theorem Move.Cuts.unique {call : Move} {f f' : Fault} (h : call.Cuts f) (h' : call.Cuts f') : f = f' := by
  match call with
  | .upTo 0 => exact Eq.trans h (Eq.symm h')
  | .fail cause => exact h.1.trans h'.1.symm

/-- The last of the calls meets the fault, and those before it do no harm. -/
def CutBy (f : Fault) (calls : List Move) : Prop :=
  ∃ front last, calls = front ++ [last] ∧ Harmless front ∧ last.Cuts f

namespace CutBy

variable {f : Fault} {calls : List Move}

theorem single {call : Move} (h : call.Cuts f) : CutBy f [call] := ⟨[], call, rfl, .nil, h⟩

theorem after {front : List Move} (hfront : Harmless front) (h : CutBy f calls) :
    CutBy f (front ++ calls) := by
  obtain ⟨more, last, rfl, hmore, hlast⟩ := h
  exact ⟨front ++ more, last, (List.append_assoc ..).symm, List.forall_mem_append.mpr ⟨hfront, hmore⟩,
    hlast⟩

theorem unique {f' : Fault} (h : CutBy f calls) (h' : CutBy f' calls) : f = f' := by
  obtain ⟨front, last, rfl, -, hlast⟩ := h
  obtain ⟨front', last', hcalls, -, hlast'⟩ := h'
  obtain ⟨-, hsame⟩ := List.append_inj' hcalls rfl
  obtain rfl := List.singleton_inj.mp hsame
  exact hlast.unique hlast'

theorem not_harmless (h : CutBy f calls) : ¬Harmless calls := by
  obtain ⟨front, last, rfl, -, hlast⟩ := h
  exact fun hall => hlast.not_harmless (hall last (by simp))

end CutBy

namespace InStream

/-- How a block came in, by the calls that it took: whole, or as far as the stream went, or up to a call
that cut it off. -/
inductive Came (pending : Bytes) (want : Nat) (taken : Bytes) (calls : List Move) :
    Option Fault → Prop where
  | whole (full : taken.length = want) (free : Harmless calls) : Came pending want taken calls none
  | short (all : taken = pending) (short : pending.length < want) (free : Harmless calls) :
      Came pending want taken calls (some .shortRead)
  | cut {f : Fault} (short : taken.length < want) (cut : CutBy f calls) :
      Came pending want taken calls (some f)

/-- A block goes on after a call that brought some of it, or was interrupted. -/
theorem Came.after {got rest taken : Bytes} {want : Nat} {call : Move} {calls : List Move}
    {fault : Option Fault} (hcall : call.Harmless) (hwant : got.length ≤ want)
    (h : Came rest (want - got.length) taken calls fault) :
    Came (got ++ rest) want (got ++ taken) (call :: calls) fault := by
  have hfree : Harmless [call] := List.forall_mem_singleton.mpr hcall
  cases h with
  | whole full free =>
    refine .whole ?_ (free.cons call hcall)
    rw [List.length_append]
    omega
  | short all short free =>
    refine .short (congrArg _ all) ?_ (free.cons call hcall)
    rw [List.length_append]
    omega
  | cut short cut =>
    refine .cut ?_ (cut.after hfree)
    rw [List.length_append]
    omega

/-- What a block read takes of the stream, and which answers it meets. -/
structure Drawn (script : List Move) (pending : Bytes) (want : Nat) (taken : Taken) (calls : List Move) :
    Prop where
  met : Met Move.most script taken.script taken.bytes.length calls
  front : taken.bytes <+: pending
  came : Came pending want taken.bytes calls taken.fault

theorem Drawn.after (got : Bytes) {rest : Bytes} {want : Nat} {call : Move} {script calls : List Move}
    {taken : Taken} (hcall : call.Harmless) (hmost : got.length ≤ call.most)
    (hwant : got.length ≤ want) (h : Drawn script rest (want - got.length) taken calls) :
    Drawn (call :: script) (got ++ rest) want { taken with bytes := got ++ taken.bytes }
      (call :: calls) where
  met := by
    rw [List.length_append]
    exact h.met.cons hmost
  front := (List.prefix_append_right_inj got).mpr h.front
  came := h.came.after hcall hwant

theorem takeExactly_drawn (script : List Move) (pending : Bytes) (want : Nat) :
    ∃ calls, Drawn script pending want (takeExactly script pending want) calls := by
  fun_induction takeExactly script pending want with
  | case1 script pending => exact ⟨[], .refl _, List.nil_prefix, .whole rfl .nil⟩
  | case2 pending want =>
    refine ⟨[], ⟨rfl, .inl rfl⟩, List.take_prefix _ _, ?_⟩
    by_cases hshort : pending.length < want
    · rw [if_pos hshort]
      exact .short (List.take_of_length_le (Nat.le_of_lt hshort)) hshort .nil
    · rw [if_neg hshort]
      exact .whole (List.length_take_of_le (Nat.not_lt.mp hshort)) .nil
  | case3 f rest pending want _ hint ih =>
    obtain ⟨calls, hdrawn⟩ := ih
    exact ⟨_, hdrawn.after [] hint (Nat.zero_le _) (Nat.zero_le _)⟩
  | case4 f rest pending want hwant hint =>
    have hlasting : f.isInterrupted = false := Bool.eq_false_iff.mpr hint
    exact ⟨[.fail f], (Met.refl _).cons (Nat.zero_le _), List.nil_prefix,
      .cut (Nat.pos_of_ne_zero hwant) (.single ⟨rfl, hlasting⟩)⟩
  | case5 n rest pending want hwant got hempty =>
    refine ⟨[.upTo n], (Met.refl _).cons (Nat.zero_le _), List.nil_prefix, ?_⟩
    cases n with
    | zero => exact .cut (Nat.pos_of_ne_zero hwant) (.single rfl)
    | succ n =>
      have hwant : want ≠ 0 := hwant
      have hpending : pending = [] := by simpa [got, hwant] using hempty
      subst hpending
      exact .short rfl (Nat.pos_of_ne_zero hwant) (Harmless.nil.cons _ (Nat.succ_pos n))
  | case6 n rest pending want _ got hsome _ ih =>
    obtain ⟨calls, hdrawn⟩ := ih
    have hlength : got.length = min (min n want) pending.length := List.length_take
    have hsplit : pending = got ++ pending.drop got.length :=
      (List.prefix_iff_eq_append.mp (List.take_prefix _ _)).symm
    have hsome : 0 < got.length := List.length_pos_iff.mpr fun hnone => hsome (by simp [hnone])
    have hmost : got.length ≤ n := by omega
    have hwant : got.length ≤ want := by omega
    refine ⟨.upTo n :: calls, ?_⟩
    rw [hsplit]
    exact hdrawn.after _ (Nat.lt_of_lt_of_le hsome hmost) hmost hwant

/-- From one state of a stream to a later one: the bytes that were taken, and the answers that were met. -/
structure Passed (s s' : InStream) (taken : Bytes) (calls : List Move) : Prop where
  pending : s.pending = taken ++ s'.pending
  met : Met Move.most s.script s'.script taken.length calls

theorem Passed.refl (s : InStream) : Passed s s [] [] := ⟨rfl, .refl _⟩

theorem Passed.trans {s t u : InStream} {taken more : Bytes} {calls later : List Move}
    (h : Passed s t taken calls) (h' : Passed t u more later) :
    Passed s u (taken ++ more) (calls ++ later) where
  pending := by rw [h.pending, h'.pending, List.append_assoc]
  met := by
    rw [List.length_append]
    exact h.met.trans h'.met

/-- A block read uses up what it takes and the answers that it meets. -/
theorem readExactly_passed (want : Nat) (s : InStream) :
    ∃ taken calls fault s', readExactly want s = ((taken, fault), s') ∧
      Passed s s' taken calls ∧ Came s.pending want taken calls fault := by
  obtain ⟨calls, hdrawn⟩ := takeExactly_drawn s.script s.pending want
  have hpending := (List.prefix_iff_eq_append.mp hdrawn.front).symm
  exact ⟨_, calls, _, _, rfl, ⟨hpending, hdrawn.met⟩, hdrawn.came⟩

end InStream

namespace OutStream

/-- The calls of a block move what is written of it. -/
theorem giveAll_met (script : List Move) (block : Bytes) :
    ∃ calls, Met Move.most script (giveAll script block).script (giveAll script block).bytes.length
      calls := by
  fun_induction giveAll script block with
  | case1 script => exact ⟨[], .refl script⟩
  | case2 block => exact ⟨[], rfl, .inl rfl⟩
  | case3 f rest block _ _ ih =>
    obtain ⟨calls, hmet⟩ := ih
    refine ⟨.fail f :: calls, ?_⟩
    simpa [Given.after] using hmet.cons (Nat.zero_le (Move.fail f).most)
  | case4 f rest => exact ⟨[.fail f], (Met.refl rest).cons (Nat.zero_le _)⟩
  | case5 rest => exact ⟨[.upTo 0], (Met.refl rest).cons (Nat.zero_le _)⟩
  | case6 n rest block _ put ih =>
    obtain ⟨calls, hmet⟩ := ih
    refine ⟨.upTo (n + 1) :: calls, ?_⟩
    rw [Given.after, List.length_append]
    exact hmet.cons (List.length_take_le _ _)

/-- From one state of a writer to a later one: the bytes that went out, and the answers that calls and
flushes met. Each byte has a flush of its own. -/
structure Passed (s s' : OutStream) (bytes : Bytes) (calls : List Move)
    (flushes : List (Option Fault)) : Prop where
  written : s'.written = s.written ++ bytes
  met : Met Move.most s.script s'.script bytes.length calls
  flushed : Met (fun _ => 1) s.flushes s'.flushes bytes.length flushes

theorem Passed.refl (s : OutStream) : Passed s s [] [] [] :=
  ⟨(List.append_nil _).symm, .refl _, .refl _⟩

theorem Passed.trans {s t u : OutStream} {bytes more : Bytes} {calls later : List Move}
    {flushes last : List (Option Fault)} (h : Passed s t bytes calls flushes)
    (h' : Passed t u more later last) :
    Passed s u (bytes ++ more) (calls ++ later) (flushes ++ last) where
  written := by rw [h'.written, h.written, List.append_assoc]
  met := by
    rw [List.length_append]
    exact h.met.trans h'.met
  flushed := by
    rw [List.length_append]
    exact h.flushed.trans h'.flushed

/-- A block that goes out uses up the answers that its calls meet, and no flush. -/
theorem writeAll_passed (block : Bytes) (s : OutStream) :
    ∃ bytes calls fault s', writeAll block s = (fault, s') ∧ s'.written = s.written ++ bytes ∧
      Met Move.most s.script s'.script bytes.length calls ∧ s'.flushes = s.flushes ∧
      Went block calls bytes fault := by
  obtain ⟨calls, hmet⟩ := giveAll_met s.script block
  obtain ⟨used, hscript, hwent⟩ := giveAll_went s.script block
  obtain rfl : used = calls := List.append_cancel_right (hscript.symm.trans hmet.front)
  exact ⟨_, used, _, _, rfl, rfl, hmet, rfl, hwent⟩

end OutStream

/-- A request to pin a block. -/
def MemoryEvent.asks : MemoryEvent → Bool
  | pin .. => true
  | store .. => false
  | unpin .. => false

namespace Memory

/-- From one state of the memory to a later one: the error numbers that requests to pin have met. -/
def Asked (m m' : Memory) (pins : List Nat) : Prop :=
  ∃ events, m'.events = m.events ++ events ∧
    Met (fun _ => 1) m.answers m'.answers (events.countP MemoryEvent.asks) pins

theorem Asked.refl (m : Memory) : Asked m m [] := ⟨[], (List.append_nil _).symm, .refl _⟩

theorem Asked.trans {m n o : Memory} {pins more : List Nat} (h : Asked m n pins)
    (h' : Asked n o more) : Asked m o (pins ++ more) := by
  obtain ⟨events, hevents, hmet⟩ := h
  obtain ⟨later, hlater, hmore⟩ := h'
  refine ⟨events ++ later, by rw [hlater, hevents, List.append_assoc], ?_⟩
  rw [List.countP_append]
  exact hmet.trans hmore

theorem asked_store (m : Memory) (block : Nat) (content : Bytes) :
    Asked m (m.store block content) [] :=
  ⟨[.store block content], rfl, .refl _⟩

theorem asked_release (m : Memory) (block : Nat) (content : Bytes) :
    Asked m (m.release block content) [] :=
  ⟨[.unpin block (zeros content.length)], rfl, .refl _⟩

theorem asked_allocate (m : Memory) (length : Nat) :
    Asked m (m.allocate length).2 (m.answers.take 1) := by
  have hmet : Met (fun _ => 1) m.answers (m.allocate length).2.answers 1 (m.answers.take 1) := by
    rw [answers_allocate]
    exact .next m.answers
  by_cases hpin : m.errno = 0
  · exact ⟨_, events_granted hpin length, hmet⟩
  · exact ⟨_, events_refused hpin length, hmet⟩

/-- The answer to one request to pin is the next error number. -/
theorem granted_take {m : Memory} (h : m.errno = 0) : ∀ errno ∈ m.answers.take 1, errno = 0 := by
  unfold errno at h
  cases hanswers : m.answers with
  | nil => simp
  | cons first rest => simpa [hanswers] using h

theorem refused_take {m : Memory} (h : m.errno ≠ 0) : m.answers.take 1 = [m.errno] := by
  unfold errno at h ⊢
  cases hanswers : m.answers with
  | nil => simp [hanswers] at h
  | cons first rest => rfl

end Memory

/-- The error of a block that was not pinned. -/
def Error.unpinned (errno : Nat) : Error := .buffer (.pin (Fault.os errno).message)

namespace SecureBuffer

/-- A new buffer asks for one pin. -/
theorem create_asked (initial max : Nat) (memory : Memory) :
    (memory.errno = 0 ∧ ∃ b, create initial max memory = .ok b ∧
      memory.Asked b.memory (memory.answers.take 1)) ∨
    memory.errno ≠ 0 ∧ ∃ left,
      create initial max memory = .error (.pin (Fault.os memory.errno).message, left) ∧
        memory.Asked left (memory.answers.take 1) := by
  rw [create_eq]
  have hasked := Memory.asked_allocate memory (firstCapacity initial max)
  by_cases hpin : memory.errno = 0
  · exact .inl ⟨hpin, _, if_pos hpin, hasked⟩
  · exact .inr ⟨hpin, _, if_neg hpin, hasked⟩

/-- How a request for room ended that is within the limit: it was granted, or a pin was refused. -/
inductive Roomed (start : Nat) (pins : List Nat) : Except BufferError Nat → Prop where
  | granted (free : ∀ errno ∈ pins, errno = 0) : Roomed start pins (.ok start)
  | refused {errno : Nat} (alone : pins = [errno]) (unpinned : errno ≠ 0) :
      Roomed start pins (.error (.pin (Fault.os errno).message))

theorem extendZeroed_roomed {n : Nat} {b : SecureBuffer} (h : b.length + n ≤ b.max) :
    let asked := tried (extendZeroed n) b
    ∃ pins, b.memory.Asked asked.2.memory pins ∧ Roomed b.length pins asked.1 := by
  rcases hres : tried (reserve n) b with ⟨r, room⟩
  have hreserved : Reserved n b r room := by
    have htable := reserved n b
    rwa [hres] at htable
  cases hreserved with
  | exceeded beyond => exact absurd h (Nat.not_le.mpr beyond)
  | roomy =>
    refine ⟨[], ?_⟩
    simpa [extendZeroed, hres] using
      And.intro (Memory.Asked.refl b.memory) (Roomed.granted (List.forall_mem_nil _))
  | refused fits full unpinned =>
    refine ⟨b.memory.answers.take 1, ?_⟩
    simpa [extendZeroed, hres] using And.intro (Memory.asked_allocate _ _)
      (Roomed.refused (Memory.refused_take unpinned) unpinned)
  | grown fits full pinned =>
    let target := b.nextCapacity (b.length + n)
    have hmoved : b.memory.Asked (b.moved target).memory (b.memory.answers.take 1 ++ [] ++ []) :=
      ((Memory.asked_allocate _ _).trans (Memory.asked_store _ _ _)).trans (Memory.asked_release _ _ _)
    rw [List.append_nil, List.append_nil] at hmoved
    have hlength : (b.moved target).length = b.length := rfl
    refine ⟨b.memory.answers.take 1, ?_⟩
    simpa [extendZeroed, hres, target, hlength] using
      And.intro hmoved (Roomed.granted (Memory.granted_take pinned))

end SecureBuffer

namespace Frame

open SecureBuffer (Roomed)

/-- How a read of a request ends, by what is there and what is met. -/
inductive ReadEnd (max : Nat) (stream taken : Bytes) (calls : List Move) (pins : List Nat) :
    Except Error Bool → Prop where
  | whole {c : Bytes} (frame : taken = encode c) (fits : Fits max c) (free : Harmless calls)
      (pinned : ∀ errno ∈ pins, errno = 0) : ReadEnd max stream taken calls pins (.ok true)
  | ended (short : stream.length < headerLength) (free : Harmless calls) (unasked : pins = []) :
      ReadEnd max stream taken calls pins (.ok false)
  | stuck {e : Error} (stuck : Stuck max stream (.error e)) (free : Harmless calls)
      (pinned : ∀ errno ∈ pins, errno = 0) : ReadEnd max stream taken calls pins (.error e)
  | closed {f : Fault} (gone : f.isEndOfStream = true) (early : taken.length < headerLength)
      (cut : CutBy f calls) (unasked : pins = []) : ReadEnd max stream taken calls pins (.ok false)
  | failed {f : Fault} (lasting : f.isEndOfStream = true → headerLength ≤ taken.length)
      (cut : CutBy f calls) (pinned : ∀ errno ∈ pins, errno = 0) :
      ReadEnd max stream taken calls pins (.error (.io f))
  | unpinned {errno : Nat} (free : Harmless calls) (refused : errno ≠ 0) (alone : pins = [errno]) :
      ReadEnd max stream taken calls pins (.error (.unpinned errno))

theorem ReadEnd.fits {max : Nat} {c rest : Bytes} {calls : List Move} {pins : List Nat}
    (h : ReadEnd max (encode c ++ rest) (encode c) calls pins (.ok true)) : Fits max c := by
  cases h with
  | whole frame fits =>
    obtain ⟨-, rfl⟩ := List.append_inj frame (by rw [length_header, length_header])
    exact fits

/-- A request whose header is there and within the limit. -/
theorem body_readEnd {s s₁ : InStream} {b : SecureBuffer} {head : Bytes} {calls : List Move}
    (hhead : InStream.readExactly headerLength s = ((head, none), s₁))
    (hpassed : s.Passed s₁ head calls) (hfree : Harmless calls) (hfour : head.length = headerLength)
    (hwithin : ofLittleEndian head ≤ b.max) :
    let after := tried read (s, b)
    ∃ taken calls pins, s.Passed after.2.1 taken calls ∧ b.memory.Asked after.2.2.memory pins ∧
      ReadEnd b.max s.pending taken calls pins after.1 := by
  intro after
  let length := ofLittleEndian head
  have hmax : ¬b.max < ofLittleEndian head := Nat.not_lt.mpr hwithin
  have hroomy : b.wiped.length + length ≤ b.wiped.max := by
    rw [SecureBuffer.wiped_length, Nat.zero_add]
    exact hwithin
  obtain ⟨pins, hextended, hroomed⟩ := SecureBuffer.extendZeroed_roomed hroomy
  rcases hroom : tried (SecureBuffer.extendZeroed length) b.wiped with ⟨r, room⟩
  rw [hroom] at hextended hroomed
  have hasked : b.memory.Asked room.memory pins := (Memory.asked_store _ _ _).trans hextended
  cases hroomed with
  | @refused errno alone unpinned =>
    have hafter : after = (.error (.unpinned errno), (s₁, room)) := by
      simp [after, tried_read, hhead, hmax, length, hroom, Error.unpinned]
    rw [hafter]
    exact ⟨head, calls, pins, hpassed, hasked, .unpinned hfree unpinned alone⟩
  | granted pinned =>
    obtain ⟨body, more, fault, s₂, hbody, hrest, hcame⟩ := InStream.readExactly_passed length s₁
    let filled := (outcome (SecureBuffer.fill b.wiped.length body) room).2
    have hfilled : b.memory.Asked filled.memory (pins ++ []) :=
      hasked.trans (Memory.asked_store _ _ _)
    rw [List.append_nil] at hfilled
    have hpending : s.pending = head ++ s₁.pending := hpassed.pending
    have htake : s.pending.take headerLength = head := by
      rw [hpending, ← hfour, List.take_left]
    refine ⟨head ++ body, calls ++ more, pins, ?_⟩
    cases hcame with
    | whole full free =>
      have hafter : after = (.ok true, (s₂, filled)) :=
        read_iff.mpr ⟨head, s₁, _, room, body, hhead, hwithin, hroom, hbody, rfl⟩
      have hsize : ofLittleEndian head < 256 ^ head.length := ofLittleEndian_lt head
      rw [hfour] at hsize
      have hheader : header body = head := by
        rw [header, full, ← hfour, littleEndian_ofLittleEndian]
      have hframe : head ++ body = encode body := by rw [encode, hheader]
      have hfits : Fits b.max body := by
        rw [Fits, full]
        exact ⟨hwithin, hsize⟩
      rw [hafter]
      exact ⟨hpassed.trans hrest, hfilled,
        .whole hframe hfits (List.forall_mem_append.mpr ⟨hfree, free⟩) pinned⟩
    | short all short free =>
      have hafter : after = (.error (.io .shortRead), (s₂, filled)) := by
        simp [after, tried_read, hhead, hmax, length, hroom, hbody, filled]
      have hstuck : Stuck b.max s.pending (.error (.io .shortRead)) := by
        refine .cut ?_ (htake ▸ hwithin) ?_
        · rw [hpending, List.length_append]
          omega
        · rw [htake, hpending, List.length_append, hfour]
          exact Nat.add_lt_add_left short _
      rw [hafter]
      exact ⟨hpassed.trans hrest, hfilled,
        .stuck hstuck (List.forall_mem_append.mpr ⟨hfree, free⟩) pinned⟩
    | @cut f short cut =>
      have hafter : after = (.error (.io f), (s₂, filled)) := by
        simp [after, tried_read, hhead, hmax, length, hroom, hbody, filled]
      have hlong : headerLength ≤ (head ++ body).length := by
        rw [List.length_append]
        omega
      rw [hafter]
      exact ⟨hpassed.trans hrest, hfilled, .failed (fun _ => hlong) (cut.after hfree) pinned⟩

theorem read_readEnd (s : InStream) (b : SecureBuffer) :
    let after := tried read (s, b)
    ∃ taken calls pins, s.Passed after.2.1 taken calls ∧ b.memory.Asked after.2.2.memory pins ∧
      ReadEnd b.max s.pending taken calls pins after.1 := by
  intro after
  obtain ⟨head, calls, fault, s₁, hhead, hpassed, hcame⟩ :=
    InStream.readExactly_passed headerLength s
  cases hcame with
  | short all short free =>
    have hgone : Fault.shortRead.isEndOfStream = true := rfl
    have hafter : after = (.ok false, (s₁, b)) := by
      simp [after, tried_read, hhead, hgone]
    rw [hafter]
    exact ⟨head, calls, [], hpassed, .refl _, .ended short free rfl⟩
  | @cut f short cut =>
    cases hgone : f.isEndOfStream with
    | true =>
      have hafter : after = (.ok false, (s₁, b)) := by
        simp [after, tried_read, hhead, hgone]
      rw [hafter]
      exact ⟨head, calls, [], hpassed, .refl _, .closed hgone short cut rfl⟩
    | false =>
      have hafter : after = (.error (.io f), (s₁, b)) := by
        simp [after, tried_read, hhead, hgone]
      rw [hafter]
      refine ⟨head, calls, [], hpassed, .refl _, .failed (fun h => ?_) cut (List.forall_mem_nil _)⟩
      exact absurd (hgone.symm.trans h) Bool.false_ne_true
  | whole full free =>
    by_cases hmax : b.max < ofLittleEndian head
    · have htake : s.pending.take headerLength = head := by
        rw [hpassed.pending, ← full, List.take_left]
      have hthere : headerLength ≤ s.pending.length := by
        rw [hpassed.pending, List.length_append]
        omega
      have hstuck := Stuck.oversized hthere (htake ▸ hmax)
      rw [htake] at hstuck
      have hend : ReadEnd b.max s.pending head calls [] (.error _) :=
        .stuck hstuck free (List.forall_mem_nil _)
      refine ⟨head, calls, [], ?_⟩
      simpa [after, tried_read, hhead, hmax] using
        And.intro hpassed (And.intro (Memory.Asked.refl b.memory) hend)
    · exact body_readEnd hhead hpassed free full (Nat.not_lt.mp hmax)

/-- How a reply ends: its byte is out and flushed, or is not out, or is out but not flushed. -/
inductive ReplyEnd (v : Verdict) (bytes : Bytes) (calls : List Move) (flushes : List (Option Fault)) :
    Except Error Unit → Prop where
  | delivered (went : Went [v.toByte] calls bytes none) (flushed : ∀ fault ∈ flushes, fault = none) :
      ReplyEnd v bytes calls flushes (.ok ())
  | unwritten {f : Fault} (went : Went [v.toByte] calls bytes (some f)) (unflushed : flushes = []) :
      ReplyEnd v bytes calls flushes (.error (.io f))
  | unflushed {f : Fault} (went : Went [v.toByte] calls bytes none) (alone : flushes = [some f]) :
      ReplyEnd v bytes calls flushes (.error (.io f))

theorem writeVerdict_replyEnd (v : Verdict) (out : OutStream) :
    let after := tried (writeVerdict v) out
    ∃ bytes calls flushes, out.Passed after.2 bytes calls flushes ∧
      ReplyEnd v bytes calls flushes after.1 := by
  intro after
  obtain ⟨bytes, calls, fault, out₁, hwrite, hwritten, hmet, hflushes, hwent⟩ :=
    OutStream.writeAll_passed [v.toByte] out
  cases fault with
  | some f =>
    have hafter : after = (.error (.io f), out₁) := by
      simp [after, writeVerdict, hwrite, tried_orFault]
    obtain rfl := hwent.nothing_of_stopped
    rw [hafter]
    exact ⟨[], calls, [], ⟨hwritten, hmet, hflushes ▸ .refl _⟩, .unwritten hwent rfl⟩
  | none =>
    have hafter : after =
        (out.flushes.headD none |>.elim (.ok ()) fun f => .error (.io f), out₁.flush.2) := by
      simp [after, writeVerdict, hwrite, tried_orFault, OutStream.flush, hflushes]
    have hflushed : Met (fun _ => 1) out.flushes out₁.flush.2.flushes 1 (out.flushes.take 1) := by
      rw [← hflushes]
      exact .next out₁.flushes
    obtain ⟨rfl, -⟩ := Went.none_iff.mp hwent
    rw [hafter]
    refine ⟨_, calls, out.flushes.take 1, ⟨hwritten, hmet, hflushed⟩, ?_⟩
    cases out.flushes with
    | nil => exact .delivered hwent (List.forall_mem_nil _)
    | cons fault rest =>
      cases fault with
      | none => exact .delivered hwent (List.forall_mem_singleton.mpr rfl)
      | some f => exact .unflushed hwent rfl

end Frame

end ScreenLocker
