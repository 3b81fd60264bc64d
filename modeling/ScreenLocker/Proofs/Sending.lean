import ScreenLocker.Proofs.Fragments
import ScreenLocker.Proofs.Twins

/-! Writers that may stop anywhere. Whatever the calls on a writer come to, the bytes that reach it are a
beginning of the frame. They are all of it unless a call moved nothing or failed for good; that call is the last
then, and the fault is its fault. Interrupted calls leave no trace. -/

namespace ScreenLocker

namespace Move

/-- The call ends a block that is to go out, with this fault. -/
def Stops : Move → Fault → Prop
  | upTo 0, f => f.kind? = some .writeZero
  | upTo (_ + 1), _ => False
  | fail cause, f => f = cause ∧ cause.isInterrupted = false

def isInterrupted : Move → Bool
  | upTo _ => false
  | fail f => f.isInterrupted

end Move

/-- What is left of a script without the calls that are to be repeated. -/
def uninterrupted (script : List Move) : List Move := script.filter (!·.isInterrupted)

theorem Harmless.cons {rest : List Move} (move : Move) (hmove : move.Harmless) (h : Harmless rest) :
    Harmless (move :: rest) := List.forall_mem_cons.mpr ⟨hmove, h⟩

theorem Harmless.nil : Harmless [] := List.forall_mem_nil _

/-- How a block went out, by the calls that it took: whole, or up to a call that stopped it. -/
inductive Went : (block : Bytes) → (used : List Move) → (sent : Bytes) → Option Fault → Prop where
  | whole {block : Bytes} {used : List Move} (harmless : Harmless used) : Went block used block none
  | stopped {sent rest : Bytes} {front : List Move} {stop : Move} {f : Fault} (harmless : Harmless front)
      (stops : stop.Stops f) (left : rest ≠ []) : Went (sent ++ rest) (front ++ [stop]) sent (some f)

namespace Went

variable {a b sent : Bytes} {used used' : List Move} {fault : Option Fault} {f : Fault}

theorem after (call : Move) (hcall : call.Harmless) (put : Bytes) (h : Went b used sent fault) :
    Went (put ++ b) (call :: used) (put ++ sent) fault := by
  cases h with
  | whole harmless => exact .whole (harmless.cons call hcall)
  | stopped harmless stops left =>
    rw [← List.append_assoc, ← List.cons_append]
    exact .stopped (harmless.cons call hcall) stops left

/-- The first call stops the block, and nothing of it has gone out. -/
theorem nothing {stop : Move} (hstop : stop.Stops f) (hsome : a ≠ []) : Went a [stop] [] (some f) :=
  @stopped [] a [] stop f .nil hstop hsome

theorem none_iff : Went a used sent none ↔ sent = a ∧ Harmless used := by
  constructor
  · intro h
    cases h with
    | whole harmless => exact ⟨rfl, harmless⟩
  · rintro ⟨rfl, harmless⟩
    exact .whole harmless

theorem append (hused : Harmless used) (h : Went b used' sent fault) :
    Went (a ++ b) (used ++ used') (a ++ sent) fault := by
  cases h with
  | whole harmless => exact .whole (List.forall_mem_append.mpr ⟨hused, harmless⟩)
  | stopped harmless stops left =>
    rw [← List.append_assoc, ← List.append_assoc]
    exact .stopped (List.forall_mem_append.mpr ⟨hused, harmless⟩) stops left

theorem cut (h : Went a used sent (some f)) : Went (a ++ b) used sent (some f) := by
  cases h with
  | stopped harmless stops left =>
    rw [List.append_assoc]
    exact .stopped harmless stops (by simp [left])

/-- Of a single byte nothing is out if it was stopped. -/
theorem nothing_of_stopped {byte : UInt8} (h : Went [byte] used sent (some f)) : sent = [] := by
  generalize hblock : [byte] = block at h
  cases h with
  | stopped harmless stops left =>
    rcases List.append_eq_singleton_iff.mp hblock.symm with ⟨hnothing, -⟩ | ⟨-, hrest⟩
    · exact hnothing
    · exact absurd hrest left

/-- A block that was stopped met a fault. -/
theorem not_harmless (h : Went a used sent (some f)) : ¬Harmless used := by
  cases h with
  | @stopped _ _ _ stop _ _ stops =>
    intro hall
    have hstop : stop.Harmless := hall stop (by simp)
    match stop with
    | .upTo 0 => exact absurd hstop (Nat.lt_irrefl 0)
    | .fail cause => exact Bool.false_ne_true (stops.2.symm.trans hstop)

end Went

namespace OutStream

theorem giveAll_went (script : List Move) (block : Bytes) :
    ∃ used, script = used ++ (giveAll script block).script ∧
      Went block used (giveAll script block).bytes (giveAll script block).fault := by
  induction script generalizing block with
  | nil =>
    cases block <;> exact ⟨[], rfl, .whole .nil⟩
  | cons move rest ih =>
    cases block with
    | nil => exact ⟨[], rfl, .whole .nil⟩
    | cons b bytes =>
      cases move with
      | fail f =>
        by_cases hint : f.isInterrupted = true
        · obtain ⟨used, hscript, hwent⟩ := ih (b :: bytes)
          simp only [giveAll, hint, if_true]
          exact ⟨.fail f :: used, congrArg _ hscript, hwent.after (.fail f) hint []⟩
        · simp only [giveAll, hint]
          exact ⟨[.fail f], rfl, .nothing ⟨rfl, by simpa using hint⟩ (List.cons_ne_nil b bytes)⟩
      | upTo n =>
        cases n with
        | zero => exact ⟨[.upTo 0], rfl, .nothing rfl (List.cons_ne_nil b bytes)⟩
        | succ n =>
          obtain ⟨used, hscript, hwent⟩ := ih ((b :: bytes).drop (n + 1))
          refine ⟨.upTo (n + 1) :: used, congrArg _ hscript, ?_⟩
          have := hwent.after (.upTo (n + 1)) (Nat.succ_pos n) ((b :: bytes).take (n + 1))
          rw [List.take_append_drop] at this
          exact this

/-- One call for two blocks brings out a beginning of the two, or is stopped with nothing. -/
theorem giveBoth_went (script : List Move) {first : Bytes} (hsome : first ≠ []) (second : Bytes) :
    ∃ used, script = used ++ (giveBoth script first second).script ∧
      ((∃ f, (giveBoth script first second).fault = some f ∧
        Went (first ++ second) used (giveBoth script first second).bytes (some f)) ∨
      ((giveBoth script first second).fault = none ∧ Harmless used ∧
        (giveBoth script first second).bytes <+: first ++ second)) := by
  induction script with
  | nil => exact ⟨[], rfl, .inr ⟨rfl, .nil, List.prefix_refl _⟩⟩
  | cons move rest ih =>
    cases move with
    | fail f =>
      by_cases hint : f.isInterrupted = true
      · obtain ⟨used, hscript, hwent⟩ := ih
        simp only [giveBoth, hint, if_true]
        refine ⟨.fail f :: used, congrArg _ hscript, ?_⟩
        rcases hwent with ⟨f', hfault, hwent⟩ | ⟨hfault, hharmless, hfront⟩
        · exact .inl ⟨f', hfault, hwent.after (.fail f) hint []⟩
        · exact .inr ⟨hfault, hharmless.cons (.fail f) hint, hfront⟩
      · simp only [giveBoth, hint]
        exact ⟨[.fail f], rfl, .inl ⟨f, rfl, .nothing ⟨rfl, by simpa using hint⟩ (by simp [hsome])⟩⟩
    | upTo n =>
      refine ⟨[.upTo n], rfl, ?_⟩
      cases n with
      | zero =>
        exact .inl ⟨.kind .writeZero, rfl, .nothing rfl (by simp [hsome])⟩
      | succ n =>
        have hmoved : ((first ++ second).take (n + 1)).isEmpty = false := by
          simp [hsome]
        refine .inr ⟨by simp [giveBoth, hmoved], ?_, List.take_prefix _ _⟩
        exact List.forall_mem_singleton.mpr (Nat.succ_pos n)

/-- The stream has come from one state to the other over a block that was to go out. -/
def Sends (s : OutStream) (block : Bytes) (fault : Option Fault) (s' : OutStream) : Prop :=
  ∃ used sent, s.script = used ++ s'.script ∧ s'.written = s.written ++ sent ∧ s'.flushes = s.flushes ∧
    Went block used sent fault

section Sends

variable {s s' s'' : OutStream} {a b : Bytes} {fault : Option Fault} {f : Fault}

theorem Sends.append (h : Sends s a none s') (h' : Sends s' b fault s'') : Sends s (a ++ b) fault s'' := by
  obtain ⟨used, sent, hscript, hwritten, hflushes, hwent⟩ := h
  obtain ⟨used', sent', hscript', hwritten', hflushes', hwent'⟩ := h'
  obtain ⟨rfl, hused⟩ := Went.none_iff.mp hwent
  refine ⟨used ++ used', sent ++ sent', ?_, ?_, hflushes'.trans hflushes, hwent'.append hused⟩
  · rw [hscript, hscript', List.append_assoc]
  · rw [hwritten', hwritten, List.append_assoc]

theorem Sends.cut (h : Sends s a (some f) s') : Sends s (a ++ b) (some f) s' := by
  obtain ⟨used, sent, hscript, hwritten, hflushes, hwent⟩ := h
  exact ⟨used, sent, hscript, hwritten, hflushes, hwent.cut⟩

theorem writeAll_sends (block : Bytes) (s : OutStream) :
    Sends s block (writeAll block s).1 (writeAll block s).2 := by
  obtain ⟨used, hscript, hwent⟩ := giveAll_went s.script block
  exact ⟨used, _, hscript, rfl, rfl, hwent⟩

theorem writeBoth_sends {first : Bytes} (hsome : first ≠ []) (second : Bytes) (s : OutStream) :
    (∃ f s', writeBoth first second s = (.error f, s') ∧ Sends s (first ++ second) (some f) s') ∨
    ∃ moved rest s', writeBoth first second s = (.ok moved.length, s') ∧
      first ++ second = moved ++ rest ∧ Sends s moved none s' := by
  let given := giveBoth s.script first second
  obtain ⟨used, hscript, ⟨f, hfault, hwent⟩ | ⟨hfault, hharmless, rest, hsplit⟩⟩ :=
    giveBoth_went s.script hsome second
  · exact .inl ⟨f, s.absorb given, by rw [writeBoth, hfault], used, given.bytes, hscript, rfl, rfl, hwent⟩
  · exact .inr ⟨given.bytes, rest, s.absorb given, by rw [writeBoth, hfault], hsplit.symm, used, given.bytes,
      hscript, rfl, rfl, .whole hharmless⟩

end Sends

end OutStream

namespace Frame

open OutStream (Sends)

theorem tried_orFault {σ : Type} (fault : Option Fault) (s : σ) :
    tried (orFault fault) s = (fault.elim (.ok ()) fun f => .error (.io f), s) := by
  cases fault <;> rfl

/-- The last step of a write: the fault that stopped it, or a flush. -/
def concluded (fault : Option Fault) (s : OutStream) : Except Error Unit × OutStream :=
  match fault with
  | some f => (.error (.io f), s)
  | none => ((s.flush.1.elim (.ok ()) fun f => .error (.io f)), s.flush.2)

theorem write_sends {credential : Bytes} (hfit : credential.length < UInt32.size) (out : OutStream) :
    ∃ fault s, tried (write credential) out = concluded fault s ∧ Sends out (encode credential) fault s := by
  have hlarge : ¬ UInt32.size ≤ credential.length := by omega
  have hheader : header credential ≠ [] := by
    intro hnil
    have hlength := length_header credential
    simp [hnil, headerLength] at hlength
  rcases OutStream.writeBoth_sends hheader credential out with
    ⟨f, s, hfirst, hsends⟩ | ⟨moved, rest, s, hfirst, hsplit, hsends⟩
  · exact ⟨some f, s, by simp [write, hlarge, hfirst, concluded], hsends⟩
  have hrest : rest = (header credential).drop moved.length ++
      credential.drop (moved.length - (header credential).length) := by
    rw [← List.drop_append, hsplit, List.drop_left]
  have hframe : encode credential = moved ++ rest := hsplit
  rw [hframe]
  by_cases hcut : moved.length < (header credential).length
  · have hsent := OutStream.writeAll_sends ((header credential).drop moved.length) s
    rcases hhead : OutStream.writeAll ((header credential).drop moved.length) s with ⟨fault, s₁⟩
    rw [hhead] at hsent
    rw [hrest, Nat.sub_eq_zero_of_le (Nat.le_of_lt hcut), List.drop_zero]
    cases fault with
    | some f =>
      refine ⟨some f, s₁, ?_, hsends.append hsent.cut⟩
      simp [write, hlarge, hfirst, hcut, hhead, tried_orFault, concluded]
    | none =>
      have hsent' := OutStream.writeAll_sends credential s₁
      rcases hbody : OutStream.writeAll credential s₁ with ⟨fault, s₂⟩
      rw [hbody] at hsent'
      refine ⟨fault, s₂, ?_, hsends.append (hsent.append hsent')⟩
      cases fault <;> simp [write, hlarge, hfirst, hcut, hhead, hbody, tried_orFault, concluded]
  · let left := credential.drop (moved.length - (header credential).length)
    have hsent := OutStream.writeAll_sends left s
    rcases hbody : OutStream.writeAll left s with ⟨fault, s₁⟩
    rw [hbody] at hsent
    rw [hrest, List.drop_eq_nil_of_le (Nat.not_lt.mp hcut), List.nil_append]
    refine ⟨fault, s₁, ?_, hsends.append hsent⟩
    cases fault <;> simp [write, hlarge, hfirst, hcut, hbody, left, tried_orFault, concluded]

end Frame

section Uninterrupted

namespace OutStream

theorem giveAll_uninterrupted (script : List Move) (block : Bytes) :
    (giveAll (uninterrupted script) block).bytes = (giveAll script block).bytes ∧
      (giveAll (uninterrupted script) block).fault = (giveAll script block).fault ∧
      (giveAll (uninterrupted script) block).script = uninterrupted (giveAll script block).script := by
  induction script generalizing block with
  | nil => cases block <;> exact ⟨rfl, rfl, rfl⟩
  | cons move rest ih =>
    cases block with
    | nil => simp [giveAll]
    | cons b bytes =>
      cases move with
      | fail f =>
        by_cases hint : f.isInterrupted = true
        · simpa [giveAll, uninterrupted, Move.isInterrupted, Given.after, hint] using ih (b :: bytes)
        · simp [giveAll, uninterrupted, Move.isInterrupted, hint]
      | upTo n =>
        cases n with
        | zero => simp [giveAll, uninterrupted, Move.isInterrupted]
        | succ n =>
          simpa [giveAll, uninterrupted, Move.isInterrupted, Given.after] using ih (bytes.drop n)

theorem giveBoth_uninterrupted (script : List Move) (first second : Bytes) :
    (giveBoth (uninterrupted script) first second).bytes = (giveBoth script first second).bytes ∧
      (giveBoth (uninterrupted script) first second).fault = (giveBoth script first second).fault ∧
      (giveBoth (uninterrupted script) first second).script =
        uninterrupted (giveBoth script first second).script := by
  induction script with
  | nil => exact ⟨rfl, rfl, rfl⟩
  | cons move rest ih =>
    cases move with
    | fail f =>
      by_cases hint : f.isInterrupted = true
      · simpa [giveBoth, uninterrupted, Move.isInterrupted, Given.after, hint] using ih
      · simp [giveBoth, uninterrupted, Move.isInterrupted, hint]
    | upTo n => simp [giveBoth, uninterrupted, Move.isInterrupted]

/-- The second stream is the first without its interruptions. -/
structure Smoothed (s t : OutStream) : Prop where
  script : t.script = uninterrupted s.script
  written : t.written = s.written
  flushes : t.flushes = s.flushes

end OutStream

namespace Frame

open OutStream (Smoothed)

theorem discreet_modifyGet {f : OutStream → α × OutStream}
    (h : ∀ s t, Smoothed s t → (f s).1 = (f t).1 ∧ Smoothed (f s).2 (f t).2) :
    Discreet Smoothed (modifyGet f : Try OutStream α).run :=
  Twins.host fun s t hst => ⟨rfl, h s t hst⟩

theorem discreet_writeAll (block : Bytes) :
    Discreet Smoothed (modifyGet (OutStream.writeAll block) : Try OutStream _).run := by
  apply discreet_modifyGet
  rintro s t ⟨hscript, hwritten, hflushes⟩
  obtain ⟨hbytes, hfault, hleft⟩ := OutStream.giveAll_uninterrupted s.script block
  rw [← hscript] at hbytes hfault hleft
  exact ⟨hfault.symm, hleft, by simp [OutStream.writeAll, OutStream.absorb, hwritten, hbytes], hflushes⟩

theorem discreet_writeBoth (first second : Bytes) :
    Discreet Smoothed (modifyGet (OutStream.writeBoth first second) : Try OutStream _).run := by
  apply discreet_modifyGet
  rintro s t ⟨hscript, hwritten, hflushes⟩
  obtain ⟨hbytes, hfault, hleft⟩ := OutStream.giveBoth_uninterrupted s.script first second
  rw [← hscript] at hbytes hfault hleft
  refine ⟨?_, hleft, ?_, hflushes⟩
  · simp [OutStream.writeBoth, hbytes, hfault]
  · simp [OutStream.writeBoth, OutStream.absorb, hwritten, hbytes]

theorem discreet_flush : Discreet Smoothed (modifyGet OutStream.flush : Try OutStream _).run := by
  apply discreet_modifyGet
  rintro s t ⟨hscript, hwritten, hflushes⟩
  exact ⟨by simp [OutStream.flush, hflushes], hscript, hwritten, by simp [OutStream.flush, hflushes]⟩

theorem discreet_orFault (fault : Option Fault) : Discreet Smoothed (orFault fault : Try OutStream _).run := by
  cases fault with
  | none => exact Twins.tryPure ()
  | some f => exact Twins.tryThrow _

/-- A write does not know of its interruptions. -/
theorem discreet_write (credential : Bytes) : Discreet Smoothed (write credential).run := by
  unfold write
  refine Twins.tryWhen (Twins.tryThrow _) (Twins.tryBind (discreet_writeBoth _ _) fun answer => ?_)
  cases answer with
  | error fault => exact Twins.tryThrow _
  | ok moved =>
    have hflush : Discreet Smoothed
        ((do orFault (← modifyGet OutStream.flush)) : Try OutStream Unit).run :=
      Twins.tryBind discreet_flush discreet_orFault
    have hblock (block : Bytes) {next : Try OutStream Unit} (hnext : Discreet Smoothed next.run) :
        Discreet Smoothed (do
          orFault (← modifyGet (OutStream.writeAll block))
          next : Try OutStream Unit).run :=
      Twins.tryBind (discreet_writeAll block) fun fault =>
        Twins.tryBind (discreet_orFault fault) fun _ => hnext
    dsimp only
    split
    · exact hblock _ (hblock _ hflush)
    · exact hblock _ hflush

/-- Whatever its calls come to, a write brings out a beginning of the frame. It succeeds just if that is all of it
and the flush goes through. If it is less, the last call that was made moved nothing or failed for good, those before
it did no harm, and the write fails with its fault. Without its interruptions it would have done the same. -/
theorem writes_a_front {credential : Bytes} (hfit : credential.length < UInt32.size) (out : OutStream) :
    let done := tried (write credential) out
    let smooth := tried (write credential) { out with script := uninterrupted out.script }
    ∃ sent rest used, encode credential = sent ++ rest ∧ done.2.written = out.written ++ sent ∧
      out.script = used ++ done.2.script ∧
      (done.1 = .ok () ↔ rest = [] ∧ out.flushes.headD none = none) ∧
      (rest = [] → Harmless used ∧ ∀ f, out.flushes.headD none = some f → done.1 = .error (.io f)) ∧
      (rest ≠ [] → ∃ front stop f, used = front ++ [stop] ∧ Harmless front ∧ stop.Stops f ∧
        done.1 = .error (.io f)) ∧
      smooth.1 = done.1 ∧ smooth.2.written = done.2.written := by
  intro done smooth
  have htwins : smooth.1 = done.1 ∧ smooth.2.written = done.2.written := by
    have hstart : Smoothed out { out with script := uninterrupted out.script } := ⟨rfl, rfl, rfl⟩
    obtain ⟨-, hresult, hleft⟩ := discreet_write credential _ _ hstart
    exact ⟨hresult.symm, hleft.written⟩
  obtain ⟨fault, s, hdone, used, sent, hscript, hwritten, hflushes, hwent⟩ := write_sends hfit out
  replace hdone : done = concluded fault s := hdone
  clear_value done smooth
  subst hdone
  generalize encode credential = frame at hwent
  cases hwent with
  | whole harmless =>
    have hresult : (concluded none s).1 = (out.flushes.headD none).elim (.ok ()) fun f => .error (.io f) := by
      rw [← hflushes]
      rfl
    refine ⟨sent, [], used, (List.append_nil _).symm, hwritten, hscript, ?_, fun _ => ⟨harmless, ?_⟩, nofun, htwins⟩
    · rw [hresult]
      cases out.flushes.headD none <;> simp
    · intro f hf
      rw [hresult, hf]
      rfl
  | @stopped _ rest front stop f harmless stops left =>
    refine ⟨sent, rest, front ++ [stop], rfl, hwritten, hscript, ?_, fun hnone => absurd hnone left,
      fun _ => ⟨front, stop, f, rfl, harmless, stops, rfl⟩, htwins⟩
    exact ⟨nofun, fun h => absurd h.1 left⟩

/-- A header in two pieces, an interruption between them, and a call that moves nothing after the first byte of the
credential. -/
theorem stopped_in_the_credential :
    let credential : Bytes := [97, 98, 99]
    let script : List Move := [.upTo 2, .fail (.os 4), .upTo 7, .upTo 1, .upTo 0, .upTo 9]
    let done := tried (write credential) { script }
    credential.length < UInt32.size ∧ done.2.written = [3, 0, 0, 0, 97] ∧
      done.1 = .error (.io .shortWrite) ∧ Fault.shortWrite.kind? = some .writeZero ∧
      (tried (write credential) { script := uninterrupted script }).1 = done.1 := by
  intro credential script done
  have hfit : credential.length < UInt32.size := by decide
  obtain ⟨sent, rest, used, -, -, -, -, -, -, hresult, -⟩ := writes_a_front hfit { script }
  exact ⟨hfit, by decide +kernel, rfl, rfl, hresult⟩

end Frame

end Uninterrupted

end ScreenLocker
