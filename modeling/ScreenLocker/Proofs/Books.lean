import ScreenLocker.Proofs.Acts
import ScreenLocker.Proofs.Ledger

/-! The table of outputs against the books. Whatever is done for the outputs, the handles that the
entries hold are those that are out by the record of the calls. It follows that no two entries share a
surface. -/

namespace ScreenLocker

open Act (Does Turns)
open Ledger (Mark Custody Permitted made opened)

/-- A call for the lock names no handle, and none comes or goes with it. -/
theorem Call.ForLock.nameless {call : Call} (h : call.ForLock) :
    call.surface? = none ∧ call.output? = none ∧ call.granted? = none ∧ call.destroyed? = none ∧
    call.released? = none := by
  obtain ⟨request, granted⟩ := call
  cases request <;> first | exact h.elim | exact ⟨rfl, rfl, rfl, rfl, rfl⟩

/-- An act as it is written down. -/
def Act.marks : Act → List Mark
  | .received _ output => [.received output]
  | a => a.calls.map .asked

theorem Act.marks_eq {a : Act} (h : ¬ a.Receives) : a.marks = a.calls.map .asked := by
  cases a with
  | received id output => exact absurd ⟨id, output, rfl⟩ h
  | _ => rfl

namespace Outputs

/-- The outputs that the entries hold. -/
def held (entries : List Screen) : List Nat := entries.map (·.output)

/-- The surfaces that the entries hold, each after its output. -/
def showing (entries : List Screen) : List (Nat × Nat) :=
  entries.filterMap fun e => e.surface.map fun surface => (e.output, surface)

theorem held_append (pre post : List Screen) : held (pre ++ post) = held pre ++ held post :=
  List.map_append

theorem showing_append (pre post : List Screen) : showing (pre ++ post) = showing pre ++ showing post :=
  List.filterMap_append

theorem showing_none {e : Screen} (h : e.surface = none) (post : List Screen) :
    showing (e :: post) = showing post := by
  simp [showing, h]

theorem showing_some {e : Screen} {surface : Nat} (h : e.surface = some surface) (post : List Screen) :
    showing (e :: post) = (e.output, surface) :: showing post := by
  simp [showing, h]

theorem showing_snd (entries : List Screen) :
    (showing entries).map Prod.snd = entries.filterMap (·.surface) := by
  induction entries with
  | nil => rfl
  | cons e rest ih =>
    cases hsurface : e.surface with
    | none => rw [showing_none hsurface, ih, List.filterMap_cons_none hsurface]
    | some surface =>
      rw [showing_some hsurface, List.map_cons, ih, List.filterMap_cons_some hsurface]

theorem mem_showing {entries : List Screen} {e : Screen} (he : e ∈ entries) {surface : Nat}
    (h : e.surface = some surface) : (e.output, surface) ∈ showing entries :=
  List.mem_filterMap.mpr ⟨e, he, by rw [h]; rfl⟩

/-- An output holds at most one surface. -/
theorem showing_le (entries : List Screen) (output : Nat) :
    ((showing entries).countP fun m => m.1 = output) ≤ (held entries).count output := by
  induction entries with
  | nil => exact Nat.le_refl _
  | cons e rest ih =>
    cases hsurface : e.surface with
    | none =>
      rw [showing_none hsurface]
      exact Nat.le_trans ih (List.count_le_count_cons ..)
    | some surface =>
      rw [showing_some hsurface, held, List.map_cons, List.countP_cons, List.count_cons]
      simp only [held, beq_iff_eq, decide_eq_true_eq] at ih ⊢
      omega

/-- An entry without a surface leaves its output free for one. -/
theorem showing_lt {pre post : List Screen} {e : Screen} (h : e.surface = none) :
    ((showing (pre ++ e :: post)).countP fun m => m.1 = e.output) <
      (held (pre ++ e :: post)).count e.output := by
  have hpre := showing_le pre e.output
  have hpost := showing_le post e.output
  rw [showing_append, showing_none h, held_append, List.countP_append, List.count_append]
  have hself : (held (e :: post)).count e.output = (held post).count e.output + 1 := by simp [held]
  omega

end Outputs

open Outputs (held showing)

/-- The books are in order, and agree with the table and with the record. -/
structure Books (first : Nat) (log : List Mark) (s : Scene) : Prop where
  calls : Ledger.calls log = s.2.calls
  next : s.2.nextHandle = first + (made first s.2.calls).length
  custody : Custody first log (held s.1.entries) (showing s.1.entries)
  /-- Without a surface there was nothing to acknowledge. -/
  bare : ∀ e ∈ s.1.entries, e.surface = none → e.configured = false

namespace Books

variable {first : Nat} {log : List Mark} {s : Scene}

theorem empty (armed : List ArmedFailure) (first : Nat) :
    Books first [] (⟨[]⟩, { armed, nextHandle := first }) :=
  ⟨rfl, rfl, .empty first, by simp⟩

theorem made (h : Books first log s) {e : Screen} (he : e ∈ s.1.entries) {surface : Nat}
    (hsurface : e.surface = some surface) : (e.output, surface) ∈ made first s.2.calls := by
  have hopen := h.custody.surfaces.mem_iff.mpr (Outputs.mem_showing he hsurface)
  exact h.calls ▸ (List.mem_filter.mp hopen).1

/-- No other entry holds the surface of this one. -/
theorem apart {pre post : List Screen} {e : Screen} {r : Recorder}
    (h : Books first log (⟨pre ++ e :: post⟩, r)) {surface : Nat} (hsurface : e.surface = some surface) :
    ∀ x ∈ pre ++ post, x.surface ≠ some surface := by
  have hopen : ((opened first (Ledger.calls log)).map Prod.snd).Nodup :=
    (Ledger.grants_nodup first _).sublist (List.filter_sublist.map _)
  have hnodup := (h.custody.surfaces.map Prod.snd).nodup_iff.mp hopen
  rw [Outputs.showing_append, Outputs.showing_some hsurface, List.map_append, List.map_cons,
    List.nodup_middle, List.nodup_cons, ← List.map_append, ← Outputs.showing_append] at hnodup
  intro x hx hsame
  exact hnodup.1 (List.mem_map.mpr ⟨_, Outputs.mem_showing hx hsame, rfl⟩)

theorem surface_permitted (h : Books first log s) {e : Screen} (he : e ∈ s.1.entries) {surface : Nat}
    (hsurface : e.surface = some surface) {call : Call} (hnames : call.surface? = some surface)
    (hother : call.output? = none) : Permitted first log call := by
  refine ⟨fun s' hs' => ?_, by simp [hother]⟩
  obtain rfl : surface = s' := Option.some.inj (hnames.symm.trans hs')
  have hopen := h.custody.surfaces.mem_iff.mpr (Outputs.mem_showing he hsurface)
  exact List.mem_map.mpr ⟨_, hopen, rfl⟩

/-- The handles of an entry that goes are given up, the surface first. -/
theorem released {pre post : List Screen} {e : Screen} {r : Recorder}
    (h : Books first log (⟨pre ++ e :: post⟩, r)) :
    Books first (log ++ e.farewell.map .asked) (⟨pre ++ post⟩, r.noting e.farewell) := by
  have hcalls : Ledger.calls (log ++ e.farewell.map .asked) = r.calls ++ e.farewell := by
    rw [Ledger.calls_append, Ledger.calls_asked, h.calls]
  have hmade : Ledger.made first (r.calls ++ e.farewell) = Ledger.made first r.calls := by
    refine Ledger.grants_same first r.calls _ fun call hcall => ?_
    unfold OutputEntry.farewell at hcall
    split at hcall
    · obtain rfl | rfl := by simpa using hcall
      · rfl
      · rfl
    · obtain rfl := by simpa using hcall
      rfl
  have hheld : (held (pre ++ e :: post)).Perm (e.output :: held (pre ++ post)) := by
    rw [Outputs.held_append, Outputs.held_append]
    exact List.perm_middle
  have hroom : ((showing (pre ++ post)).countP fun m => m.1 = e.output) <
      (e.output :: held (pre ++ post)).count e.output := by
    have hle := Outputs.showing_le (pre ++ post) e.output
    rw [List.count_cons_self]
    omega
  refine ⟨hcalls, ?_, ?_, (forall_mem_middle.mp h.bare).2⟩
  · exact h.next.trans (by rw [← hmade]; rfl)
  · cases hsurface : e.surface with
    | none =>
      have hshowing : showing (pre ++ e :: post) = showing (pre ++ post) := by
        rw [Outputs.showing_append, Outputs.showing_none hsurface, ← Outputs.showing_append]
      rw [OutputEntry.farewell, hsurface]
      exact (h.custody.perm hheld (hshowing ▸ .refl _)).release hroom
    | some surface =>
      have hshowing : (showing (pre ++ e :: post)).Perm
          ((e.output, surface) :: showing (pre ++ post)) := by
        rw [Outputs.showing_append, Outputs.showing_append, Outputs.showing_some hsurface]
        exact List.perm_middle
      have hboth := ((h.custody.perm hheld hshowing).destroy).release hroom
      rw [List.append_assoc] at hboth
      rw [OutputEntry.farewell, hsurface]
      exact hboth

theorem turned {a : Act} {e e' : Screen} {r r' : Recorder} {pre post : List Screen}
    (h : Books first log (⟨pre ++ e :: post⟩, r)) (turn : Turns a e r e' r') :
    Books first (log ++ a.calls.map .asked) (⟨pre ++ e' :: post⟩, r') := by
  have he : e ∈ pre ++ e :: post := by simp
  have hheld : held (pre ++ e' :: post) = held (pre ++ e :: post) := by
    simp [Outputs.held, turn.same.2]
  have hcalls : Ledger.calls (log ++ a.calls.map .asked) = r'.calls := by
    rw [Ledger.calls_append, Ledger.calls_asked, h.calls, turn.calls]
  have hshowing (hsurface : e'.surface = e.surface) :
      showing (pre ++ e' :: post) = showing (pre ++ e :: post) := by
    unfold showing
    rw [List.filterMap_append, List.filterMap_append, List.filterMap_cons, List.filterMap_cons, hsurface,
      turn.same.2]
  have hbare (hsurface : e'.surface = none → e'.configured = false) :
      ∀ x ∈ pre ++ e' :: post, x.surface = none → x.configured = false :=
    forall_mem_middle.mpr ⟨hsurface, (forall_mem_middle.mp h.bare).2⟩
  cases turn with
  | updated =>
    obtain ⟨-, -, hsurface, hconfigured, -⟩ := e.update_keeps ‹_›
    refine ⟨hcalls, h.next, ?_, hbare fun hnone => ?_⟩
    · rw [hheld, hshowing hsurface]
      simpa [Act.calls] using h.custody
    · rw [hconfigured]
      exact h.bare e he (hsurface ▸ hnone)
  | damaged =>
    refine ⟨hcalls, h.next, ?_, hbare (h.bare e he)⟩
    rw [hheld, hshowing rfl]
    simpa [Act.calls] using h.custody
  | covered armed ready bare =>
    have hpermitted : Permitted first log ⟨.createSurface e.id e.output, true⟩ :=
      h.custody.may_name rfl fun o ho => by
        obtain rfl : e.output = o := by simpa [Call.output?] using ho
        exact Outputs.showing_lt bare
    have hmade := h.custody.make e.id e.output hpermitted
    rw [h.calls, ← h.next] at hmade
    refine ⟨hcalls, ?_, hmade.perm (hheld ▸ .refl _) ?_, hbare (by simp)⟩
    · have hlength : (Ledger.made first (r.calls ++ [⟨.createSurface e.id e.output, true⟩])).length =
          (Ledger.made first r.calls).length + 1 := by
        rw [Ledger.made, Ledger.grants_append, List.length_append]
        rfl
      have hnext := h.next
      simp only [Recorder.answering] at hnext ⊢
      rw [hlength, hnext, Nat.add_assoc]
    · rw [Outputs.showing_append, Outputs.showing_append, Outputs.showing_none bare]
      exact List.perm_middle.symm
  | uncovered armed ready bare =>
    have hpermitted : Permitted first log ⟨.createSurface e.id e.output, false⟩ :=
      h.custody.may_name rfl fun o ho => by
        obtain rfl : e.output = o := by simpa [Call.output?] using ho
        exact Outputs.showing_lt bare
    refine ⟨hcalls, h.next.trans ?_, ?_, h.bare⟩
    · rw [Recorder.answering, Ledger.made_snoc first r.calls _ rfl]
    · exact h.custody.use hpermitted rfl rfl rfl
  | configured c hsurface =>
    refine ⟨hcalls, h.next.trans ?_, ?_, hbare fun hnone => ?_⟩
    · rw [Recorder.noting, Ledger.made_snoc first r.calls _ rfl]
    · rw [hheld, hshowing rfl]
      exact h.custody.use (h.surface_permitted he hsurface rfl rfl) rfl rfl rfl
    · exact absurd (hsurface.symm.trans hnone) (by simp)
  | painted armed hsurface =>
    refine ⟨hcalls, h.next.trans ?_, ?_, hbare (h.bare e he)⟩
    · rw [Recorder.answering, Ledger.made_snoc first r.calls _ rfl]
    · rw [hheld, hshowing rfl]
      exact h.custody.use (h.surface_permitted he hsurface rfl rfl) rfl rfl rfl
  | unpainted armed hsurface =>
    refine ⟨hcalls, h.next.trans ?_, ?_, h.bare⟩
    · rw [Recorder.answering, Ledger.made_snoc first r.calls _ rfl]
    · exact h.custody.use (h.surface_permitted he hsurface rfl rfl) rfl rfl rfl

/-- A call for the lock names no handle. -/
theorem asked {call : Call} (h : Books first log s) (hlock : call.ForLock) (armed : List ArmedFailure) :
    Books first (log ++ [.asked call]) (s.1, s.2.answering call armed) := by
  obtain ⟨hsurface, houtput, hgranted, hdestroyed, hreleased⟩ := hlock.nameless
  refine ⟨?_, h.next.trans ?_, ?_, h.bare⟩
  · rw [Ledger.calls_snoc, h.calls]
    rfl
  · rw [Recorder.answering, Ledger.made_snoc first s.2.calls _ hgranted]
  · exact h.custody.use ⟨by simp [hsurface], by simp [houtput]⟩ hgranted hdestroyed hreleased

/-- Every act is written down. -/
theorem done {a : Act} {s' : Scene} (h : Books first log s) (hdoes : Does a s s') :
    Books first (log ++ a.marks) s' := by
  cases hdoes with
  | received pre post r id output =>
    have hheld : (output :: held (pre ++ post)).Perm (held (pre ++ { id, output } :: post)) := by
      rw [Outputs.held_append, Outputs.held_append]
      exact List.perm_middle.symm
    have hshowing : showing (pre ++ post) = showing (pre ++ { id, output } :: post) := by
      rw [Outputs.showing_append, Outputs.showing_append, Outputs.showing_none rfl]
    refine ⟨?_, h.next, (h.custody.receive output).perm hheld (hshowing ▸ .refl _), ?_⟩
    · rw [Ledger.calls_append, h.calls]
      simp [Act.marks, Ledger.calls]
    · exact forall_mem_middle.mpr ⟨fun _ => rfl, h.bare⟩
  | released pre post r e => exact h.released
  | turned pre post turn =>
    rw [Act.marks_eq turn.not_receives]
    exact h.turned turn
  | asked t r armed hlock => exact h.asked hlock armed

theorem performed {acts : List Act} {s' : Scene} (h : Books first log s) (hacts : Performs acts s s') :
    Books first (log ++ acts.flatMap Act.marks) s' := by
  induction hacts generalizing log with
  | nil => simpa using h
  | cons hdoes _ ih =>
    have hlast := ih (h.done hdoes)
    rwa [List.append_assoc, ← List.flatMap_cons] at hlast

end Books

/-- But for the arrival of outputs, what is written down are the calls. -/
theorem Act.flatMap_marks {acts : List Act} (h : ∀ a ∈ acts, ¬ a.Receives) :
    acts.flatMap Act.marks = (acts.flatMap Act.calls).map .asked := by
  rw [List.map_flatMap]
  exact List.flatMap_congr fun a ha => Act.marks_eq (h a ha)

end ScreenLocker
