import Mathlib.Data.List.Nodup
import ScreenLocker.Proofs.Recorder

/-! Handles by the book. What is written down is each output that is handed over and each call, in
order; from that alone it can be told which outputs and surfaces are still out. Surfaces are numbered
as they are granted. Outputs may look alike, so they are counted; those that are all different are
each released once and not named afterwards. -/

namespace ScreenLocker

/-- A member of a longer list is the last one, or was there before. -/
theorem mem_snoc_cases {α : Type} {l pre post : List α} {last x : α}
    (h : l ++ [last] = pre ++ x :: post) :
    (pre = l ∧ x = last) ∨ ∃ rest, post = rest ++ [last] ∧ l = pre ++ x :: rest := by
  rcases List.eq_nil_or_concat post with rfl | ⟨rest, y, rfl⟩
  · obtain ⟨rfl, hlast⟩ := List.append_inj' h rfl
    exact .inl ⟨rfl, (List.singleton_inj.mp hlast).symm⟩
  · rw [List.concat_eq_append, ← List.cons_append, ← List.append_assoc] at h
    obtain ⟨hl, hlast⟩ := List.append_inj' h rfl
    exact .inr ⟨rest, by rw [List.concat_eq_append, List.singleton_inj.mp hlast], hl⟩

/-- What holds of each member of a list in view of those before it, and of one more in view of all,
holds of each member of the longer list. -/
theorem everywhere_snoc {α : Type} {P : List α → α → Prop} {l : List α} {last : α}
    (h : ∀ pre x post, l = pre ++ x :: post → P pre x) (hlast : P l last) :
    ∀ pre x post, l ++ [last] = pre ++ x :: post → P pre x := by
  intro pre x post hsplit
  rcases mem_snoc_cases hsplit with ⟨rfl, rfl⟩ | ⟨rest, -, hl⟩
  · exact hlast
  · exact h pre x rest hl

namespace Call

/-- The output whose handle is given up. -/
def released? (call : Call) : Option Nat :=
  match call.request with
  | .releaseOutput output => some output
  | _ => none

/-- The surface that is destroyed. -/
def destroyed? (call : Call) : Option Nat :=
  match call.request with
  | .destroySurface surface => some surface
  | _ => none

/-- The output for which a surface is granted. -/
def granted? (call : Call) : Option Nat :=
  match call with
  | ⟨.createSurface _ output, true⟩ => some output
  | _ => none

/-- The number of the output for which a surface is granted. -/
def grantedTo? (call : Call) : Option OutputId :=
  match call with
  | ⟨.createSurface id _, true⟩ => some id
  | _ => none

/-- The output that the call names. -/
def output? (call : Call) : Option Nat :=
  match call.request with
  | .createSurface _ output | .releaseOutput output => some output
  | _ => none

/-- The surface that the call names. -/
def surface? (call : Call) : Option Nat :=
  match call.request with
  | .acknowledge surface _ | .present surface _ | .destroySurface surface => some surface
  | _ => none

end Call

namespace Ledger

inductive Mark where
  | received (output : Nat)
  | asked (call : Call)

def calls (log : List Mark) : List Call :=
  log.filterMap fun | .asked call => some call | .received _ => none

/-- The outputs handed over. -/
def received (log : List Mark) : List Nat :=
  log.filterMap fun | .received output => some output | .asked _ => none

def released (calls : List Call) : List Nat := calls.filterMap Call.released?

def destroyed (calls : List Call) : List Nat := calls.filterMap Call.destroyed?

/-- What surfaces are granted for, as the calls tell it, each before its surface; they are numbered from
`first`. -/
def grants {α : Type} (what : Call → Option α) (first : Nat) (calls : List Call) : List (α × Nat) :=
  (calls.filterMap what).zipIdx first

/-- The surfaces granted, each after the output that it was made for. -/
abbrev made : Nat → List Call → List (Nat × Nat) := grants Call.granted?

/-- The surfaces granted, each after the number of its output. -/
abbrev madeFor : Nat → List Call → List (OutputId × Nat) := grants Call.grantedTo?

/-- The surfaces that have not been destroyed. -/
def opened (first : Nat) (calls : List Call) : List (Nat × Nat) :=
  (made first calls).filter fun m => m.2 ∉ destroyed calls

/-- How many surfaces are open on outputs like this one. -/
def openOn (first : Nat) (calls : List Call) (output : Nat) : Nat :=
  (opened first calls).countP fun m => m.1 = output

/-- A call names a surface that is open, and an output that is out with no surface open on it. -/
def Permitted (first : Nat) (log : List Mark) (call : Call) : Prop :=
  (∀ surface, call.surface? = some surface → surface ∈ (opened first (calls log)).map Prod.snd) ∧
  ∀ output, call.output? = some output →
    openOn first (calls log) output + (released (calls log)).count output < (received log).count output

section Grants

variable {α : Type} {what : Call → Option α} (first : Nat) (cs cs' : List Call)

theorem grants_append :
    grants what first (cs ++ cs') =
      grants what first cs ++ grants what (first + (grants what first cs).length) cs' := by
  simp [grants, List.zipIdx_append]

/-- Calls by which nothing is granted. -/
theorem grants_same (h : ∀ c ∈ cs', what c = none) :
    grants what first (cs ++ cs') = grants what first cs := by
  rw [grants, List.filterMap_append, List.filterMap_eq_nil_iff.mpr h, List.append_nil]
  rfl

theorem grants_nodup : ((grants what first cs).map Prod.snd).Nodup := by
  rw [grants, List.zipIdx_map_snd]
  exact List.nodup_range' 1

theorem grants_lt {g : α × Nat} (h : g ∈ grants what first cs) :
    g.2 < first + (grants what first cs).length := by
  have := List.snd_lt_of_mem_zipIdx h
  simp only [grants, List.length_zipIdx]
  omega

/-- What was granted stays granted, whatever is called afterwards. -/
theorem grants_subset {cs cs' : List Call} (h : cs <+: cs') :
    grants what first cs ⊆ grants what first cs' := by
  obtain ⟨new, rfl⟩ := h
  rw [grants_append]
  exact List.subset_append_left ..

/-- A surface is granted once. -/
theorem grants_unique {a a' : α} {surface : Nat} (h : (a, surface) ∈ grants what first cs)
    (h' : (a', surface) ∈ grants what first cs) : a = a' := by
  obtain ⟨-, -, ha⟩ := List.mem_zipIdx h
  obtain ⟨-, -, ha'⟩ := List.mem_zipIdx h'
  exact ha.trans ha'.symm

end Grants

section Logs

variable (first : Nat) (log log' : List Mark) (cs : List Call) (call : Call)

theorem calls_append : calls (log ++ log') = calls log ++ calls log' := List.filterMap_append

theorem received_append : received (log ++ log') = received log ++ received log' :=
  List.filterMap_append

theorem calls_asked : calls (cs.map .asked) = cs := by
  induction cs with
  | nil => rfl
  | cons c cs ih => exact congrArg (c :: ·) ih

theorem calls_snoc : calls (log ++ [.asked call]) = calls log ++ [call] := calls_append log _

theorem received_snoc : received (log ++ [.asked call]) = received log := by simp [received]

theorem released_snoc : released (cs ++ [call]) = released cs ++ call.released?.toList := by
  cases h : call.released? <;> simp [released, h]

theorem destroyed_snoc : destroyed (cs ++ [call]) = destroyed cs ++ call.destroyed?.toList := by
  cases h : call.destroyed? <;> simp [destroyed, h]

/-- Each surface is granted for an output, and that has a number. -/
theorem length_madeFor : (madeFor first cs).length = (made first cs).length := by
  have hsame (c : Call) : c.grantedTo?.isSome = c.granted?.isSome := by
    obtain ⟨request, granted⟩ := c
    cases request <;> cases granted <;> rfl
  simp only [grants, List.length_zipIdx, List.length_filterMap_eq_countP, hsame]

theorem made_snoc (h : call.granted? = none) : made first (cs ++ [call]) = made first cs :=
  grants_same first cs [call] (by simpa using h)

end Logs

/-- The books over `log` are in order, and say that these outputs and these surfaces are out. -/
structure Custody (first : Nat) (log : List Mark) (outputs : List Nat)
    (surfaces : List (Nat × Nat)) : Prop where
  outputs : (received log).Perm (outputs ++ released (calls log))
  surfaces : (opened first (calls log)).Perm surfaces
  once : (destroyed (calls log)).Nodup
  known : ∀ s ∈ destroyed (calls log), s ∈ (made first (calls log)).map Prod.snd
  lawful : ∀ pre call post, log = pre ++ .asked call :: post → Permitted first pre call

namespace Custody

variable {first : Nat} {log : List Mark} {outputs outputs' : List Nat}
  {surfaces surfaces' : List (Nat × Nat)}

theorem empty (first : Nat) : Custody first [] [] [] :=
  ⟨.refl _, .refl _, List.nodup_nil, by simp [calls, destroyed], by simp⟩

theorem perm (h : Custody first log outputs surfaces) (houtputs : outputs.Perm outputs')
    (hsurfaces : surfaces.Perm surfaces') : Custody first log outputs' surfaces' :=
  ⟨h.outputs.trans (houtputs.append_right _), h.surfaces.trans hsurfaces, h.once, h.known, h.lawful⟩

/-- Only the last mark of a longer log can be one that was not permitted before. -/
theorem lawful_snoc (h : Custody first log outputs surfaces) {mark : Mark}
    (hlast : ∀ call, mark = .asked call → Permitted first log call) :
    ∀ pre call post, log ++ [mark] = pre ++ .asked call :: post → Permitted first pre call := by
  intro pre call post hsplit
  refine everywhere_snoc (P := fun pre mark => ∀ call, mark = .asked call → Permitted first pre call)
    ?_ hlast pre _ post hsplit call rfl
  rintro pre _ post hsplit call rfl
  exact h.lawful pre call post hsplit

theorem receive (h : Custody first log outputs surfaces) (output : Nat) :
    Custody first (log ++ [.received output]) (output :: outputs) surfaces where
  outputs := by
    have hsame : calls (log ++ [.received output]) = calls log := by simp [calls]
    have hmore : received (log ++ [.received output]) = received log ++ [output] := by simp [received]
    rw [hsame, hmore]
    exact (List.perm_append_singleton _ _).trans (h.outputs.cons output)
  surfaces := by simpa [calls] using h.surfaces
  once := by simpa [calls] using h.once
  known := by simpa [calls] using h.known
  lawful := h.lawful_snoc (by simp)

/-- A call that neither makes nor ends a handle. -/
theorem use (h : Custody first log outputs surfaces) {call : Call} (hcall : Permitted first log call)
    (hgranted : call.granted? = none) (hdestroyed : call.destroyed? = none)
    (hreleased : call.released? = none) : Custody first (log ++ [.asked call]) outputs surfaces := by
  have hmade := made_snoc first (calls log) call hgranted
  have hgone : destroyed (calls log ++ [call]) = destroyed (calls log) := by
    simp [destroyed_snoc, hdestroyed]
  refine ⟨?_, ?_, ?_, ?_, h.lawful_snoc fun _ heq => Mark.asked.inj heq ▸ hcall⟩
  · rw [received_snoc, calls_snoc, released_snoc, hreleased]
    simpa using h.outputs
  · rw [calls_snoc, opened, hmade, hgone]
    exact h.surfaces
  · rw [calls_snoc, hgone]
    exact h.once
  · rw [calls_snoc, hgone, hmade]
    exact h.known

/-- The next surface is made for an output. -/
theorem make (h : Custody first log outputs surfaces) (id : OutputId) (output : Nat)
    (hcall : Permitted first log ⟨.createSurface id output, true⟩) :
    Custody first (log ++ [.asked ⟨.createSurface id output, true⟩]) outputs
      ((output, first + (made first (calls log)).length) :: surfaces) := by
  let call : Call := ⟨.createSurface id output, true⟩
  let new := first + (made first (calls log)).length
  have hmade : made first (calls log ++ [call]) = made first (calls log) ++ [(output, new)] :=
    grants_append ..
  have hgone : destroyed (calls log ++ [call]) = destroyed (calls log) := by
    simp [destroyed_snoc, Call.destroyed?, call]
  have hnew : new ∉ destroyed (calls log) := by
    intro hmem
    obtain ⟨m, hm, hsame⟩ := List.mem_map.mp (h.known new hmem)
    exact absurd hsame (Nat.ne_of_lt (grants_lt first _ hm))
  refine ⟨?_, ?_, ?_, ?_, h.lawful_snoc fun _ heq => Mark.asked.inj heq ▸ hcall⟩
  · rw [received_snoc, calls_snoc, released_snoc]
    simpa [Call.released?] using h.outputs
  · rw [calls_snoc, opened, hmade, hgone, List.filter_append]
    simp only [List.filter_cons, List.filter_nil, hnew, not_false_eq_true, decide_true, if_true]
    exact (List.perm_append_singleton _ _).trans (h.surfaces.cons _)
  · rw [calls_snoc, hgone]
    exact h.once
  · rw [calls_snoc, hgone, hmade]
    intro s hs
    rw [List.map_append]
    exact List.mem_append_left _ (h.known s hs)

/-- A surface that is out can be destroyed. -/
theorem destroy {output surface : Nat} (h : Custody first log outputs ((output, surface) :: surfaces)) :
    Custody first (log ++ [.asked ⟨.destroySurface surface, true⟩]) outputs surfaces := by
  let call : Call := ⟨.destroySurface surface, true⟩
  have hmade := made_snoc first (calls log) call rfl
  have hgone : destroyed (calls log ++ [call]) = destroyed (calls log) ++ [surface] := by
    simp [destroyed_snoc, Call.destroyed?, call]
  have hopen : (output, surface) ∈ opened first (calls log) := h.surfaces.mem_iff.mpr (by simp)
  obtain ⟨hmem, hnot⟩ := List.mem_filter.mp hopen
  have hnot : surface ∉ destroyed (calls log) := by simpa using hnot
  have hapart : ((opened first (calls log)).map Prod.snd).Nodup :=
    (grants_nodup first (calls log)).sublist (List.filter_sublist.map _)
  have hrest : ∀ m ∈ surfaces, m.2 ≠ surface := by
    rw [(h.surfaces.map Prod.snd).nodup_iff, List.map_cons, List.nodup_cons] at hapart
    exact fun m hm heq => hapart.1 (List.mem_map.mpr ⟨m, hm, heq⟩)
  have hcall : Permitted first log call := by
    refine ⟨fun s hs => ?_, by simp [Call.output?, call]⟩
    obtain rfl : surface = s := by simpa [Call.surface?, call] using hs
    exact List.mem_map_of_mem hopen
  refine ⟨?_, ?_, ?_, ?_, h.lawful_snoc fun _ heq => Mark.asked.inj heq ▸ hcall⟩
  · rw [received_snoc, calls_snoc, released_snoc]
    simpa [Call.released?, call] using h.outputs
  · have hfilter : opened first (calls log ++ [call]) =
        (opened first (calls log)).filter fun m => m.2 ≠ surface := by
      rw [opened, opened, hmade, hgone, List.filter_filter]
      refine List.filter_congr fun m _ => ?_
      simp [and_comm]
    rw [calls_snoc, hfilter]
    refine (h.surfaces.filter _).trans ?_
    rw [List.filter_cons_of_neg (by simp), List.filter_eq_self.mpr fun m hm => by simpa using hrest m hm]
  · rw [calls_snoc, hgone]
    exact (List.perm_append_singleton _ _).nodup_iff.mpr (List.nodup_cons.mpr ⟨hnot, h.once⟩)
  · rw [calls_snoc, hgone, hmade]
    intro s hs
    rcases List.mem_append.mp hs with hs | hs
    · exact h.known s hs
    · obtain rfl := List.mem_singleton.mp hs
      exact List.mem_map_of_mem hmem

theorem openOn_eq (h : Custody first log outputs surfaces) (output : Nat) :
    openOn first (calls log) output = surfaces.countP fun m => m.1 = output := h.surfaces.countP_eq _

/-- An output that is out, and has one to spare without a surface, may be named. -/
theorem may_name (h : Custody first log outputs surfaces) {call : Call}
    (hsurface : call.surface? = none)
    (hroom : ∀ output, call.output? = some output →
      (surfaces.countP fun m => m.1 = output) < outputs.count output) : Permitted first log call := by
  refine ⟨by simp [hsurface], fun output houtput => ?_⟩
  rw [h.openOn_eq, h.outputs.count_eq, List.count_append]
  have := hroom output houtput
  omega

/-- An output without a surface can be released. -/
theorem release {output : Nat} (h : Custody first log (output :: outputs) surfaces)
    (hroom : (surfaces.countP fun m => m.1 = output) < (output :: outputs).count output) :
    Custody first (log ++ [.asked ⟨.releaseOutput output, true⟩]) outputs surfaces := by
  let call : Call := ⟨.releaseOutput output, true⟩
  have hcall : Permitted first log call :=
    h.may_name rfl fun o ho => by
      obtain rfl : output = o := by simpa [Call.output?, call] using ho
      exact hroom
  have hmade := made_snoc first (calls log) call rfl
  have hgone : destroyed (calls log ++ [call]) = destroyed (calls log) := by
    simp [destroyed_snoc, Call.destroyed?, call]
  refine ⟨?_, ?_, ?_, ?_, h.lawful_snoc fun _ heq => Mark.asked.inj heq ▸ hcall⟩
  · have hreleased : released (calls log ++ [call]) = released (calls log) ++ [output] := by
      simp [released_snoc, Call.released?, call]
    rw [received_snoc, calls_snoc, hreleased, ← List.append_assoc]
    refine h.outputs.trans ?_
    exact (List.perm_append_singleton _ _).symm
  · rw [calls_snoc, opened, hmade, hgone]
    exact h.surfaces
  · rw [calls_snoc, hgone]
    exact h.once
  · rw [calls_snoc, hgone, hmade]
    exact h.known

/-- Every surface that was made is still open or has been destroyed. -/
theorem balance (h : Custody first log outputs surfaces) :
    ((made first (calls log)).map Prod.snd).Perm (surfaces.map Prod.snd ++ destroyed (calls log)) := by
  let gone := (made first (calls log)).filter fun m => !decide (m.2 ∉ destroyed (calls log))
  have hsplit : (opened first (calls log) ++ gone).Perm (made first (calls log)) :=
    List.filter_append_perm _ _
  have hgone : (gone.map Prod.snd).Perm (destroyed (calls log)) := by
    have hnodup : (gone.map Prod.snd).Nodup :=
      (grants_nodup first (calls log)).sublist (List.filter_sublist.map _)
    refine (List.perm_ext_iff_of_nodup hnodup h.once).mpr fun s => ⟨fun hs => ?_, fun hs => ?_⟩
    · obtain ⟨m, hm, rfl⟩ := List.mem_map.mp hs
      simpa using (List.mem_filter.mp hm).2
    · obtain ⟨m, hm, rfl⟩ := List.mem_map.mp (h.known s hs)
      exact List.mem_map_of_mem (List.mem_filter.mpr ⟨hm, by simpa using hs⟩)
  refine (hsplit.map Prod.snd).symm.trans ?_
  rw [List.map_append]
  exact (h.surfaces.map Prod.snd).append hgone

/-- Where no two outputs look alike, a call names one that is out and whose surfaces are destroyed. -/
theorem distinct (h : Custody first log outputs surfaces) (hdistinct : (received log).Nodup) :
    (released (calls log)).Nodup ∧
    ∀ pre call post, log = pre ++ .asked call :: post → ∀ output, call.output? = some output →
      output ∈ received pre ∧ output ∉ released (calls pre) ∧
      ∀ surface, (output, surface) ∈ made first (calls pre) → surface ∈ destroyed (calls pre) := by
  refine ⟨(List.nodup_append.mp (h.outputs.nodup_iff.mp hdistinct)).2.1, ?_⟩
  intro pre call post hsplit output houtput
  have hroom := (h.lawful pre call post hsplit).2 output houtput
  have hone : (received pre).count output ≤ 1 := by
    have hle := List.nodup_iff_count_le_one.mp hdistinct output
    rw [hsplit, received_append, List.count_append] at hle
    omega
  refine ⟨List.count_pos_iff.mp (by omega), List.count_eq_zero.mp (by omega), fun surface hmade => ?_⟩
  by_contra hopen
  have hpos : 0 < openOn first (calls pre) output :=
    List.countP_pos_iff.mpr
      ⟨(output, surface), List.mem_filter.mpr ⟨hmade, by simpa using hopen⟩, by simp⟩
  omega

end Custody

end Ledger

end ScreenLocker
