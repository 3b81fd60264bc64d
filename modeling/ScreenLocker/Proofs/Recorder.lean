import ScreenLocker.Compositor.Recorder
import ScreenLocker.Proofs.Op

/-! The record that a compositor keeps of what it is asked. Calls are only ever added at its end; an
operation is bounded by the kind of calls it adds. -/

namespace ScreenLocker

namespace Recorder

/-- Calls were added, and every one of them is such that `P`. -/
def Adds (P : Call → Prop) (r r' : Recorder) : Prop :=
  ∃ new, r'.calls = r.calls ++ new ∧ ∀ call ∈ new, P call

variable {P Q : Call → Prop}

instance : Std.Refl (Adds P) := ⟨fun r => ⟨[], (List.append_nil _).symm, by simp⟩⟩

theorem Adds.trans {a b c : Recorder} (hab : Adds P a b) (hbc : Adds P b c) : Adds P a c := by
  obtain ⟨first, hb, hfirst⟩ := hab
  obtain ⟨second, hc, hsecond⟩ := hbc
  refine ⟨first ++ second, by rw [hc, hb, List.append_assoc], ?_⟩
  intro call hcall
  rcases List.mem_append.mp hcall with hcall | hcall
  · exact hfirst call hcall
  · exact hsecond call hcall

instance : Trans (Adds P) (Adds P) (Adds P) := ⟨Adds.trans⟩

theorem Adds.mono {r r' : Recorder} (h : Adds P r r') (hle : ∀ call, P call → Q call) :
    Adds Q r r' := by
  obtain ⟨new, hcalls, hnew⟩ := h
  exact ⟨new, hcalls, fun call hcall => hle call (hnew call hcall)⟩

/-- A request that may be refused is written down as it is answered. -/
theorem tried_ask (request : Request) (r : Recorder) :
    (∃ armed,
      tried (ask request) r = (.ok (), { r with armed, calls := r.calls ++ [⟨request, true⟩] })) ∨
    ∃ e armed, tried (ask request) r =
      (.error e, { r with armed, calls := r.calls ++ [⟨request, false⟩] }) := by
  cases htrigger : trigger request.name r.armed with
  | mk failure armed =>
  cases failure with
  | none => exact .inl ⟨armed, by simp [ask, htrigger]⟩
  | some e => exact .inr ⟨e, armed, by simp [ask, htrigger]⟩

theorem adds_ask (request : Request) (h : ∀ granted, P ⟨request, granted⟩) :
    Within (Adds P) (ask request).run := by
  intro r
  rw [outcome_run]
  rcases tried_ask request r with ⟨armed, hask⟩ | ⟨e, armed, hask⟩
  · rw [hask]
    exact ⟨_, rfl, by simp [h]⟩
  · rw [hask]
    exact ⟨_, rfl, by simp [h]⟩

theorem adds_note (request : Request) (h : P ⟨request, true⟩) : Within (Adds P) (note request) :=
  fun r => ⟨_, rfl, by simp [h]⟩

end Recorder

/-- Calls that neither get the lock nor give it back nor cover an output. -/
def Call.Plain (call : Call) : Prop :=
  match call.request with
  | .requestLock | .createSurface .. | .unlock | .abandon => False
  | _ => True

/-- Calls that neither get the lock nor give it back. -/
def Call.Covering (call : Call) : Prop :=
  match call.request with
  | .requestLock | .unlock | .abandon => False
  | _ => True

theorem Call.Plain.covering {call : Call} (h : call.Plain) : call.Covering := by
  obtain ⟨request, granted⟩ := call
  cases request <;> first | exact h.elim | trivial

theorem Call.Covering.not_unlock {call : Call} (h : call.Covering) : call.request ≠ .unlock := by
  intro hunlock
  rw [Call.Covering, hunlock] at h
  exact h

/-- The lock was granted. -/
def Call.locks (call : Call) : Bool := call.request = .requestLock && call.granted

/-- The lock was given back, with or without unlocking the session. -/
def Call.releases (call : Call) : Bool := call.request = .unlock || call.request = .abandon

def Call.covers (call : Call) : Bool := call.request matches .createSurface ..

end ScreenLocker
