import ScreenLocker.Proofs.Locker

/-! Handles are used linearly. Whatever the locker goes through, every output handed to it and every
surface granted to it is either held by one entry or has been given up once, and no call names one that
has been given up. -/

namespace ScreenLocker.HandleUse

open Ledger (Mark received released destroyed made openOn)
open Locker

variable {σ : Type}

/-- The events that are to leave nothing held. -/
def Ends (m : Step σ) : Prop :=
  m.event = .shutdown ∨ m.event = .lock .finished ∧ m.before.session = .locked

variable [CredentialSink σ]

theorem emptied {e : Event σ} {c : RecordedCore σ} (h : Ends (Run.moment perform c e)) :
    (outcome (perform e) c).2.outputs.entries = [] := by
  rcases h with rfl | ⟨rfl, hlocked⟩
  · exact entries_shutdown c
  · exact entries_ended hlocked

/-- Outputs and surfaces are held or given up, each once; calls name only those that are out. An output
is named when a surface is wanted for it and when it is released, and at both times no surface is open
on it. Outputs that look alike are told apart by their number only: then there is always one more of
them out than there are surfaces open on them. -/
theorem handles_used_linearly (armed : List ArmedFailure) (nextHandle : Nat) (sink : σ)
    (buffer : SecureBuffer) (ignoreEmpty : Bool) (palette : Palette) (es : List (Event σ)) :
    let start : RecordedCore σ := Core.fresh { armed, nextHandle } sink buffer ignoreEmpty palette
    let ms : List (Step σ) := Run.moments perform es start
    let last := Run.final perform es start
    let log := ms.flatMap Step.marks
    let calls := last.backend.calls
    Ledger.calls log = calls ∧
    (received log).Perm (last.outputs.entries.map (·.output) ++ released calls) ∧
    ((made nextHandle calls).map Prod.snd).Perm
      (last.outputs.entries.filterMap (·.surface) ++ destroyed calls) ∧
    (destroyed calls).Nodup ∧
    (∀ e ∈ last.outputs.entries, ∀ surface, e.surface = some surface →
      (e.output, surface) ∈ made nextHandle calls) ∧
    (∀ pre call post, log = pre ++ .asked call :: post →
      (∀ surface, call.surface? = some surface →
        surface ∈ (made nextHandle (Ledger.calls pre)).map Prod.snd ∧
        surface ∉ destroyed (Ledger.calls pre)) ∧
      ∀ output, call.output? = some output →
        openOn nextHandle (Ledger.calls pre) output + (released (Ledger.calls pre)).count output <
          (received pre).count output) ∧
    ((received log).Nodup → (released calls).Nodup ∧
      ∀ pre call post, log = pre ++ .asked call :: post → ∀ output, call.output? = some output →
        output ∈ received pre ∧ output ∉ released (Ledger.calls pre) ∧
        ∀ surface, (output, surface) ∈ made nextHandle (Ledger.calls pre) →
          surface ∈ destroyed (Ledger.calls pre)) ∧
    ∀ m ∈ ms, Ends m → m.after.outputs.entries = [] := by
  intro start ms last log calls
  have hkept : Kept nextHandle ms last :=
    Run.holds_final (fun _ _ e h => h.next e) es
      (kept_fresh armed nextHandle sink buffer ignoreEmpty palette)
  obtain ⟨hbooks, -⟩ := hkept
  have hcalls : Ledger.calls log = calls := hbooks.calls
  have hcustody := hbooks.custody
  refine ⟨hcalls, ?_, ?_, ?_, fun e he surface => hbooks.made he, ?_, ?_, ?_⟩
  · exact hcalls ▸ hcustody.outputs
  · have hbalance := hcustody.balance
    rw [Outputs.showing_snd] at hbalance
    exact hcalls ▸ hbalance
  · exact hcalls ▸ hcustody.once
  · intro pre call post hsplit
    obtain ⟨hsurface, houtput⟩ := hcustody.lawful pre call post hsplit
    refine ⟨fun surface hnames => ?_, houtput⟩
    obtain ⟨m, hm, rfl⟩ := List.mem_map.mp (hsurface surface hnames)
    obtain ⟨hmade, hopen⟩ := List.mem_filter.mp hm
    exact ⟨List.mem_map_of_mem hmade, by simpa using hopen⟩
  · intro hdistinct
    obtain ⟨honce, hnamed⟩ := hcustody.distinct hdistinct
    exact ⟨hcalls ▸ honce, hnamed⟩
  · intro m hm hends
    rw [Run.eq_moment_of_mem hm] at hends ⊢
    exact emptied hends

end ScreenLocker.HandleUse
