import ScreenLocker.Proofs.BoundedBytes
import ScreenLocker.Proofs.Submissions

/-! How long a credential lasts. Only while the phase is `idle` can there be one; whatever ends an
attempt leaves a block of zeros, with nothing of it past the length either. -/

namespace ScreenLocker

namespace SecureBuffer

/-- Nothing is in the buffer, and nothing is left of what was. -/
def Blank (b : SecureBuffer) : Prop := b.length = 0 ∧ ∀ byte ∈ b.storage, byte = 0

theorem blank_wiped (b : SecureBuffer) : Blank b.wiped :=
  ⟨rfl, fun _ hbyte => List.eq_of_mem_replicate hbyte⟩

theorem sound_final {b : SecureBuffer} (h : Sound b) (es : List Event) :
    Sound (Run.final perform es b) :=
  Run.holds_final (P := fun _ b => Sound b) (fun _ _ e h => (lawful_perform h e).sound) es h

end SecureBuffer

namespace Auth

open SecureBuffer (Sound Blank)

variable {S : Type}

/-- A credential is there only while it is typed. -/
structure Lasting (a : Auth) : Prop where
  sound : Sound a.buffer
  blank : a.phase ≠ .idle → Blank a.buffer

/-- An attempt ends in this step: a submission reaches the sink, a verdict is accepted, or the
credential is to be cleared. -/
def Step.Ends (m : Step S) : Prop :=
  m.after.2.given ≠ m.before.2.given ∨ m.judges = true ∨ m.event = .input .clear

/-- An input that the sink does not hear of ends nothing, unless it asks for that. -/
theorem Step.not_ends {a a' : Auth} {w : Watched S} {event : Input}
    {answer : Except Error AuthOutcome} (h : event ≠ .clear) :
    ¬Step.Ends ⟨(a, w), .input event, answer, (a', w)⟩ := by
  simp [Step.Ends, Step.judges, h]

variable [CredentialSink S]

theorem lasting_perform {a : Auth} (h : Lasting a) (w : Watched S) (e : Event) :
    let m : Step S := Run.moment perform (a, w) e
    Lasting m.after.1 ∧ (m.Ends → Blank m.after.1.buffer) := by
  obtain ⟨hsound, hblank⟩ := h
  have hwiped : Sound a.buffer.wiped := SecureBuffer.sound_wiped hsound
  have hgone : Blank a.buffer.wiped := SecureBuffer.blank_wiped a.buffer
  intro m
  have hm : m = Run.moment perform (a, w) e := rfl
  have hmoved := moved_perform e a w
  rw [Run.moment] at hm
  rcases hstep : outcome (perform e) (a, w) with ⟨answer, after⟩
  rw [hstep] at hmoved hm
  rw [hm]
  cases hmoved with
  | ignored event busy =>
    have hbusy : Blank a.buffer := hblank (by simp [busy])
    exact ⟨⟨hsound, fun _ => hbusy⟩, fun _ => hbusy⟩
  | inserted bytes b quiet taken =>
    exact ⟨⟨SecureBuffer.sound_append hsound taken, fun hphase => absurd rfl hphase⟩,
      fun hends => absurd hends (Step.not_ends (by simp))⟩
  | dropped bytes err b quiet refused =>
    have hsame := SecureBuffer.append_refused hsound refused
    refine ⟨⟨SecureBuffer.sound_append hsound refused, fun hphase => ?_⟩, fun hends => ?_⟩
    · rw [hsame]
      exact hblank hphase
    · exact absurd hends (Step.not_ends (by simp))
  | erased =>
    exact ⟨⟨SecureBuffer.sound_cut hsound, fun hphase => absurd rfl hphase⟩,
      fun hends => absurd hends (Step.not_ends (by simp))⟩
  | emptied =>
    have hcut : Blank a.shortened.wiped := SecureBuffer.blank_wiped a.shortened
    exact ⟨⟨SecureBuffer.sound_wiped (SecureBuffer.sound_cut hsound), fun _ => hcut⟩, fun _ => hcut⟩
  | cleared => exact ⟨⟨hwiped, fun _ => hgone⟩, fun _ => hgone⟩
  | withheld => exact ⟨⟨hsound, hblank⟩, fun hends => absurd hends (Step.not_ends (by simp))⟩
  | sent => exact ⟨⟨hwiped, fun _ => hgone⟩, fun _ => hgone⟩
  | refused => exact ⟨⟨hwiped, fun _ => hgone⟩, fun _ => hgone⟩
  | accepted => exact ⟨⟨hwiped, fun _ => hgone⟩, fun _ => hgone⟩
  | rejected =>
    have htwice : Blank a.buffer.wiped.wiped := SecureBuffer.blank_wiped a.buffer.wiped
    exact ⟨⟨SecureBuffer.sound_wiped hwiped, fun _ => htwice⟩, fun _ => htwice⟩
  | unexpected v quiet =>
    exact ⟨⟨hsound, hblank⟩, fun hends => by simp [Step.Ends, Step.judges] at hends⟩

/-- Whatever the buffer went through before it was given to the attempts, no credential outlives its
own: short of `idle` the whole block is zero, it is so after every step that ends an attempt, and past
the credential it always is. -/
theorem no_credential_outlives_its_attempt {initial max : Nat} {memory : Memory}
    {fresh : SecureBuffer} (h : SecureBuffer.create initial max memory = .ok fresh)
    (edits : List SecureBuffer.Event) (sink : S) (ignoreEmpty : Bool) (es : List Event) :
    let buffer := Run.final SecureBuffer.perform edits fresh
    let start : Auth × Watched S := ({ buffer, ignoreEmpty }, { sink })
    let ms : List (Step S) := Run.moments perform es start
    let last := Run.final perform es start
    (∀ byte ∈ last.1.buffer.storage.drop last.1.buffer.length, byte = 0) ∧
    (last.1.phase = .validating ∨ last.1.phase = .invalid ∨ last.1.phase = .cleared →
      Blank last.1.buffer) ∧
    ∀ m ∈ ms, m.Ends → Blank m.after.1.buffer := by
  intro buffer start ms last
  let P (_ : List (Step S)) (s : Auth × Watched S) := Lasting s.1
  have hbuffer : Sound buffer :=
    SecureBuffer.sound_final (SecureBuffer.sound_create h).1 edits
  have hstart : P [] start := ⟨hbuffer, fun hphase => absurd rfl hphase⟩
  have hnext : ∀ ms s e, P ms s →
      P (ms ++ [Run.moment perform s e]) (Run.moment perform s e).after :=
    fun _ s e hlasting => (lasting_perform hlasting s.2 e).1
  have hlast : Lasting last.1 := Run.holds_final (P := P) hnext es hstart
  refine ⟨hlast.sound.clean, ?_, ?_⟩
  · intro hphase
    apply hlast.blank
    rcases hphase with hphase | hphase | hphase <;> simp [hphase]
  · intro m hm hends
    obtain ⟨pre, hbefore, hmoment⟩ := Run.holds_at (P := P) hnext hstart hm
    rw [hmoment] at hends ⊢
    exact (lasting_perform hbefore m.before.2 m.event).2 hends

/-- The sink refuses a credential that grew out of its first block: nothing of it stays. -/
theorem blank_after_refusal :
    let fresh : SecureBuffer := ⟨zeros 2, 0, 8, 0, (({} : Memory).allocate 2).2⟩
    let sink : SubmissionRecord := { armed := [(0, .lockRejected)] }
    let start : Auth × Watched SubmissionRecord := ({ buffer := fresh, ignoreEmpty := true }, { sink })
    let typed := Run.final perform [.input (.insert [97, 98, 99]), .input .backspace] start
    let m : Step SubmissionRecord := Run.moment perform typed (.input .submit)
    SecureBuffer.create 2 8 {} = .ok fresh ∧ typed.1.buffer.storage = [97, 98, 0, 0] ∧
    m.after.1.phase = .idle ∧ m.after.1.buffer.length = 0 ∧
      m.after.1.buffer.storage.all (· == 0) = true := by
  intro fresh sink start typed m
  have hcreate : SecureBuffer.create 2 8 {} = .ok fresh := rfl
  have hends : m.Ends := by
    left
    decide +kernel
  have hm : m ∈ Run.moments perform
      [.input (.insert [97, 98, 99]), .input .backspace, .input .submit] start := by
    simp [Run.moments, m, typed, Run.final]
  obtain ⟨-, -, hblank⟩ := no_credential_outlives_its_attempt hcreate [] sink true
    [.input (.insert [97, 98, 99]), .input .backspace, .input .submit]
  obtain ⟨hlength, hzero⟩ := hblank m hm hends
  exact ⟨hcreate, by decide +kernel, by decide +kernel, hlength, by simpa using hzero⟩

end Auth

end ScreenLocker
