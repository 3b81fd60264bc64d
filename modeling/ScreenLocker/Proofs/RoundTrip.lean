import ScreenLocker.Proofs.Requests

/-! What is written comes back. Requests that are written one after another are read one after another,
each as it was, whatever pieces they were written in and whatever pieces they are read in. -/

namespace ScreenLocker.Frame

/-- Writes requests one after another. -/
def writeEach : List Bytes → Try OutStream Unit
  | [] => pure ()
  | c :: cs => do
    write c
    writeEach cs

theorem writeEach_reliable {cs : List Bytes} (hsizes : ∀ c ∈ cs, c.length < UInt32.size)
    {s : OutStream} (h : s.Reliable) :
    ∃ s', tried (writeEach cs) s = (.ok (), s') ∧ s'.written = s.written ++ encodeAll cs := by
  induction cs generalizing s with
  | nil => exact ⟨s, rfl, (List.append_nil _).symm⟩
  | cons c cs ih =>
    obtain ⟨hsize, hothers⟩ := List.forall_mem_cons.mp hsizes
    obtain ⟨s₁, hwrite, hwritten, h₁⟩ := write_reliable hsize h
    obtain ⟨s', heach, hall⟩ := ih hothers h₁
    refine ⟨s', by simp [writeEach, hwrite, heach], ?_⟩
    rw [hall, hwritten, encodeAll_cons, List.append_assoc]

/-- Into whatever buffer they are read, the credentials come out as they went in: a read for each, with
just its bytes in the buffer, then one that finds the end, with every byte of the stream taken. -/
theorem reads_what_was_written {initial max : Nat} {memory : Memory} {fresh : SecureBuffer}
    (h : SecureBuffer.create initial max memory = .ok fresh) (edits : List SecureBuffer.Event)
    (willing : (Run.final SecureBuffer.perform edits fresh).memory.Willing)
    {credentials : List Bytes} (fits : ∀ c ∈ credentials, c.length ≤ max ∧ c.length < UInt32.size)
    {writes reads : List Move} (hwrites : Harmless writes) (hreads : Harmless reads) :
    let buffer := Run.final SecureBuffer.perform edits fresh
    ∃ out last, tried (writeEach credentials) { script := writes } = (.ok (), out) ∧
      out.written = encodeAll credentials ∧
      Reads ({ pending := out.written, script := reads }, buffer) credentials (.ok ()) last ∧
      last.1.pending = [] ∧ last.1.consumed = out.written.length := by
  intro buffer
  obtain ⟨out, hwrite, hwritten⟩ :=
    writeEach_reliable (fun c hc => (fits c hc).2) (OutStream.reliable hwrites)
  have hready := ready_edited h edits willing hreads out.written
  have hpending : out.written = encodeAll credentials ++ [] := by
    rw [hwritten, List.append_nil]
    rfl
  obtain ⟨last, hall, hlast⟩ := reads_all fits (.ended (by decide)) hready hpending
  obtain ⟨hempty, hconsumed⟩ := hlast rfl
  refine ⟨out, last, hwrite, hwritten.trans (List.nil_append _), hall, hempty, ?_⟩
  rw [hconsumed]
  exact Nat.zero_add _

/-- A header cut in two by the writer and into single bytes by the reader, and an empty credential after
a longer one. -/
theorem two_requests_come_back :
    let fresh : SecureBuffer := ⟨zeros 2, 0, 8, 0, (({} : Memory).allocate 2).2⟩
    let edits : List SecureBuffer.Event := [.append [120, 121, 122]]
    let credentials : List Bytes := [[97, 98, 99], []]
    let writes : List Move := [.upTo 2, .fail (.os 4), .upTo 1, .upTo 1, .upTo 2]
    let reads : List Move := [.fail (.kind .interrupted), .upTo 1, .upTo 1, .upTo 1, .upTo 1, .upTo 2]
    let buffer := Run.final SecureBuffer.perform edits fresh
    buffer.content = [120, 121, 122] ∧
    ∃ out last, tried (writeEach credentials) { script := writes } = (.ok (), out) ∧
      Reads ({ pending := out.written, script := reads }, buffer) credentials (.ok ()) last ∧
      last.1.consumed = 11 := by
  intro fresh edits credentials writes reads buffer
  have hcreate : SecureBuffer.create 2 8 {} = .ok fresh := rfl
  have hwilling : buffer.memory.Willing := Memory.willing_of_unscripted rfl
  have hfits : ∀ c ∈ credentials, c.length ≤ 8 ∧ c.length < UInt32.size := by decide
  have hwrites : Harmless writes := by decide
  have hreads : Harmless reads := by decide
  obtain ⟨out, last, hwrite, hwritten, hall, -, hconsumed⟩ :=
    reads_what_was_written hcreate edits hwilling hfits hwrites hreads
  refine ⟨by decide +kernel, out, last, hwrite, hall, ?_⟩
  rw [hconsumed, hwritten]
  rfl

end ScreenLocker.Frame
