import ScreenLocker.Keyboard
import ScreenLocker.Proofs.CredentialLifetime

/-! What is typed is a text. As long as only text is put in, the content of the buffer is the UTF-8 encoding
of a text that is edited character by character: it grows by whole texts or not at all, shrinks by its last
character, and what is submitted is all of it. -/

namespace ScreenLocker

/-- The UTF-8 bytes of a text. -/
def utf8 (text : List Char) : Bytes := text.flatMap String.utf8EncodeChar

/-- The text that some UTF-8 bytes stand for. -/
def scalars (bytes : Bytes) : List Char := (bytes.toByteArray.utf8Decode?.getD #[]).toList

theorem scalars_utf8 (text : List Char) : scalars (utf8 text) = text := by
  have hdecode : (utf8 text).toByteArray.utf8Decode? = some text.toArray := List.utf8Decode?_utf8Encode
  rw [scalars, hdecode, Option.getD_some]

theorem utf8_append (first second : List Char) : utf8 (first ++ second) = utf8 first ++ utf8 second :=
  List.flatMap_append

theorem utf8_singleton (c : Char) : utf8 [c] = String.utf8EncodeChar c := List.append_nil _

theorem isValidUTF8_utf8 (text : List Char) : (utf8 text).toByteArray.IsValidUTF8 := ⟨text, rfl⟩

theorem utf8_scalars {bytes : Bytes} (h : bytes.toByteArray.IsValidUTF8) : utf8 (scalars bytes) = bytes := by
  obtain ⟨text, htext⟩ := h
  obtain rfl : bytes = utf8 text := List.toByteArray_inj.mp htext
  rw [scalars_utf8]

theorem eq_nil_of_utf8 {text : List Char} (h : utf8 text = []) : text = [] := by
  rw [← scalars_utf8 text, h]
  rfl

/-- Keys make no control characters. -/
theorem classify_text {symbol codepoint : Nat} {control : Bool} {c : Char}
    (h : classify symbol control codepoint = some (.text c)) : isControl c = false := by
  unfold classify at h
  split at h
  · simp at h
  split at h
  · simp at h
  split at h
  · simp at h
  split at h
  · split at h <;> simp at h
  · obtain ⟨c', hc', hsame⟩ := Option.map_eq_some_iff.mp h
    obtain rfl := KeyAction.text.inj hsame
    simpa using (Option.filter_eq_some_iff.mp hc').2

namespace SecureBuffer

/-- There is no room for so many bytes: they are beyond the limit, or it would take another block and that is
not pinned. -/
def Refuses (b : SecureBuffer) (bytes : Bytes) : Prop :=
  b.max < b.length + bytes.length ∨ b.capacity < b.length + bytes.length ∧ b.memory.errno ≠ 0

instance (b : SecureBuffer) (bytes : Bytes) : Decidable (Refuses b bytes) :=
  inferInstanceAs (Decidable (_ ∨ _ ∧ _))

theorem due_append (b : SecureBuffer) (bytes : Bytes) :
    (∃ e, due (.append bytes) b = .error e) ↔ Refuses b bytes := by
  unfold due Refuses
  by_cases hlimit : b.max < b.length + bytes.length
  · simp [Event.asks, hlimit]
  · by_cases hpin : b.capacity < b.length + bytes.length ∧ b.memory.errno ≠ 0
    · simp [Event.asks, hlimit, hpin]
    · simp [Event.asks, hlimit, hpin]

/-- Bytes are appended whole, or not at all. -/
theorem content_append {b b' : SecureBuffer} (h : Sound b) {bytes : Bytes} {r : Except BufferError Unit}
    (happend : tried (append bytes) b = (r, b')) :
    b'.content = if Refuses b bytes then b.content else b.content ++ bytes := by
  have hlawful := lawful_perform h (.append bytes)
  have hanswer := hlawful.answer
  have hcontent := hlawful.content
  rw [Run.moment, outcome_perform_append, happend] at hanswer hcontent
  cases r with
  | error e =>
    rw [if_pos ((due_append b bytes).mp ⟨e, hanswer.symm⟩)]
    exact hcontent
  | ok _ =>
    have htakes : ¬Refuses b bytes := by
      intro hrefuses
      obtain ⟨e, he⟩ := (due_append b bytes).mpr hrefuses
      exact absurd (hanswer.trans he) (by simp)
    rw [if_neg htakes]
    exact hcontent

end SecureBuffer

namespace Auth

open SecureBuffer (Sound Blank)

theorem isContinuation_tail (b : UInt8) : isContinuation (b &&& 63 ||| 128) = true := by
  have hbits : ∀ bits : BitVec 8, (bits &&& 63#8 ||| 128#8) &&& 192#8 = 128#8 := by decide
  apply beq_iff_eq.mpr
  exact UInt8.toBitVec_inj.mp (hbits b.toBitVec)

theorem isContinuation_lead {b : UInt8} (h : b.IsUTF8FirstByte) : isContinuation b = false := by
  -- What tells a lead byte from the others is in the two highest bits.
  have hmask : ∀ mask value : UInt8, b &&& mask = value → b &&& (mask &&& 0xC0) = value &&& 0xC0 := by
    intro mask value hvalue
    rw [← UInt8.and_assoc, hvalue]
  apply beq_eq_false_iff_ne.mpr
  intro hcontinues
  rcases h with hlead | hlead | hlead | hlead
  · have hhigh : b &&& 0x80 = b &&& 0xC0 &&& 0x80 := by rw [UInt8.and_assoc]; rfl
    rw [hlead, hcontinues] at hhigh
    exact absurd hhigh (by decide)
  · exact absurd (hcontinues.symm.trans (hmask _ _ hlead)) (by decide)
  · exact absurd (hcontinues.symm.trans (hmask _ _ hlead)) (by decide)
  · exact absurd (hcontinues.symm.trans (hmask _ _ hlead)) (by decide)

/-- An encoded character is a lead byte and continuation bytes after it. -/
theorem encoding_cases (c : Char) : ∃ lead rest, String.utf8EncodeChar c = lead :: rest ∧
    isContinuation lead = false ∧ ∀ b ∈ rest, isContinuation b = true := by
  have hlead : ∀ {lead rest}, String.utf8EncodeChar c = lead :: rest → isContinuation lead = false := by
    intro lead rest hsplit
    have hlength : 0 < (String.utf8EncodeChar c).length := by simp [hsplit]
    have hfirst : (String.utf8EncodeChar c)[0] = lead := by simp [hsplit]
    rw [← hfirst]
    exact isContinuation_lead (UInt8.isUTF8FirstByte_getElem_utf8EncodeChar.mpr rfl)
  rcases c.utf8Size_eq with hsize | hsize | hsize | hsize
  · have hsplit := String.utf8EncodeChar_eq_singleton hsize
    exact ⟨_, _, hsplit, hlead hsplit, by simp⟩
  · have hsplit := String.utf8EncodeChar_eq_cons_cons hsize
    exact ⟨_, _, hsplit, hlead hsplit, by simp [isContinuation_tail]⟩
  · have hsplit := String.utf8EncodeChar_eq_cons_cons_cons hsize
    exact ⟨_, _, hsplit, hlead hsplit, by simp [isContinuation_tail]⟩
  · have hsplit := String.utf8EncodeChar_eq_cons_cons_cons_cons hsize
    exact ⟨_, _, hsplit, hlead hsplit, by simp [isContinuation_tail]⟩

/-- The last character starts where the text before it ends. -/
theorem lastScalarStart_snoc (bytes : Bytes) (c : Char) :
    lastScalarStart (bytes ++ String.utf8EncodeChar c) = bytes.length := by
  obtain ⟨lead, rest, hsplit, hlead, hrest⟩ := encoding_cases c
  unfold lastScalarStart
  rw [hsplit, List.reverse_append, List.reverse_cons, List.append_assoc,
    List.dropWhile_append_of_pos fun b hb => hrest b (List.mem_reverse.mp hb)]
  simp [hlead]

theorem content_shortened {a : Auth} (h : Sound a.buffer) {text : List Char}
    (htext : a.buffer.content = utf8 text) : a.shortened.content = utf8 text.dropLast := by
  rw [shortened, SecureBuffer.content_cut h, htext]
  rcases List.eq_nil_or_concat text with rfl | ⟨earlier, c, rfl⟩
  · rfl
  · rw [List.concat_eq_append, List.dropLast_concat, utf8_append, utf8_singleton, lastScalarStart_snoc,
      List.take_left]

variable {S : Type}

/-- The credential goes to the sink: an empty one may be held back, and so is everything while a verdict is
awaited. -/
def Step.Reaches (text : List Char) (m : Step S) : Prop :=
  m.event = .input .submit ∧ m.before.1.phase ≠ .validating ∧
    ¬(text = [] ∧ m.before.1.ignoreEmpty = true)

instance (text : List Char) (m : Step S) : Decidable (m.Reaches text) :=
  inferInstanceAs (Decidable (_ ∧ _ ∧ _))

/-- What a step makes of the text. -/
def Step.onText (text : List Char) (m : Step S) : List Char :=
  if m.before.1.phase = .validating then text
  else match m.event with
    | .input (.insert bytes) =>
      if m.before.1.buffer.Refuses bytes then text else text ++ scalars bytes
    | .input .backspace => text.dropLast
    | .input .clear => []
    | .input .submit => if m.Reaches text then [] else text
    | .verdict _ => text

/-- Only text is put in. -/
def Legible (e : Event) : Prop := ∀ bytes, e = .input (.insert bytes) → bytes.toByteArray.IsValidUTF8

variable [CredentialSink S]

/-- The attempt has this text for its credential. -/
structure Holds (text : List Char) (a : Auth) : Prop where
  lasting : Lasting a
  content : a.buffer.content = utf8 text

theorem Holds.length_eq_zero {text : List Char} {a : Auth} (h : Holds text a) :
    a.buffer.length = 0 ↔ text = [] := by
  rw [← h.lasting.sound.length_content, h.content, List.length_eq_zero_iff]
  exact ⟨eq_nil_of_utf8, fun hnil => hnil ▸ rfl⟩

theorem perform_withheld {a : Auth} (quiet : a.phase ≠ .validating) (hempty : a.buffer.length = 0)
    (hpolicy : a.ignoreEmpty = true) (s : S) :
    outcome (perform (.input .submit)) (a, s) = (.ok .unchanged, (a, s)) := by
  have hskip : (a.buffer.isEmpty && a.ignoreEmpty) = true := by
    simp [SecureBuffer.isEmpty, hempty, hpolicy]
  exact (handleInput_submit quiet s).trans (if_pos hskip)

theorem Holds.inserted {text : List Char} {a : Auth} (h : Holds text a) {bytes : Bytes}
    (hvalid : bytes.toByteArray.IsValidUTF8) {r : Except BufferError Unit} {b : SecureBuffer}
    (happend : tried (SecureBuffer.append bytes) a.buffer = (r, b)) :
    b.content = utf8 (if a.buffer.Refuses bytes then text else text ++ scalars bytes) := by
  rw [SecureBuffer.content_append h.lasting.sound happend, h.content]
  split
  · rfl
  · rw [utf8_append, utf8_scalars hvalid]

theorem Holds.shortened {text : List Char} {a : Auth} (h : Holds text a) :
    a.shortened.content = utf8 text.dropLast := content_shortened h.lasting.sound h.content

theorem Holds.nil_of_phase {text : List Char} {a : Auth} (h : Holds text a) (hphase : a.phase ≠ .idle) :
    text = [] := h.length_eq_zero.mp (h.lasting.blank hphase).1

/-- What a step does to the text, and what the sink is given of it. -/
theorem holds_perform {text : List Char} {a : Auth} (h : Holds text a) (w : Watched S) {e : Event}
    (hlegible : Legible e) :
    let m : Step S := Run.moment perform (a, w) e
    Holds (m.onText text) m.after.1 ∧
      m.after.2.given = w.given ++ if m.Reaches text then [(utf8 text, m.answer.isOk)] else [] := by
  intro m
  have hm : m = Run.moment perform (a, w) e := rfl
  have hlasting : Lasting m.after.1 := (lasting_perform h.lasting w e).1
  have hmoved := moved_perform e a w
  rw [Run.moment] at hm
  rcases hstep : outcome (perform e) (a, w) with ⟨answer, after⟩
  rw [hstep] at hmoved hm
  rw [hm] at hlasting ⊢
  -- A submission that the sink hears of is not one that is held back.
  have hheard : after.2.given ≠ w.given → a.phase ≠ .validating → e = .input .submit →
      ¬(text = [] ∧ a.ignoreEmpty = true) := by
    rintro hgiven quiet rfl ⟨hnil, hpolicy⟩
    have hsame := perform_withheld quiet (h.length_eq_zero.mpr hnil) hpolicy w
    rw [hstep] at hsame
    exact hgiven (by rw [(Prod.mk.inj hsame).2])
  have hwiped : ∀ b : SecureBuffer, b.wiped.content = utf8 [] := fun _ => rfl
  cases hmoved with
  | ignored event busy =>
    refine ⟨⟨hlasting, ?_⟩, by simp [Step.Reaches, busy]⟩
    simpa [Step.onText, busy] using h.content
  | inserted bytes b quiet taken =>
    refine ⟨⟨hlasting, ?_⟩, by simp [Step.Reaches]⟩
    simpa [Step.onText, quiet] using h.inserted (hlegible bytes rfl) taken
  | dropped bytes err b quiet refused =>
    refine ⟨⟨hlasting, ?_⟩, by simp [Step.Reaches]⟩
    simpa [Step.onText, quiet] using h.inserted (hlegible bytes rfl) refused
  | erased quiet left =>
    refine ⟨⟨hlasting, ?_⟩, by simp [Step.Reaches]⟩
    simpa [Step.onText, quiet] using h.shortened
  | emptied quiet gone =>
    refine ⟨⟨hlasting, ?_⟩, by simp [Step.Reaches]⟩
    have hnil : text.dropLast = [] := by
      apply eq_nil_of_utf8
      rw [← h.shortened, SecureBuffer.content, gone]
      rfl
    simpa [Step.onText, quiet, hnil] using hwiped a.shortened
  | cleared event quiet asked =>
    rcases asked with rfl | ⟨rfl, hempty⟩
    · refine ⟨⟨hlasting, ?_⟩, by simp [Step.Reaches]⟩
      simpa [Step.onText, quiet] using hwiped a.buffer
    · refine ⟨⟨hlasting, ?_⟩, by simp [Step.Reaches]⟩
      simpa [Step.onText, quiet, h.length_eq_zero.mp hempty] using hwiped a.buffer
  | withheld quiet empty policy =>
    have hnil : text = [] := h.length_eq_zero.mp empty
    refine ⟨⟨hlasting, ?_⟩, by simp [Step.Reaches, hnil, policy]⟩
    simpa [Step.onText, Step.Reaches, quiet, hnil, policy] using h.content
  | sent w' quiet taken =>
    have hgiven : w'.given = w.given ++ [(_, true)] := Watched.given_answered taken
    have hreaches := hheard (by simp [hgiven]) quiet rfl
    refine ⟨⟨hlasting, ?_⟩, ?_⟩
    · simpa [Step.onText, Step.Reaches, quiet, hreaches] using hwiped a.buffer
    · rw [hgiven, h.content, if_pos ⟨rfl, quiet, hreaches⟩]
      rfl
  | refused w' err quiet failed =>
    have hgiven : w'.given = w.given ++ [(_, false)] := Watched.given_answered failed
    have hreaches := hheard (by simp [hgiven]) quiet rfl
    refine ⟨⟨hlasting, ?_⟩, ?_⟩
    · simpa [Step.onText, Step.Reaches, quiet, hreaches] using hwiped a.buffer
    · rw [hgiven, h.content, if_pos ⟨rfl, quiet, hreaches⟩]
      rfl
  | accepted busy =>
    refine ⟨⟨hlasting, ?_⟩, by simp [Step.Reaches]⟩
    simpa [Step.onText, busy, h.nil_of_phase (by simp [busy])] using hwiped a.buffer
  | rejected busy =>
    refine ⟨⟨hlasting, ?_⟩, by simp [Step.Reaches]⟩
    simpa [Step.onText, busy, h.nil_of_phase (by simp [busy])] using hwiped a.buffer.wiped
  | unexpected v quiet =>
    refine ⟨⟨hlasting, ?_⟩, by simp [Step.Reaches]⟩
    simpa [Step.onText, quiet] using h.content

/-- The text that a run has come to, and what the sink was given of it on the way. -/
structure Typed (held : List Char) (ms : List (Step S)) (s : Auth × Watched S) : Prop where
  holds : Holds (ms.foldl Step.onText held) s.1
  given : ∀ sent ∈ s.2.given, ∃ earlier, earlier <+: ms ∧ sent.1 = utf8 (earlier.foldl Step.onText held)

theorem Typed.next {held : List Char} {ms : List (Step S)} {s : Auth × Watched S} (h : Typed held ms s)
    {e : Event} (hlegible : Legible e) :
    Typed held (ms ++ [Run.moment perform s e]) (Run.moment perform s e).after := by
  obtain ⟨hholds, hgiven⟩ := holds_perform h.holds s.2 hlegible
  have hfold : (ms ++ [Run.moment perform s e]).foldl Step.onText held =
      Step.onText (ms.foldl Step.onText held) (Run.moment perform s e) := by simp
  refine ⟨hfold ▸ hholds, ?_⟩
  intro sent hsent
  change sent ∈ (Run.moment perform (s.1, s.2) e).after.2.given at hsent
  rw [hgiven] at hsent
  rcases List.mem_append.mp hsent with hold | hnew
  · obtain ⟨earlier, hfront, hsame⟩ := h.given sent hold
    exact ⟨earlier, hfront.trans (List.prefix_append _ _), hsame⟩
  · split at hnew
    · rw [List.mem_singleton.mp hnew]
      exact ⟨ms, List.prefix_append _ _, rfl⟩
    · simp at hnew

/-- What is put in is what a key makes. -/
def Pressed (e : Event) : Prop := ∀ bytes, e = .input (.insert bytes) →
  ∃ symbol control codepoint action,
    classify symbol control codepoint = some action ∧ action.toInput = .insert bytes

theorem Pressed.char {e : Event} (h : Pressed e) {bytes : Bytes} (hevent : e = .input (.insert bytes)) :
    ∃ c, bytes = utf8 [c] ∧ isControl c = false := by
  obtain ⟨_, _, _, action, hclass, hbytes⟩ := h bytes hevent
  cases action with
  | text c =>
    refine ⟨c, ?_, classify_text hclass⟩
    rw [utf8_singleton]
    exact (Input.insert.inj hbytes).symm
  | backspace => simp [KeyAction.toInput] at hbytes
  | clear => simp [KeyAction.toInput] at hbytes
  | submit => simp [KeyAction.toInput] at hbytes

theorem Pressed.legible {e : Event} (h : Pressed e) : Legible e := by
  intro bytes hevent
  obtain ⟨c, rfl, -⟩ := h.char hevent
  exact isValidUTF8_utf8 [c]

omit [CredentialSink S] in
theorem clean_onText {text : List Char} (h : ∀ c ∈ text, isControl c = false) {m : Step S}
    (hpressed : Pressed m.event) : ∀ c ∈ m.onText text, isControl c = false := by
  have hnil : ∀ c ∈ ([] : List Char), isControl c = false := by simp
  unfold Step.onText
  split
  · exact h
  split
  · next bytes hevent =>
    obtain ⟨c, rfl, hcontrol⟩ := hpressed.char hevent
    split
    · exact h
    · rw [scalars_utf8]
      exact List.forall_mem_append.mpr ⟨h, by simpa using hcontrol⟩
  · exact fun c hc => h c (List.dropLast_subset text hc)
  · exact hnil
  · split
    · exact hnil
    · exact h
  · exact h

omit [CredentialSink S] in
theorem clean_foldl {held : List Char} (h : ∀ c ∈ held, isControl c = false) {ms : List (Step S)}
    (hpressed : ∀ m ∈ ms, Pressed m.event) :
    ∀ c ∈ ms.foldl Step.onText held, isControl c = false := by
  induction ms generalizing held with
  | nil => exact h
  | cons m ms ih =>
    obtain ⟨hfirst, hothers⟩ := List.forall_mem_cons.mp hpressed
    exact ih (clean_onText h hfirst) hothers

/-- Before any sink and whatever can be pinned, the content of the buffer is the encoding of a text, if it was
when the attempts began and all that is put in is text. Step by step the text grows by the whole of what is put in
or stays, loses its last character, is emptied by a submission that reaches the sink, and stays while a verdict is
awaited; the sink is given the encoding of all of it. So each credential that it is given is UTF-8, and without
control characters if all is put in by keys. -/
theorem credential_is_what_was_typed {initial max : Nat} {memory : Memory} {fresh : SecureBuffer}
    (h : SecureBuffer.create initial max memory = .ok fresh) (edits : List SecureBuffer.Event)
    {held : List Char} (hheld : (Run.final SecureBuffer.perform edits fresh).content = utf8 held)
    (sink : S) (ignoreEmpty : Bool) {es : List Event} (hlegible : ∀ e ∈ es, Legible e) :
    let buffer := Run.final SecureBuffer.perform edits fresh
    let start : Auth × Watched S := ({ buffer, ignoreEmpty }, { sink })
    let ms : List (Step S) := Run.moments perform es start
    let last := Run.final perform es start
    last.1.buffer.content = utf8 (ms.foldl Step.onText held) ∧
    (∀ before m after, ms = before ++ m :: after →
      let text := before.foldl Step.onText held
      m.before.1.buffer.content = utf8 text ∧ m.after.1.buffer.content = utf8 (m.onText text) ∧
      m.after.2.given =
        m.before.2.given ++ if m.Reaches text then [(utf8 text, m.answer.isOk)] else []) ∧
    (∀ sent ∈ last.2.given, sent.1.toByteArray.IsValidUTF8) ∧
    ((∀ c ∈ held, isControl c = false) → (∀ e ∈ es, Pressed e) →
      ∀ sent ∈ last.2.given, ∀ c ∈ scalars sent.1, isControl c = false ∧ c.toNat ≠ 0) := by
  intro buffer start ms last
  have hevents : ms.map Moment.event = es := Run.map_event es start
  have hmem : ∀ m ∈ ms, m.event ∈ es := fun m hm => hevents ▸ List.mem_map_of_mem hm
  have hsound : Sound buffer := SecureBuffer.sound_final (SecureBuffer.sound_create h).1 edits
  have hstart : Typed held [] start := by
    refine ⟨⟨⟨hsound, fun hphase => absurd rfl hphase⟩, hheld⟩, ?_⟩
    intro sent hsent
    simp [start] at hsent
  have hnext : ∀ ms (s : Auth × Watched S) e, Typed held ms s → Legible (Run.moment perform s e).event →
      Typed held (ms ++ [Run.moment perform s e]) (Run.moment perform s e).after :=
    fun _ _ _ htyped hone => htyped.next hone
  have hall : ∀ m ∈ ms, Legible m.event := fun m hm => hlegible m.event (hmem m hm)
  have hlast : Typed held ms last := Run.holds_final_of_kind hnext es hstart hall
  refine ⟨hlast.holds.content, ?_, ?_, ?_⟩
  · intro before m after hsplit text
    obtain ⟨hearlier, hrest⟩ := List.forall_mem_append.mp (hsplit ▸ hall)
    obtain ⟨htyped, hmoment⟩ := Run.holds_before_of_kind hnext hstart hsplit hearlier
    obtain ⟨hholds, hgiven⟩ :=
      holds_perform htyped.holds m.before.2 (hrest m List.mem_cons_self)
    change Holds _ (Run.moment perform m.before m.event).after.1 at hholds
    change (Run.moment perform m.before m.event).after.2.given = _ at hgiven
    rw [← hmoment] at hholds hgiven
    exact ⟨htyped.holds.content, hholds.content, hgiven⟩
  · intro sent hsent
    obtain ⟨earlier, -, hsame⟩ := hlast.given sent hsent
    rw [hsame]
    exact isValidUTF8_utf8 _
  · intro hclean hpressed sent hsent c hc
    obtain ⟨earlier, hfront, hsame⟩ := hlast.given sent hsent
    rw [hsame, scalars_utf8] at hc
    have hcontrol : isControl c = false :=
      clean_foldl hclean (fun m hm => hpressed m.event (hmem m (hfront.subset hm))) c hc
    refine ⟨hcontrol, ?_⟩
    intro hnul
    simp [isControl, hnul] at hcontrol

/-- The second character comes when no larger block can be pinned, and again when one can; the third is beyond
the limit. What is left after the second is erased is refused by the sink, and what is typed then is taken. -/
theorem typed_through_refusals :
    let memory : Memory := { answers := [0, 12] }
    let fresh : SecureBuffer := ⟨zeros 4, 0, 8, 0, (memory.allocate 4).2⟩
    let key (c : Char) : Event := .input (KeyAction.text c).toInput
    let es : List Event := [key 'é', key '日', key '日', key '𝄞', .input .backspace, key 'a', .input .submit,
      key 'ü', .input .submit, key 'b']
    let buffer := Run.final SecureBuffer.perform [] fresh
    let sink : SubmissionRecord := { armed := [(0, .lockRejected)] }
    let start : Auth × Watched SubmissionRecord := ({ buffer, ignoreEmpty := true }, { sink })
    let last := Run.final perform es start
    SecureBuffer.create 4 8 memory = .ok fresh ∧ (∀ e ∈ es, Legible e) ∧ (∀ e ∈ es, Pressed e) ∧
      last.2.given = [(utf8 ['é', 'a'], false), (utf8 ['ü'], true)] ∧
      ∀ sent ∈ last.2.given, sent.1.toByteArray.IsValidUTF8 ∧ ∀ c ∈ scalars sent.1, isControl c = false := by
  intro memory fresh key es buffer sink start last
  have hcreate : SecureBuffer.create 4 8 memory = .ok fresh := rfl
  have hkey : ∀ c, classify 0 false c.toNat = some (.text c) → Pressed (key c) := by
    intro c hclass bytes hbytes
    exact ⟨0, false, c.toNat, .text c, hclass, Event.input.inj hbytes⟩
  have hpressed : ∀ e ∈ es, Pressed e := by
    simp only [es, List.forall_mem_cons]
    exact ⟨hkey _ (by decide), hkey _ (by decide), hkey _ (by decide), hkey _ (by decide), nofun,
      hkey _ (by decide), nofun, hkey _ (by decide), nofun, hkey _ (by decide), nofun⟩
  have hlegible : ∀ e ∈ es, Legible e := fun e he => (hpressed e he).legible
  have hheld : buffer.content = utf8 [] := rfl
  obtain ⟨-, -, hvalid, hclean⟩ := credential_is_what_was_typed hcreate [] hheld sink true hlegible
  -- The run is the same on both sides; to unfold it would be to run it.
  have hvalid : ∀ sent ∈ last.2.given, sent.1.toByteArray.IsValidUTF8 := by with_reducible exact hvalid
  have hclean : ∀ sent ∈ last.2.given, ∀ c ∈ scalars sent.1, isControl c = false ∧ c.toNat ≠ 0 := by
    with_reducible exact hclean (by simp) hpressed
  exact ⟨hcreate, hlegible, hpressed, by decide +kernel,
    fun sent hsent => ⟨hvalid sent hsent, fun c hc => (hclean sent hsent c hc).1⟩⟩

end Auth

end ScreenLocker
