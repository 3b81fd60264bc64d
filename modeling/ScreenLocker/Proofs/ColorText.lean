import Mathlib.Data.Bool.AllAny
import Mathlib.Data.Nat.Digits.Lemmas
import ScreenLocker.Color

/-! The texts of colors. What is documented is read: six or eight base-16 digits after at most one mark. Besides it a
number is read that spends its first place on a plus sign, and nothing else. What is written is read back, in either
case. -/

namespace ScreenLocker

namespace Hex

/-- The digits, in lower and in upper case. -/
def alphabet : List Char := "0123456789abcdefABCDEF".toList

/-- What a digit stands for. -/
def weight (c : Char) : Nat := alphabet.idxOf c.toLower

/-- The number that a run of digits stands for in base 16. -/
def number (digits : List Char) : Nat := Nat.ofDigits 16 (digits.map weight).reverse

theorem mem_alphabet_iff {c : Char} :
    c ∈ alphabet ↔ ('0' ≤ c ∧ c ≤ '9') ∨ ('a' ≤ c ∧ c ≤ 'f') ∨ ('A' ≤ c ∧ c ≤ 'F') := by
  constructor
  · -- The list is checked, not every character there is.
    have hall : ∀ c ∈ alphabet, ('0' ≤ c ∧ c ≤ '9') ∨ ('a' ≤ c ∧ c ≤ 'f') ∨ ('A' ≤ c ∧ c ≤ 'F') :=
      List.all_iff_forall_prop.mp (by decide)
    exact hall c
  · intro hrange
    -- A character of a range is one of its few numbers.
    have hnumber : (48 ≤ c.toNat ∧ c.toNat ≤ 57) ∨ (97 ≤ c.toNat ∧ c.toNat ≤ 102) ∨
        (65 ≤ c.toNat ∧ c.toNat ≤ 70) := hrange
    rw [← Char.ofNat_toNat c]
    generalize c.toNat = n at hnumber
    rcases hnumber with ⟨hlow, hhigh⟩ | ⟨hlow, hhigh⟩ | ⟨hlow, hhigh⟩ <;> interval_cases n <;> decide

theorem digit?_of_mem : ∀ c ∈ alphabet, digit? c = some (weight c) := List.all_iff_forall_prop.mp (by decide)

theorem digit?_of_not_mem {c : Char} (h : c ∉ alphabet) : digit? c = none := by
  rw [mem_alphabet_iff, not_or, not_or] at h
  obtain ⟨hdecimal, hlower, hupper⟩ := h
  rw [digit?, if_neg hdecimal, if_neg hlower, if_neg hupper]

theorem weight_lt : ∀ c ∈ alphabet, weight c < 16 := List.all_iff_forall_prop.mp (by decide)

theorem number_append (digits rest : List Char) :
    number (digits ++ rest) = number digits * 16 ^ rest.length + number rest := by
  rw [number, List.map_append, List.reverse_append, Nat.ofDigits_append, List.length_reverse, List.length_map,
    Nat.mul_comm, Nat.add_comm]
  rfl

theorem number_singleton (c : Char) : number [c] = weight c := Nat.ofDigits_singleton

theorem number_lt {digits : List Char} (h : ∀ c ∈ digits, c ∈ alphabet) :
    number digits < 16 ^ digits.length := by
  have hlt := Nat.ofDigits_lt_base_pow_length (b := 16) (l := (digits.map weight).reverse) (by decide)
    (by simpa using fun c hc => weight_lt c (h c hc))
  simpa [number] using hlt

/-- Digits are read in the order of their places, whatever has been read before them. -/
theorem foldlM_digits {digits : List Char} (h : ∀ c ∈ digits, c ∈ alphabet) (n : Nat) :
    digits.foldlM (fun n c => (digit? c).map (16 * n + ·)) n = some (n * 16 ^ digits.length + number digits) := by
  induction digits generalizing n with
  | nil => simp [number]
  | cons c digits ih =>
    obtain ⟨hc, hdigits⟩ := List.forall_mem_cons.mp h
    have hnumber : number (c :: digits) = weight c * 16 ^ digits.length + number digits := by
      rw [← number_singleton, ← number_append]
      rfl
    rw [List.foldlM_cons, digit?_of_mem c hc, Option.map_some, Option.bind_eq_bind, Option.bind_some,
      ih hdigits, hnumber, List.length_cons]
    congr 1
    ring

theorem foldlM_other {digits : List Char} (h : ∃ c ∈ digits, c ∉ alphabet) (n : Nat) :
    digits.foldlM (fun n c => (digit? c).map (16 * n + ·)) n = none := by
  induction digits generalizing n with
  | nil => simp at h
  | cons c digits ih =>
    rw [List.foldlM_cons]
    by_cases hc : c ∈ alphabet
    · have hrest : ∃ c ∈ digits, c ∉ alphabet := by simpa [hc] using h
      rw [digit?_of_mem c hc]
      exact ih hrest _
    · rw [digit?_of_not_mem hc]
      rfl

theorem read?_eq_some_iff {digits : List Char} {n : Nat} :
    read? digits = some n ↔ (∀ c ∈ digits, c ∈ alphabet) ∧ n = number digits := by
  by_cases hdigits : ∀ c ∈ digits, c ∈ alphabet
  · rw [read?, foldlM_digits hdigits, and_iff_right hdigits]
    simp [eq_comm]
  · rw [read?, foldlM_other (by simpa using hdigits)]
    simp [hdigits]

/-- The last places of a number are read back. -/
theorem read?_fixed (width n : Nat) : read? (fixed width n) = some (n % 16 ^ width) := by
  have hdigit : ∀ d < 16, digit? (digit d) = some d := by decide
  induction width generalizing n with
  | zero => simp [fixed, read?, Nat.mod_one]
  | succ width ih =>
    have hfront : (fixed width (n / 16)).foldlM (fun n c => (digit? c).map (16 * n + ·)) 0 =
        some (n / 16 % 16 ^ width) := ih (n / 16)
    have hlast := hdigit (n % 16) (Nat.mod_lt n (by decide))
    rw [read?, fixed, List.foldlM_append, hfront, Option.bind_eq_bind, Option.bind_some, List.foldlM_cons, hlast,
      Option.map_some, Option.bind_eq_bind, Option.bind_some, List.foldlM_nil]
    have hsplit := Nat.mod_mul (x := n) (a := 16) (b := 16 ^ width)
    rw [pow_succ', hsplit]
    congr 1
    ring

theorem length_fixed (width n : Nat) : (fixed width n).length = width := by
  induction width generalizing n with
  | zero => rfl
  | succ width ih => simp [fixed, ih]

/-- The case of its digits does not matter to a number. -/
theorem read?_lower (digits : List Char) : read? (digits.map Char.toLower) = read? digits := by
  have hsame (c : Char) : digit? c.toLower = digit? c := by
    by_cases hupper : 'A' ≤ c ∧ c ≤ 'Z'
    · obtain ⟨hlow, hhigh⟩ : 65 ≤ c.toNat ∧ c.toNat ≤ 90 := hupper
      rw [← Char.ofNat_toNat c]
      generalize c.toNat = n at hlow hhigh
      interval_cases n <;> rfl
    · exact congrArg digit? (dif_neg hupper)
  simp only [read?, List.foldlM_map, hsame]

end Hex

namespace Color

/-- Digits that stand for a color in so many places. With six places it is opaque. -/
def Denotes (places : Nat) (digits : List Char) (c : Color) : Prop :=
  (∀ d ∈ digits, d ∈ Hex.alphabet) ∧
    ((places = 6 ∧ c.rgba.toNat = 256 * Hex.number digits + 255) ∨
      (places = 8 ∧ c.rgba.toNat = Hex.number digits))

/-- The documented texts: `rrggbb` or `rrggbbaa`, after at most one `#`. -/
def Written (text : String) (c : Color) : Prop :=
  ∃ digits, (text.toList = digits ∨ text.toList = '#' :: digits) ∧ Denotes digits.length digits c

/-- Texts with a plus sign in the first place. -/
def Signed (text : String) (c : Color) : Prop :=
  ∃ digits, (text.toList = '+' :: digits ∨ text.toList = '#' :: '+' :: digits) ∧
    Denotes (digits.length + 1) digits c

/-- The answer to a text that stands for no color. -/
def refused (text : String) : Logged Color :=
  ⟨white, [⟨.debug, .settings, "Invalid color " ++ text ++ ", defaulting to 0xFFFFFFFF"⟩]⟩

/-- What is documented of the answer to a text. -/
def AsDocumented (text : String) (answer : Logged Color) : Prop :=
  (∀ c, Written text c → answer = pure c) ∧ ((∀ c, ¬ Written text c) → answer = refused text)

/-- A text without the character, if it starts with it. -/
def strip (mark : Char) : List Char → List Char
  | [] => []
  | c :: rest => if c = mark then rest else c :: rest

theorem strip_cases (mark : Char) (text : List Char) :
    strip mark text = text ∨ text = mark :: strip mark text := by
  cases text with
  | nil => exact .inl rfl
  | cons c rest =>
    by_cases hc : c = mark
    · exact .inr (by simp [strip, hc])
    · exact .inl (by simp [strip, hc])

theorem strip_cons (mark : Char) (rest : List Char) : strip mark (mark :: rest) = rest := by simp [strip]

theorem length_strip_le (mark : Char) (text : List Char) : (strip mark text).length ≤ text.length := by
  rcases strip_cases mark text with hsame | hmarked
  · rw [hsame]
  · rw [hmarked, strip_cons]
    exact Nat.le_succ _

theorem strip_of_not_mem {mark : Char} {text : List Char} (h : mark ∉ text) : strip mark text = text := by
  rcases strip_cases mark text with hsame | hmarked
  · exact hsame
  · exact absurd (hmarked ▸ List.mem_cons_self) h

/-- The color in so many places, if the digits are such. -/
def ofDigits? (places : Nat) (digits : List Char) : Option Color :=
  if places = 6 then (Hex.read? digits).map fun n => ⟨.ofNat (256 * n + 255)⟩
  else if places = 8 then (Hex.read? digits).map fun n => ⟨.ofNat n⟩
  else none

theorem parse?_eq (text : String) :
    parse? text = ofDigits? (strip '#' text.toList).length (strip '+' (strip '#' text.toList)) := by
  unfold parse? ofDigits?
  rcases htext : text.toList with _ | ⟨c, rest⟩
  · rfl
  by_cases hc : c = '#'
  · subst hc
    rcases rest with _ | ⟨d, rest⟩
    · rfl
    by_cases hd : d = '+'
    · subst hd
      rfl
    · simp [strip, hd]
  · by_cases hd : c = '+'
    · subst hd
      rfl
    · simp [strip, hc, hd]

theorem ofDigits?_eq_some_iff {places : Nat} {digits : List Char} (hfit : digits.length ≤ places) {c : Color} :
    ofDigits? places digits = some c ↔ Denotes places digits c := by
  have hcolor {n : Nat} (hn : n < 2 ^ 32) : (⟨.ofNat n⟩ : Color) = c ↔ c.rgba.toNat = n := by
    obtain ⟨rgba⟩ := c
    rw [Color.mk.injEq, ← UInt32.toNat_inj, UInt32.toNat_ofNat_of_lt' hn, eq_comm]
  by_cases hdigits : ∀ d ∈ digits, d ∈ Hex.alphabet
  · have hbound : Hex.number digits < 16 ^ places :=
      (Hex.number_lt hdigits).trans_le (Nat.pow_le_pow_right (by decide) hfit)
    rw [Denotes, and_iff_right hdigits, ofDigits?, Hex.read?_eq_some_iff.mpr ⟨hdigits, rfl⟩]
    by_cases hsix : places = 6
    · subst hsix
      simpa using hcolor (n := 256 * Hex.number digits + 255) (by omega)
    by_cases height : places = 8
    · subst height
      simpa using hcolor hbound
    · simp [hsix, height]
  · have hnone : Hex.read? digits = none := by
      rw [Option.eq_none_iff_forall_ne_some]
      exact fun n hn => hdigits (Hex.read?_eq_some_iff.mp hn).1
    simp [ofDigits?, Denotes, hnone, hdigits]

theorem Denotes.not_mem {places : Nat} {digits : List Char} {c : Color} (h : Denotes places digits c) {mark : Char}
    (hmark : mark ∉ Hex.alphabet) : mark ∉ digits := fun hmem => hmark (h.1 mark hmem)

/-- Two forms are read, the documented one and the one with a sign. -/
theorem parse?_eq_some_iff {text : String} {c : Color} : parse? text = some c ↔ Written text c ∨ Signed text c := by
  have hmark : '#' ∉ Hex.alphabet := by decide
  have hplus : '+' ∉ Hex.alphabet := by decide
  rw [parse?_eq]
  constructor
  · intro hread
    have hfit : (strip '+' (strip '#' text.toList)).length ≤ (strip '#' text.toList).length := length_strip_le _ _
    rw [ofDigits?_eq_some_iff hfit] at hread
    have htext : text.toList = strip '#' text.toList ∨ text.toList = '#' :: strip '#' text.toList :=
      (strip_cases '#' text.toList).imp_left Eq.symm
    generalize strip '#' text.toList = places at hread htext
    rcases strip_cases '+' places with hsame | hsigned
    · rw [hsame] at hread
      exact .inl ⟨places, htext, hread⟩
    · generalize strip '+' places = digits at hread hsigned
      subst hsigned
      exact .inr ⟨digits, htext, hread⟩
  · rintro (⟨digits, htext, hdigits⟩ | ⟨digits, htext, hdigits⟩)
    · have hplaces : strip '#' text.toList = digits := by
        rcases htext with htext | htext
        · rw [htext, strip_of_not_mem (hdigits.not_mem hmark)]
        · rw [htext, strip_cons]
      rw [hplaces, strip_of_not_mem (hdigits.not_mem hplus)]
      exact (ofDigits?_eq_some_iff le_rfl).mpr hdigits
    · have hplaces : strip '#' text.toList = '+' :: digits := by
        rcases htext with htext | htext
        · rw [htext]
          rfl
        · rw [htext, strip_cons]
      rw [hplaces, strip_cons, List.length_cons]
      exact (ofDigits?_eq_some_iff (Nat.le_succ _)).mpr hdigits

theorem parseLenient_some {text : String} {c : Color} (h : parse? text = some c) : parseLenient text = pure c := by
  rw [parseLenient, h]

theorem Written.read {text : String} {c : Color} (h : Written text c) : parseLenient text = pure c :=
  parseLenient_some (parse?_eq_some_iff.mpr (.inl h))

theorem Signed.read {text : String} {c : Color} (h : Signed text c) : parseLenient text = pure c :=
  parseLenient_some (parse?_eq_some_iff.mpr (.inr h))

theorem parseLenient_none {text : String} (h : parse? text = none) : parseLenient text = refused text := by
  rw [parseLenient, h]
  rfl

/-- A sign is not documented. -/
theorem Signed.not_written {text : String} {c : Color} (h : Signed text c) (c' : Color) : ¬ Written text c' := by
  obtain ⟨digits, hsigned, -⟩ := h
  rintro ⟨places, hwritten, hplaces⟩
  have hsign : '+' ∈ text.toList := by rcases hsigned with htext | htext <;> simp [htext]
  have hno : '+' ∉ places := hplaces.not_mem (by decide)
  rcases hwritten with htext | htext <;> simp [htext, hno] at hsign

/-- The answer to a text is as documented unless the text has a plus sign in the first place. The sign then counts
for a digit, and the digits after it make the number. -/
theorem documented_unless_signed (text : String) :
    (AsDocumented text (parseLenient text) ↔ ∀ c, ¬ Signed text c) ∧
    ∀ c, Signed text c → parseLenient text = pure c := by
  refine ⟨⟨fun hdocumented c h => ?_, fun hunsigned => ⟨fun c => Written.read, fun hno => ?_⟩⟩, fun c => Signed.read⟩
  · have hrefused := hdocumented.2 h.not_written
    rw [h.read] at hrefused
    exact absurd (congrArg Logged.entries hrefused) (by simp [refused])
  · refine parseLenient_none (Option.eq_none_iff_forall_ne_some.mpr fun c hread => ?_)
    exact (parse?_eq_some_iff.mp hread).elim (hno c) (hunsigned c)

theorem signed_five_digits : Signed "+12345" ⟨0x012345ff⟩ :=
  ⟨"12345".toList, .inl rfl, List.all_iff_forall_prop.mp (by decide), .inl ⟨rfl, by decide⟩⟩

/-- Five digits after a sign. -/
theorem sign_counts_for_a_digit :
    Signed "+12345" ⟨0x012345ff⟩ ∧ parseLenient "+12345" = pure ⟨0x012345ff⟩ :=
  ⟨signed_five_digits, (documented_unless_signed "+12345").2 _ signed_five_digits⟩

/-- A text with a sign is answered by a color, where it is documented to be refused. -/
theorem sign_not_refused : ¬ AsDocumented "+12345" (parseLenient "+12345") := by
  intro hdocumented
  have hrefused := congrArg Logged.value (hdocumented.2 signed_five_digits.not_written)
  exact absurd hrefused (by decide +kernel)

/-- What is printed is a documented text, and stays one in another case and after a mark. -/
theorem written_render {text : String} {c : Color} (h : text.toLower = c.render) :
    Written text c ∧ Written ("#" ++ text) c := by
  have hplaces : text.toList.map Char.toLower = Hex.fixed 8 c.rgba.toNat := by
    rw [← String.toList_map, ← String.toList_ofList (l := Hex.fixed 8 c.rgba.toNat)]
    exact congrArg String.toList h
  have hlength : text.toList.length = 8 := by
    rw [← List.length_map Char.toLower, hplaces, Hex.length_fixed]
  have hread : Hex.read? text.toList = some c.rgba.toNat := by
    have hword : c.rgba.toNat < 16 ^ 8 := c.rgba.toNat_lt
    rw [← Hex.read?_lower, hplaces, Hex.read?_fixed, Nat.mod_eq_of_lt hword]
  obtain ⟨hdigits, hnumber⟩ := Hex.read?_eq_some_iff.mp hread
  have hdenotes : Denotes text.toList.length text.toList c := ⟨hdigits, .inr ⟨hlength, hnumber⟩⟩
  exact ⟨⟨text.toList, .inl rfl, hdenotes⟩, ⟨text.toList, .inr (by simp), hdenotes⟩⟩

/-- Six digits denote the color that they denote with two more in full. -/
theorem written_filled {digits : String} (hlength : digits.length = 6)
    (hdigits : ∀ d ∈ digits.toList, d ∈ Hex.alphabet) : ∃ c, Written digits c ∧ Written (digits ++ "ff") c := by
  have hsix : digits.toList.length = 6 := by rwa [String.length_toList]
  have hbound : Hex.number digits.toList < 16 ^ 6 := hsix ▸ Hex.number_lt hdigits
  let c : Color := ⟨.ofNat (256 * Hex.number digits.toList + 255)⟩
  have hvalue : c.rgba.toNat = 256 * Hex.number digits.toList + 255 :=
    UInt32.toNat_ofNat_of_lt' (Nat.lt_of_lt_of_le (m := 2 ^ 32) (by omega) le_rfl)
  refine ⟨c, ⟨digits.toList, .inl rfl, hdigits, .inl ⟨hsix, hvalue⟩⟩, ?_⟩
  refine ⟨digits.toList ++ "ff".toList, .inl String.toList_append, ?_, .inr ⟨?_, ?_⟩⟩
  · exact List.forall_mem_append.mpr ⟨hdigits, List.all_iff_forall_prop.mp (by decide)⟩
  · rw [List.length_append, hsix]
    rfl
  · have hfill : Hex.number "ff".toList = 255 := rfl
    rw [Hex.number_append, hfill, hvalue, Nat.mul_comm]
    rfl

/-- The text of a color stands for the color, in whatever case its digits are and with or without the mark. Six digits
stand for the same as with `ff` after them. -/
theorem color_text_reads_back :
    (∀ (c : Color) (text : String), text.toLower = c.render →
      parseLenient text = pure c ∧ parseLenient ("#" ++ text) = pure c) ∧
    ∀ digits : String, digits.length = 6 → (∀ d ∈ digits.toList, d ∈ Hex.alphabet) →
      parseLenient digits = parseLenient (digits ++ "ff") := by
  constructor
  · intro c text htext
    obtain ⟨hplain, hmarked⟩ := written_render htext
    exact ⟨hplain.read, hmarked.read⟩
  · intro digits hlength hdigits
    obtain ⟨c, hshort, hlong⟩ := written_filled hlength hdigits
    rw [hshort.read, hlong.read]

/-- A color with a zero in front, in mixed case, and an opaque one. -/
theorem mixed_case_reads_back :
    "0072FfC0".toLower = render ⟨0x0072ffc0⟩ ∧ parseLenient "#0072FfC0" = pure ⟨0x0072ffc0⟩ ∧
    "a3A3a3".length = 6 ∧ (∀ d ∈ "a3A3a3".toList, d ∈ Hex.alphabet) ∧
    parseLenient "a3A3a3" = parseLenient "a3A3a3ff" := by
  obtain ⟨hback, hfill⟩ := color_text_reads_back
  have htext : "0072FfC0".toLower = render ⟨0x0072ffc0⟩ := by decide +kernel
  have hdigits : ∀ d ∈ "a3A3a3".toList, d ∈ Hex.alphabet := List.all_iff_forall_prop.mp (by decide)
  exact ⟨htext, (hback _ _ htext).2, rfl, hdigits, hfill "a3A3a3" rfl hdigits⟩

end Color

end ScreenLocker
