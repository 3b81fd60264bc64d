import ScreenLocker.Options.Grammar
import Mathlib.Data.List.Nodup

/-! What a command line says, apart from how it is read: the options that its arguments spell, in order, each with
its value. A value is attached to its option or is the next argument, and then it must not look like an option.
A command line has one reading at most. -/

namespace ScreenLocker.Options

/-- An option as it is given: a flag alone, any other option with a value. -/
structure Occurrence where
  option : Spec
  value : Option String

namespace Occurrence

structure WellFormed (o : Occurrence) : Prop where
  known : o.option ∈ specs
  shape : o.value.isSome = o.option.value.isSome

/-- The occurrence as a config file gives it, and a command line after two dashes. -/
def line (o : Occurrence) : List Char := o.option.long.toList ++ o.value.elim [] ('=' :: ·.toList)

end Occurrence

/-- Whether the option occurs at all. -/
def isGiven (name : OptionName) (given : List Occurrence) : Bool := given.any (·.option.name = name)

/-- The value with which the option occurs last. -/
def lastValue (name : OptionName) (given : List Occurrence) : Option String :=
  (given.filterMap fun o => if o.option.name = name then o.value else none).getLast?

@[simp] theorem isGiven_append (name : OptionName) (earlier later : List Occurrence) :
    isGiven name (earlier ++ later) = (isGiven name earlier || isGiven name later) := List.any_append

@[simp] theorem lastValue_append (name : OptionName) (earlier later : List Occurrence) :
    lastValue name (earlier ++ later) = (lastValue name later).or (lastValue name earlier) := by
  simp [lastValue]

@[simp] theorem isGiven_singleton (name : OptionName) (o : Occurrence) :
    isGiven name [o] = decide (o.option.name = name) := by
  simp [isGiven]

@[simp] theorem lastValue_singleton (name : OptionName) (o : Occurrence) :
    lastValue name [o] = if o.option.name = name then o.value else none := by
  cases ho : o.value <;> by_cases hn : o.option.name = name <;> simp [lastValue, ho, hn]

/-! ### The table of options -/

theorem ofShort?_eq_some {c : Char} {o : Spec} (h : ofShort? c = some o) : o ∈ specs ∧ o.short = some c :=
  ⟨List.mem_of_find?_eq_some h, by simpa using List.find?_some h⟩

theorem ofLong?_eq_some {name : String} {o : Spec} (h : ofLong? name = some o) : o ∈ specs ∧ o.long = name :=
  ⟨List.mem_of_find?_eq_some h, by simpa using List.find?_some h⟩

/-- An option without a value is one of those that the reader counts as flags, and the other way round. -/
theorem isFlag_iff : ∀ o ∈ specs, o.value = none ↔
    o.name ∈ [OptionName.debug, .ignoreEmptyPassword, .daemonize, .help, .version] := by
  simp [specs]

theorem long_no_equals : ∀ o ∈ specs, '=' ∉ o.long.toList := by
  simp only [specs, List.forall_mem_cons]
  decide

theorem long_ne_nil : ∀ o ∈ specs, o.long.toList ≠ [] := by
  simp only [specs, List.forall_mem_cons]
  decide

theorem long_injective : ∀ o ∈ specs, ∀ p ∈ specs, o.long = p.long → o = p := by
  have hnodup : (specs.map Spec.long).Nodup := by decide
  exact fun o ho p hp h => List.inj_on_of_nodup_map hnodup ho hp h

theorem short_injective : ∀ o ∈ specs, ∀ p ∈ specs, o.short.isSome → o.short = p.short → o = p := by
  simp [specs]

theorem short_ne_dash : ∀ o ∈ specs, o.short ≠ some '-' := by
  simp [specs]

/-! ### Readings -/

/-- What the letters after one dash say, and the option that they leave without its value. -/
inductive Letters : List Char → List Occurrence → Option Spec → Prop where
  | none : Letters [] [] none
  | flag {o : Spec} {c : Char} (known : o ∈ specs) (short : o.short = some c) (alone : o.value = none)
      (rest : Letters cs given waiting) : Letters (c :: cs) (⟨o, none⟩ :: given) waiting
  | bare {o : Spec} {c : Char} (known : o ∈ specs) (short : o.short = some c) (valued : o.value.isSome) :
      Letters [c] [] (some o)
  | equated {o : Spec} {c : Char} (known : o ∈ specs) (short : o.short = some c) (valued : o.value.isSome) :
      Letters (c :: '=' :: value) [⟨o, some (String.ofList value)⟩] none
  | joined {o : Spec} {c : Char} (known : o ∈ specs) (short : o.short = some c) (valued : o.value.isSome)
      (first : d ≠ '=') : Letters (c :: d :: value) [⟨o, some (String.ofList (d :: value))⟩] none

/-- What an argument says that starts with a dash, and the option that it leaves without its value. -/
inductive Word : List Char → List Occurrence → Option Spec → Prop where
  | long (formed : Occurrence.WellFormed o) : Word ('-' :: '-' :: o.line) [o] none
  | bare {o : Spec} (known : o ∈ specs) (valued : o.value.isSome) : Word ('-' :: '-' :: o.long.toList) [] (some o)
  | letters (read : Letters (c :: cs) given waiting) : Word ('-' :: c :: cs) given waiting

/-- An argument can be a value if it does not start with a dash, or is nothing else. -/
def IsValue (text : String) : Prop := ∀ c cs, text.toList ≠ '-' :: c :: cs

/-- The options that the arguments give, in order. -/
inductive Spells : List String → List Occurrence → Prop where
  | nothing : Spells [] []
  /-- Two dashes say that no option follows, and nothing else may. -/
  | ended : Spells ["--"] []
  | whole (word : Word text.toList given none) (rest : Spells arguments more) :
      Spells (text :: arguments) (given ++ more)
  | followed (word : Word text.toList given (some o)) (plain : IsValue value) (rest : Spells arguments more) :
      Spells (text :: value :: arguments) (given ++ ⟨o, some value⟩ :: more)

/-! ### One reading at most -/

theorem same_short {o p : Spec} {c : Char} (ho : o ∈ specs) (hp : p ∈ specs) (hoc : o.short = some c)
    (hpc : p.short = some c) : o = p :=
  short_injective o ho p hp (by simp [hoc]) (hoc.trans hpc.symm)

theorem Occurrence.takeWhile_line {o : Occurrence} (known : o.option ∈ specs) :
    o.line.takeWhile (· ≠ '=') = o.option.long.toList := by
  have hname : ∀ c ∈ o.option.long.toList, decide (c ≠ '=') = true := fun c hc =>
    decide_eq_true fun h => long_no_equals _ known (h ▸ hc)
  rw [line, List.takeWhile_append_of_pos hname]
  cases o.value <;> simp

theorem Occurrence.line_injective {o p : Occurrence} (known : o.option ∈ specs) (known' : p.option ∈ specs)
    (h : o.line = p.line) : o = p := by
  have hlong : o.option.long.toList = p.option.long.toList := by
    rw [← takeWhile_line known, ← takeWhile_line known', h]
  have hoption : o.option = p.option := long_injective _ known _ known' (String.toList_injective hlong)
  have hvalue : o.value.elim [] ('=' :: ·.toList) = p.value.elim [] ('=' :: ·.toList) := by
    rw [line, line, hlong] at h
    exact List.append_cancel_left h
  obtain ⟨o, v⟩ := o
  obtain ⟨p, w⟩ := p
  cases v <;> cases w <;> simp_all [String.toList_inj]

/-- An option that takes a value is not given by its name alone. -/
theorem Occurrence.WellFormed.line_ne_long {o : Occurrence} {p : Spec} (h : o.WellFormed) (known : p ∈ specs)
    (valued : p.value.isSome) : o.line ≠ p.long.toList := by
  intro hline
  have hshape := h.shape
  obtain rfl := Occurrence.line_injective (p := ⟨p, none⟩) h.known known (by simpa [Occurrence.line] using hline)
  simp [valued] at hshape

theorem Letters.unique {cs : List Char} {given given' : List Occurrence} {waiting waiting' : Option Spec}
    (h : Letters cs given waiting) (h' : Letters cs given' waiting') : given = given' ∧ waiting = waiting' := by
  induction h generalizing given' waiting' with
  | none => cases h'; exact ⟨rfl, rfl⟩
  | flag known short alone rest ih =>
    cases h' with
    | flag known' short' _ rest' =>
      cases same_short known known' short short'
      obtain ⟨rfl, rfl⟩ := ih rest'
      exact ⟨rfl, rfl⟩
    | bare known' short' valued | equated known' short' valued | joined known' short' valued _ =>
      cases same_short known known' short short'
      simp [alone] at valued
  | bare known short valued =>
    cases h' with
    | flag known' short' alone _ =>
      cases same_short known known' short short'
      simp [alone] at valued
    | bare known' short' _ => exact ⟨rfl, congrArg some (same_short known known' short short')⟩
  | equated known short valued =>
    cases h' with
    | flag known' short' alone _ =>
      cases same_short known known' short short'
      simp [alone] at valued
    | equated known' short' _ => cases same_short known known' short short'; exact ⟨rfl, rfl⟩
    | joined _ _ _ first => exact absurd rfl first
  | joined known short valued first =>
    cases h' with
    | flag known' short' alone _ =>
      cases same_short known known' short short'
      simp [alone] at valued
    | equated _ _ _ => exact absurd rfl first
    | joined known' short' _ _ => cases same_short known known' short short'; exact ⟨rfl, rfl⟩

/-- The letters of one word do not begin with a dash, or the word would be a long option. -/
theorem Letters.first_ne_dash {c : Char} {cs : List Char} {given : List Occurrence} {waiting : Option Spec}
    (h : Letters (c :: cs) given waiting) : c ≠ '-' := by
  rintro rfl
  cases h with
  | flag known short | bare known short | equated known short | joined known short =>
    exact short_ne_dash _ known short

/-- A word of two dashes is a long option, with its value or without. -/
theorem Word.after_dashes {body : List Char} {given : List Occurrence} {waiting : Option Spec}
    (h : Word ('-' :: '-' :: body) given waiting) :
    (∃ o, o.WellFormed ∧ o.line = body ∧ given = [o] ∧ waiting = none) ∨
      ∃ o ∈ specs, o.value.isSome ∧ o.long.toList = body ∧ given = [] ∧ waiting = some o := by
  generalize htext : '-' :: '-' :: body = text at h
  cases h with
  | long formed => exact .inl ⟨_, formed, by simpa using htext.symm, rfl, rfl⟩
  | bare known valued => exact .inr ⟨_, known, valued, by simpa using htext.symm, rfl, rfl⟩
  | letters read =>
    obtain ⟨rfl, -⟩ : '-' = _ ∧ body = _ := by simpa using htext
    exact absurd rfl read.first_ne_dash

theorem Word.unique {text : List Char} {given given' : List Occurrence} {waiting waiting' : Option Spec}
    (h : Word text given waiting) (h' : Word text given' waiting') : given = given' ∧ waiting = waiting' := by
  cases h with
  | long formed =>
    obtain ⟨p, formed', hp, rfl, rfl⟩ | ⟨p, known, valued, hp, rfl, rfl⟩ := h'.after_dashes
    · exact ⟨congrArg (List.cons · []) (Occurrence.line_injective formed.known formed'.known hp.symm), rfl⟩
    · exact absurd hp.symm (formed.line_ne_long known valued)
  | bare known valued =>
    obtain ⟨p, formed', hp, rfl, rfl⟩ | ⟨p, known', -, hp, rfl, rfl⟩ := h'.after_dashes
    · exact absurd hp (formed'.line_ne_long known valued)
    · exact ⟨rfl, congrArg some (long_injective _ known _ known' (String.toList_injective hp.symm))⟩
  | letters read =>
    cases h' with
    | long _ | bare _ _ => exact absurd rfl read.first_ne_dash
    | letters read' => exact read.unique read'

theorem Word.not_isValue {text : String} {given : List Occurrence} {waiting : Option Spec}
    (h : Word text.toList given waiting) : ¬IsValue text := by
  intro hvalue
  generalize htext : text.toList = cs at h
  cases h <;> exact hvalue _ _ htext

/-- Two dashes alone are no word, because no option has an empty name. -/
theorem not_word_dashes {given : List Occurrence} {waiting : Option Spec} :
    ¬Word "--".toList given waiting := by
  intro h
  obtain ⟨o, formed, hline, -, -⟩ | ⟨o, known, -, hlong, -, -⟩ := (h : Word ['-', '-'] given waiting).after_dashes
  · exact long_ne_nil _ formed.known (List.append_eq_nil_iff.mp hline).1
  · exact long_ne_nil _ known hlong

/-- What stands first on a command line is no value. -/
theorem Spells.head_not_isValue {text : String} {rest : List String} {given : List Occurrence}
    (h : Spells (text :: rest) given) : ¬IsValue text := by
  cases h with
  | ended => exact fun hvalue => hvalue '-' [] rfl
  | whole word _ | followed word _ _ => exact word.not_isValue

theorem Spells.unique {arguments : List String} {given given' : List Occurrence} (h : Spells arguments given)
    (h' : Spells arguments given') : given = given' := by
  induction h generalizing given' with
  | nothing => cases h'; rfl
  | ended =>
    cases h' with
    | ended => rfl
    | whole word _ => exact absurd word not_word_dashes
  | whole word rest ih =>
    cases h' with
    | ended => exact absurd word not_word_dashes
    | whole word' rest' => rw [(word.unique word').1, ih rest']
    | followed word' _ _ => simpa using (word.unique word').2
  | followed word plain rest ih =>
    cases h' with
    | whole word' _ => simpa using (word.unique word').2
    | followed word' _ rest' =>
      obtain ⟨rfl, hoption⟩ := word.unique word'
      cases hoption
      rw [ih rest']

end ScreenLocker.Options
