import ScreenLocker.Options.Parser
import ScreenLocker.Proofs.CommandLine

/-! The reader reads what a command line says. If it comes to a result, the arguments spell options, and every
field of the result is what these options say about it. -/

namespace ScreenLocker.Options

/-- What reading comes to, without the log. -/
def Parse.outcome (x : Parse α) : Except UsageError α := x.run.value

namespace Parse

@[simp] theorem outcome_pure (a : α) : outcome (pure a) = .ok a := rfl

@[simp] theorem outcome_throw (e : UsageError) : outcome (throw e : Parse α) = .error e := rfl

theorem outcome_bind (x : Parse α) (f : α → Parse β) : (x >>= f).outcome = x.outcome >>= (outcome <| f ·) := by
  change (ExceptT.bindCont f x.run.value).value = Except.bind x.run.value _
  cases x.run.value <;> rfl

@[simp] theorem bind_ok {x : Parse α} {f : α → Parse β} {b : β} :
    (x >>= f).outcome = .ok b ↔ ∃ a, x.outcome = .ok a ∧ (f a).outcome = .ok b := by
  rw [outcome_bind]
  cases x.outcome <;> simp [Bind.bind, Except.bind]

@[simp] theorem map_ok {f : α → β} {x : Parse α} {b : β} :
    (f <$> x).outcome = .ok b ↔ ∃ a, x.outcome = .ok a ∧ f a = b := by
  rw [map_eq_pure_bind, bind_ok]
  simp

end Parse

/-- The color that a text stands for. -/
def readColor (text : String) : Color := (Color.parseLenient text).value

/-- The fields of a command line are what the given options say: a flag is set if it is given at all, any other
option has the value that it was given last. -/
structure Says (given : List Occurrence) (c : CommandLine) : Prop where
  debug : c.debug = isGiven .debug given
  ignoreEmptyPassword : c.ignoreEmptyPassword = isGiven .ignoreEmptyPassword given
  daemonize : c.daemonize = isGiven .daemonize given
  config : c.config = lastValue .config given
  passwordHashFile : c.passwordHashFile = lastValue .passwordHashFile given
  readyFd : (lastValue .readyFd given).mapM readInt32 = .ok c.readyFd
  color : c.color = (lastValue .color given).map readColor
  verifyingColor : c.verifyingColor = (lastValue .verifyingColor given).map readColor
  wrongColor : c.wrongColor = (lastValue .wrongColor given).map readColor
  clearedColor : c.clearedColor = (lastValue .clearedColor given).map readColor

namespace Scan

/-- A long option ends at the first equals sign, or has none. -/
theorem cut_at_equals (body : List Char) :
    (body.dropWhile (· ≠ '=') = [] ∧ body.takeWhile (· ≠ '=') = body) ∨
      ∃ value, body.dropWhile (· ≠ '=') = '=' :: value ∧ body.takeWhile (· ≠ '=') ++ '=' :: value = body := by
  have hbody := List.takeWhile_append_dropWhile (p := fun c => decide (c ≠ '=')) (l := body)
  cases hrest : body.dropWhile (· ≠ '=') with
  | nil => exact .inl ⟨rfl, by rwa [hrest, List.append_nil] at hbody⟩
  | cons c value =>
    have hne : body.dropWhile (· ≠ '=') ≠ [] := by simp only [hrest, ne_eq, reduceCtorEq, not_false_eq_true]
    have hc := List.head_dropWhile_not (fun c => decide (c ≠ '=')) hne
    simp only [hrest, List.head_cons, decide_eq_false_iff_not, not_not] at hc
    rw [hrest, hc] at hbody
    exact .inr ⟨value, by rw [hc], hbody⟩

/-- The reader has read the given options, and may have left the last without its value. -/
inductive Stands : Scan → (given : List Occurrence) → (waiting : Option Spec) → Prop where
  | settled {given : List Occurrence} (said : Says given c) : Stands ⟨c, none, false⟩ given none
  | waiting {given : List Occurrence} {option : Spec} (known : option ∈ specs) (valued : option.value.isSome)
      (said : Says given c) : Stands ⟨c, some (option, none), false⟩ given (some option)
  | owing {given : List Occurrence} {option : Spec} (known : option ∈ specs) (valued : option.value.isSome)
      (said : Says given c) : Stands ⟨c, some (option, some value), false⟩ (given ++ [⟨option, some value⟩]) none

variable {s s' : Scan} {c c' : CommandLine} {option : Spec} {given : List Occurrence}

theorem outcome_parseColor (value : String) : (parseColor value).outcome = .ok (readColor value) := rfl

theorem outcome_parsePath (h : (parsePath option value).outcome = .ok path) : path = value := by
  unfold parsePath at h
  split at h <;> simp_all

theorem outcome_parseNumber (h : (parseNumber option value).outcome = .ok n) : readInt32 value = .ok n := by
  unfold parseNumber at h
  split at h <;> simp_all

@[simp] theorem outcome_fail (e : UsageError) (s : Scan) : (fail e s : Parse α).outcome = .error e := rfl

/-- A value counts as the last one of its option. -/
theorem accept_said (known : option ∈ specs) (valued : option.value.isSome) (h : Says given c)
    (hr : (accept option value c).outcome = .ok c') : Says (given ++ [⟨option, some value⟩]) c' := by
  have hflag := (isFlag_iff option known).not.mp (Option.isSome_iff_ne_none.mp valued)
  obtain ⟨hdebug, hempty, hdaemonize, hconfig, hhash, hready, hcolor, hverifying, hwrong, hcleared⟩ := h
  cases hname : option.name with
  | debug | ignoreEmptyPassword | daemonize | help | version => simp [hname] at hflag
  | config | passwordHashFile =>
    obtain ⟨path, hpath, rfl⟩ : ∃ path, (parsePath option value).outcome = .ok path ∧ _ = c' := by
      simpa [accept, hname] using hr
    obtain rfl := outcome_parsePath hpath
    constructor <;> simp [*]
  | readyFd =>
    obtain ⟨n, hn, rfl⟩ : ∃ n, (parseNumber option value).outcome = .ok n ∧ _ = c' := by
      simpa [accept, hname] using hr
    have hread := outcome_parseNumber hn
    constructor <;> simp [*]
  | color | verifyingColor | wrongColor | clearedColor =>
    obtain rfl : _ = c' := by simpa [accept, hname, outcome_parseColor] using hr
    constructor <;> simp [*]

namespace Stands

variable {waiting : Option Spec} (h : Stands s given waiting)

include h

theorem settle (trailing : Bool) (hr : (Scan.settle { s with trailing }).outcome = .ok s') :
    waiting = none ∧ ∃ c, s' = ⟨c, none, trailing⟩ ∧ Says given c := by
  cases h with
  | settled said =>
    obtain rfl : _ = s' := by simpa [Scan.settle] using hr
    exact ⟨rfl, _, rfl, said⟩
  | waiting => simp [Scan.settle] at hr
  | owing known valued said =>
    obtain ⟨c', hc', rfl⟩ : ∃ c', (accept _ _ _).outcome = .ok c' ∧ _ = s' := by simpa [Scan.settle] using hr
    exact ⟨rfl, c', rfl, accept_said known valued said hc'⟩

/-- An option ends the wait for the value of an earlier one. -/
theorem settle_bind {next : Scan → Parse Scan} (hr : (s.settle >>= next).outcome = .ok s') :
    waiting = none ∧ ∃ c, Says given c ∧ (next ⟨c, none, false⟩).outcome = .ok s' := by
  obtain ⟨settled, hsettled, hr⟩ := Parse.bind_ok.mp hr
  have htrailing : s.trailing = false := by cases h <;> rfl
  obtain ⟨hwaiting, c, rfl, said⟩ := h.settle _ hsettled
  exact ⟨hwaiting, c, said, htrailing ▸ hr⟩

theorem flag (known : option ∈ specs) (alone : option.value = none) (hr : (s.flag option).outcome = .ok s') :
    waiting = none ∧ Stands s' (given ++ [⟨option, none⟩]) none := by
  obtain ⟨rfl, c, said, hr⟩ := h.settle_bind hr
  refine ⟨rfl, ?_⟩
  have hflag := (isFlag_iff option known).mp alone
  obtain ⟨hdebug, hempty, hdaemonize, hconfig, hhash, hready, hcolor, hverifying, hwrong, hcleared⟩ := said
  cases hname : option.name with
  | config | passwordHashFile | readyFd | color | verifyingColor | wrongColor | clearedColor =>
    simp [hname] at hflag
  | debug | ignoreEmptyPassword | daemonize =>
    obtain rfl : _ = s' := by simpa [hname] using hr
    exact .settled (by constructor <;> simp [*])
  | help | version => simp [hname] at hr

theorem attached {value : String} (known : option ∈ specs) (valued : option.value.isSome)
    (hr : (s.valued option (some value)).outcome = .ok s') :
    waiting = none ∧ Stands s' (given ++ [⟨option, some value⟩]) none := by
  obtain ⟨rfl, c, said, hr⟩ := h.settle_bind hr
  obtain ⟨c', hc', rfl⟩ : ∃ c', (accept _ _ _).outcome = .ok c' ∧ _ = s' := by simpa using hr
  exact ⟨rfl, .settled (accept_said known valued said hc')⟩

theorem named (known : option ∈ specs) (valued : option.value.isSome)
    (hr : (s.valued option none).outcome = .ok s') : waiting = none ∧ Stands s' given (some option) := by
  obtain ⟨rfl, c, said, hr⟩ := h.settle_bind hr
  obtain rfl : _ = s' := by simpa using hr
  exact ⟨rfl, .waiting known valued said⟩

theorem long {body : List Char} (hr : (s.long body).outcome = .ok s') :
    waiting = none ∧ ∃ more left, Word ('-' :: '-' :: body) more left ∧ Stands s' (given ++ more) left := by
  cases hoption : ofLong? (String.ofList (body.takeWhile (· ≠ '='))) with
  | none =>
    simp only [Scan.long, hoption, outcome_fail] at hr
    cases hr
  | some option =>
    obtain ⟨known, hlong⟩ := ofLong?_eq_some hoption
    have hname : option.long.toList = body.takeWhile (· ≠ '=') := by rw [hlong, String.toList_ofList]
    obtain ⟨hrest, hbody⟩ | ⟨value, hrest, hbody⟩ := cut_at_equals body <;> rw [← hname] at hbody
    · cases hvalue : option.value with
      | none =>
        simp only [Scan.long, hoption, hrest, hvalue] at hr
        obtain ⟨hwaiting, hs'⟩ := h.flag known hvalue hr
        have hline : Occurrence.line ⟨option, none⟩ = body := by simp [Occurrence.line, hbody]
        exact ⟨hwaiting, _, _, hline ▸ .long ⟨known, by simp [hvalue]⟩, hs'⟩
      | some _ =>
        simp only [Scan.long, hoption, hrest, hvalue] at hr
        have valued : option.value.isSome := by simp [hvalue]
        obtain ⟨hwaiting, hs'⟩ := h.named known valued hr
        exact ⟨hwaiting, [], _, hbody ▸ Word.bare known valued, by simpa using hs'⟩
    · cases hvalue : option.value with
      | none =>
        simp only [Scan.long, hoption, hrest, hvalue, outcome_fail] at hr
        cases hr
      | some _ =>
        simp only [Scan.long, hoption, hrest, hvalue] at hr
        have valued : option.value.isSome := by simp [hvalue]
        obtain ⟨hwaiting, hs'⟩ := h.attached known valued hr
        have hline : Occurrence.line ⟨option, some (String.ofList value)⟩ = body := by
          simp [Occurrence.line, hbody]
        exact ⟨hwaiting, _, _, hline ▸ .long ⟨known, by simp [hvalue]⟩, hs'⟩

/-- By induction on the letters: after a flag the reader stands where no option waits. -/
theorem short {letters : List Char} (hfirst : letters = [] → waiting = none)
    (hr : (s.short letters).outcome = .ok s') :
    waiting = none ∧ ∃ more left, Letters letters more left ∧ Stands s' (given ++ more) left := by
  induction letters generalizing s given waiting with
  | nil =>
    obtain rfl : s = s' := by simpa [Scan.short] using hr
    exact ⟨hfirst rfl, [], waiting, hfirst rfl ▸ .none, by simpa using h⟩
  | cons c rest ih =>
    cases hoption : ofShort? c with
    | none => simp [Scan.short, hoption] at hr
    | some option =>
      obtain ⟨known, hshort⟩ := ofShort?_eq_some hoption
      cases hvalue : option.value with
      | none =>
        simp only [Scan.short, hoption, hvalue] at hr
        obtain ⟨s₁, hs₁, hr⟩ := Parse.bind_ok.mp hr
        obtain ⟨hwaiting, hflag⟩ := h.flag known hvalue hs₁
        obtain ⟨-, more, left, hrest, hs'⟩ := ih hflag (fun _ => rfl) hr
        exact ⟨hwaiting, _, left, .flag known hshort hvalue hrest, by simpa using hs'⟩
      | some _ =>
        have valued : option.value.isSome := by simp [hvalue]
        simp only [Scan.short, hoption, hvalue] at hr
        split at hr
        · obtain ⟨hwaiting, hs'⟩ := h.named known valued hr
          exact ⟨hwaiting, [], _, .bare known hshort valued, by simpa using hs'⟩
        · obtain ⟨hwaiting, hs'⟩ := h.attached known valued hr
          exact ⟨hwaiting, _, _, .equated known hshort valued, hs'⟩
        · rename_i hne hequals
          obtain _ | ⟨d, value⟩ := rest
          · exact absurd rfl hne
          have hd : d ≠ '=' := fun hd => hequals value (hd ▸ rfl)
          obtain ⟨hwaiting, hs'⟩ := h.attached known valued hr
          exact ⟨hwaiting, _, _, .joined known hshort valued hd, hs'⟩

/-- The argument fills the wait for a value, and there is one only if an option waits. -/
theorem plain {text : String} (hr : (s.plain text).outcome = .ok s') :
    ∃ option, waiting = some option ∧ Stands s' (given ++ [⟨option, some text⟩]) none := by
  cases h with
  | settled | owing => simp [Scan.plain] at hr
  | waiting known valued said =>
    obtain rfl : _ = s' := by simpa [Scan.plain] using hr
    exact ⟨_, rfl, .owing known valued said⟩

theorem argument {text : String} (hr : (s.argument text).outcome = .ok s') :
    (text = "--" ∧ s' = { s with trailing := true }) ∨
      (waiting = none ∧ ∃ more left, Word text.toList more left ∧ Stands s' (given ++ more) left) ∨
      ∃ option, waiting = some option ∧ IsValue text ∧ Stands s' (given ++ [⟨option, some text⟩]) none := by
  have htrailing : s.trailing = false := by cases h <;> rfl
  simp only [Scan.argument, htrailing, Bool.false_eq_true, if_false] at hr
  split at hr
  · rename_i htext
    exact .inl ⟨String.toList_injective htext, by simpa using hr.symm⟩
  · rename_i body hbody htext
    rw [htext]
    exact .inr (.inl (h.long hr))
  · rename_i htext
    obtain ⟨option, hwaiting, hs'⟩ := h.plain hr
    exact .inr (.inr ⟨option, hwaiting, by simp [IsValue, htext], hs'⟩)
  · rename_i letters _ hdashes hdash htext
    obtain _ | ⟨c, letters⟩ := letters
    · exact absurd rfl hdash
    rw [htext]
    obtain ⟨hwaiting, more, left, hletters, hs'⟩ := h.short (by simp) hr
    exact .inr (.inl ⟨hwaiting, more, left, .letters hletters, hs'⟩)
  · obtain ⟨option, hwaiting, hs'⟩ := h.plain hr
    rename_i hno
    exact .inr (.inr ⟨option, hwaiting, fun _ _ => hno _, hs'⟩)

end Stands

/-- Once options are over, every argument is one too many. -/
theorem argument_trailing (text : String) (ht : s.trailing = true) : (s.argument text).outcome ≠ .ok s' := by
  simp only [argument, ht, if_true, plain]
  split <;> simp

/-- What further arguments give where an option may wait for its value. -/
def Completes : (waiting : Option Spec) → List String → List Occurrence → Prop
  | none, arguments, more => Spells arguments more
  | some option, arguments, more => ∃ value rest later,
      arguments = value :: rest ∧ IsValue value ∧ Spells rest later ∧ more = ⟨option, some value⟩ :: later

/-- By induction on the arguments: each is the value that is waited for, or a word of options, or ends them. -/
theorem Stands.foldlM {arguments : List String} {waiting : Option Spec} (h : Stands s given waiting)
    (hr : (arguments.foldlM (fun s text => Scan.argument text s) s >>= Scan.settle).outcome = .ok s') :
    ∃ more, Completes waiting arguments more ∧ Says (given ++ more) s'.given := by
  induction arguments generalizing s given waiting with
  | nil =>
    obtain ⟨rfl, c, rfl, said⟩ := h.settle s.trailing (by simpa using hr)
    exact ⟨[], .nothing, by simpa using said⟩
  | cons text rest ih =>
    rw [List.foldlM_cons, bind_assoc] at hr
    obtain ⟨s₁, hs₁, hr⟩ := Parse.bind_ok.mp hr
    obtain ⟨rfl, rfl⟩ | ⟨rfl, more, left, hword, h₁⟩ | ⟨option, rfl, hvalue, h₁⟩ := h.argument hs₁
    · cases rest with
      | nil =>
        obtain ⟨rfl, c, rfl, said⟩ := h.settle true (by simpa using hr)
        exact ⟨[], .ended, by simpa using said⟩
      | cons next rest =>
        rw [List.foldlM_cons, bind_assoc] at hr
        obtain ⟨s₂, hs₂, -⟩ := Parse.bind_ok.mp hr
        exact absurd hs₂ (argument_trailing next rfl)
    · obtain ⟨later, hlater, said⟩ := ih h₁ hr
      rw [List.append_assoc] at said
      cases left with
      | none => exact ⟨_, .whole hword hlater, said⟩
      | some option =>
        obtain ⟨value, rest, later, rfl, hvalue, hlater, rfl⟩ := hlater
        exact ⟨_, .followed hword hvalue hlater, said⟩
    · obtain ⟨later, hlater, said⟩ := ih h₁ hr
      exact ⟨_, ⟨text, rest, later, rfl, hvalue, hlater, rfl⟩, by simpa using said⟩

end Scan

/-- What no option gives is not there. -/
theorem says_nothing : Says [] {} := by
  constructor <;> rfl

/-- A result is what the arguments say. -/
theorem parse_said {arguments : List String} {c : CommandLine} (h : (parse arguments).value = .ok c) :
    ∃ given, Spells arguments given ∧ Says given c := by
  obtain ⟨s, hs, hr⟩ := Parse.bind_ok.mp h
  obtain ⟨s', hs', rfl⟩ : ∃ s', s.settle.outcome = .ok s' ∧ s'.given = c := by simpa using hr
  exact Scan.Stands.foldlM (.settled says_nothing) (Parse.bind_ok.mpr ⟨s, hs, hs'⟩)

end ScreenLocker.Options
