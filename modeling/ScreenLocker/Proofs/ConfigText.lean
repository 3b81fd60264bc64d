import Mathlib.Data.Bool.AllAny
import Mathlib.Data.List.Basic
import Mathlib.Data.List.TakeWhile
import Mathlib.Logic.Relation
import ScreenLocker.Settings.Lines

/-! The text of a config file is its lines, each for itself. Texts put together with a newline give the options of
the one and then those of the other; lines that say nothing may stand anywhere, and white space at either end of a
line; and options written a line each are read back. -/

namespace ScreenLocker

namespace Text

theorem trim_blanks_append {blanks : List Char} (h : ∀ c ∈ blanks, isBlank c) (line : List Char) :
    trim (blanks ++ line) = trim line := by
  rw [trim, trimStart, List.dropWhile_append_of_pos h]
  rfl

theorem trimEnd_append_blanks {blanks : List Char} (h : ∀ c ∈ blanks, isBlank c) (line : List Char) :
    trimEnd (line ++ blanks) = trimEnd line := by
  rw [trimEnd, List.reverse_append, List.dropWhile_append_of_pos (by simpa using h)]
  rfl

theorem trim_append_blanks {blanks : List Char} (h : ∀ c ∈ blanks, isBlank c) (line : List Char) :
    trim (line ++ blanks) = trim line := by
  rw [trim, trim, trimStart, trimStart, List.dropWhile_append]
  split
  · rename_i hline
    rw [List.isEmpty_iff.mp hline, List.dropWhile_eq_nil_iff.mpr h]
  · exact trimEnd_append_blanks h _

theorem trimEnd_cons {c : Char} (h : ¬isBlank c) (rest : List Char) : trimEnd (c :: rest) = c :: trimEnd rest := by
  have hlast : [c].dropWhile isBlank = [c] := List.dropWhile_cons_of_neg h
  rw [trimEnd, trimEnd, List.reverse_cons, List.dropWhile_append, hlast]
  split
  · rename_i hrest
    rw [List.isEmpty_iff.mp hrest]
    rfl
  · rw [List.reverse_append]
    rfl

/-- A line that is blank, or has a number sign before all else, is so when it is trimmed. -/
theorem trim_eq_nil_or_head {line : List Char} (h : ∀ c ∈ line.find? (!isBlank ·), c = '#') :
    trim line = [] ∨ (trim line).head? = some '#' := by
  rw [List.find?_not_eq_head?_dropWhile] at h
  unfold trim trimStart
  cases hstart : line.dropWhile isBlank with
  | nil => exact .inl rfl
  | cons c rest =>
    obtain rfl : c = '#' := h c (by rw [hstart]; rfl)
    rw [trimEnd_cons (by decide)]
    exact .inr rfl

theorem trim_eq_self {line : List Char} (hstart : ∀ c ∈ line.head?, ¬isBlank c)
    (hend : ∀ c ∈ line.getLast?, ¬isBlank c) : trim line = line := by
  have hkept : ∀ cs : List Char, (∀ c ∈ cs.head?, ¬isBlank c) → cs.dropWhile isBlank = cs := by
    rintro (_ | ⟨c, cs⟩) hhead
    · rfl
    · exact List.dropWhile_cons_of_neg (hhead c rfl)
  rw [trim, trimStart, hkept line hstart, trimEnd, hkept line.reverse (by simpa using hend), List.reverse_reverse]

end Text

namespace Settings

open ScreenLocker.Text (isBlank trim)

theorem lineOption?_eq (line : List Char) :
    lineOption? line =
      if trim line ≠ [] ∧ (trim line).head? ≠ some '#' then some ('-' :: '-' :: trim line) else none := by
  unfold lineOption?
  split
  · simp [*]
  · simp [*]
  · rename_i hne hno
    have hhead : (trim line).head? ≠ some '#' := fun h =>
      let ⟨rest, hrest⟩ := List.head?_eq_some_iff.mp h
      hno rest hrest
    rw [if_pos ⟨hne, hhead⟩]
    rfl

theorem lineOption?_congr {line line' : List Char} (h : trim line = trim line') :
    lineOption? line = lineOption? line' := by
  rw [lineOption?_eq, lineOption?_eq, h]

theorem lineOption?_silent {line : List Char} (h : ∀ c ∈ line.find? (!isBlank ·), c = '#') :
    lineOption? line = none := by
  rw [lineOption?_eq, if_neg]
  rintro ⟨hne, hhead⟩
  exact (Text.trim_eq_nil_or_head h).elim hne hhead

theorem splitLines_eq_splitOn (cs : List Char) : splitLines cs = cs.splitOn '\n' := by
  induction cs with
  | nil => rfl
  | cons c cs ih =>
    rw [splitLines, List.foldr_cons, ← splitLines, ih, List.splitOn_cons_eq_if_modifyHead]
    by_cases hc : c = '\n'
    · rw [if_pos hc, if_pos (beq_iff_eq.mpr hc)]
    · rw [if_neg hc, if_neg (mt beq_iff_eq.mp hc)]
      obtain ⟨line, rest, hlines⟩ := List.exists_cons_of_ne_nil (List.splitOn_ne_nil '\n' cs)
      rw [hlines]
      rfl

/-- A text is a line, or a line with a line feed after it and then a text. -/
theorem line_cases (text : List Char) :
    '\n' ∉ text ∨ ∃ line rest, text = line ++ '\n' :: rest ∧ '\n' ∉ line := by
  by_cases hfeed : '\n' ∈ text
  · exact .inr (List.eq_append_cons_of_mem hfeed)
  · exact .inl hfeed

theorem line_induction {P : List Char → Prop} (last : ∀ line, '\n' ∉ line → P line)
    (more : ∀ line rest, '\n' ∉ line → P rest → P (line ++ '\n' :: rest)) (text : List Char) : P text := by
  induction hlength : text.length using Nat.strong_induction_on generalizing text with
  | _ n ih =>
    rcases line_cases text with hline | ⟨line, rest, rfl, hline⟩
    · exact last text hline
    · have hshorter : rest.length < n := by
        rw [← hlength, List.length_append, List.length_cons]
        omega
      exact more line rest hline (ih rest.length hshorter rest rfl)

theorem lineOptions_feed (a b : List Char) : lineOptions (a ++ '\n' :: b) = lineOptions a ++ lineOptions b := by
  simp only [lineOptions, splitLines_eq_splitOn, List.splitOn_append_cons_self, List.filterMap_append]

theorem lineOptions_line {line : List Char} (h : '\n' ∉ line) : lineOptions line = (lineOption? line).toList := by
  rw [lineOptions, splitLines_eq_splitOn, List.splitOn_eq_singleton h]
  cases hoption : lineOption? line <;> simp [hoption]

section Blanks

variable {blanks : List Char} (hblank : ∀ c ∈ blanks, isBlank c) (hline : '\n' ∉ blanks)

include hblank hline

theorem lineOptions_blanks_append (text : List Char) : lineOptions (blanks ++ text) = lineOptions text := by
  have hfirst (line : List Char) (h : '\n' ∉ line) : lineOptions (blanks ++ line) = lineOptions line := by
    rw [lineOptions_line (by simp [hline, h]), lineOptions_line h,
      lineOption?_congr (Text.trim_blanks_append hblank line)]
  rcases line_cases text with h | ⟨line, rest, rfl, h⟩
  · exact hfirst text h
  · rw [← List.append_assoc, lineOptions_feed, lineOptions_feed, hfirst line h]

/-- By induction on the lines: the white space comes to stand after the last of them. -/
theorem lineOptions_append_blanks (text : List Char) : lineOptions (text ++ blanks) = lineOptions text := by
  induction text using line_induction with
  | last line h =>
    rw [lineOptions_line (by simp [hline, h]), lineOptions_line h,
      lineOption?_congr (Text.trim_append_blanks hblank line)]
  | more line rest _ ih =>
    rw [List.append_assoc, List.cons_append, lineOptions_feed, lineOptions_feed, ih]

end Blanks

/-- A line without the carriage return that belongs to its end. -/
def withoutReturn (line : List Char) : List Char := if line.getLast? = some '\r' then line.dropLast else line

/-- The lines of a text. A line feed ends a line, with the carriage return before it if there is one; the last line
needs no end, and is none if nothing is in it. -/
def lines (text : String) : List (List Char) :=
  let pieces := text.toList.splitOn '\n'
  pieces.dropLast.map withoutReturn ++ pieces.getLast?.toList.filter (· ≠ [])

theorem lineOption?_withoutReturn (line : List Char) : lineOption? (withoutReturn line) = lineOption? line := by
  unfold withoutReturn
  split
  · rename_i hreturn
    obtain ⟨content, rfl⟩ := List.getLast?_eq_some_iff.mp hreturn
    rw [List.dropLast_concat]
    exact lineOption?_congr (Text.trim_append_blanks (List.forall_mem_singleton.mpr (by decide)) content).symm
  · rfl

/-- Whether a carriage return counts to the end of a line or to the white space in it makes no difference. -/
theorem lineOptions_eq_lines (text : String) : lineOptions text.toList = (lines text).filterMap lineOption? := by
  rw [lineOptions, splitLines_eq_splitOn, lines]
  obtain ⟨front, last, hpieces⟩ := (List.eq_nil_or_concat' (text.toList.splitOn '\n')).resolve_left
    (List.splitOn_ne_nil '\n' text.toList)
  have hfront : (front.map withoutReturn).filterMap lineOption? = front.filterMap lineOption? := by
    rw [List.filterMap_map]
    congr 1
    exact funext lineOption?_withoutReturn
  have hlast : ([last].filter (· ≠ [])).filterMap lineOption? = [last].filterMap lineOption? := by
    cases last <;> rfl
  simp only [hpieces, List.dropLast_concat, List.getLast?_concat, Option.toList_some, List.filterMap_append, hfront,
    hlast]

example : lines "a\r\r\n\nb\r" = [['a', '\r'], [], ['b', '\r']] := by decide

/-- What may stand between two lines. -/
def newlines : List String := ["\n", "\r\n"]

/-- A line starts behind the text. -/
def StartsLine (before : String) : Prop := before = "" ∨ ∃ text, ∃ newline ∈ newlines, before = text ++ newline

/-- A line ends in front of the text. -/
def EndsLine (after : String) : Prop := after = "" ∨ ∃ newline ∈ newlines, ∃ text, after = newline ++ text

/-- White space within a line. -/
def Blanks (s : String) : Prop := (∀ c ∈ s.toList, isBlank c) ∧ '\n' ∉ s.toList

/-- A line that says nothing: it is blank, or a number sign comes before all else in it. -/
def Silent (line : String) : Prop := '\n' ∉ line.toList ∧ ∀ c ∈ line.toList.find? (!isBlank ·), c = '#'

/-- The second text is the first with one more line that says nothing, or with more white space at the start or the
end of a line. -/
inductive Embellishes : String → String → Prop
  | lineBefore {before line newline : String} (after : String) :
    StartsLine before → Silent line → newline ∈ newlines →
      Embellishes (before ++ after) (before ++ (line ++ newline ++ after))
  | lineAfter {line newline after : String} (before : String) :
    EndsLine after → Silent line → newline ∈ newlines →
      Embellishes (before ++ after) (before ++ newline ++ line ++ after)
  | lastLine {before line : String} : StartsLine before → Silent line → Embellishes before (before ++ line)
  | blanksBefore {before blanks : String} (after : String) :
    StartsLine before → Blanks blanks → Embellishes (before ++ after) (before ++ (blanks ++ after))
  | blanksAfter {blanks after : String} (before : String) :
    EndsLine after → Blanks blanks → Embellishes (before ++ after) (before ++ blanks ++ after)

/-- What an option looks like on a line that has nothing else. -/
structure Bare (option : String) : Prop where
  ne_empty : option ≠ ""
  one_line : '\n' ∉ option.toList
  start : ∀ c ∈ option.toList.head?, ¬isBlank c
  stop : ∀ c ∈ option.toList.getLast?, ¬isBlank c
  not_comment : option.toList.head? ≠ some '#'

theorem argumentsOfText_newline {newline : String} (h : newline ∈ newlines) (a b : String) :
    argumentsOfText (a ++ newline ++ b) = argumentsOfText a ++ argumentsOfText b := by
  unfold argumentsOfText
  rw [String.toList_append, String.toList_append, ← List.map_append]
  congr 1
  rcases List.mem_cons.mp h with rfl | h
  · rw [List.append_assoc]
    exact lineOptions_feed _ _
  · obtain rfl := List.mem_singleton.mp h
    have hreturn : a.toList ++ "\r\n".toList ++ b.toList = (a.toList ++ ['\r']) ++ '\n' :: b.toList := by simp
    rw [hreturn, lineOptions_feed,
      lineOptions_append_blanks (List.forall_mem_singleton.mpr (by decide)) (by decide)]

theorem argumentsOfText_empty : argumentsOfText "" = [] := rfl

theorem argumentsOfText_blanks_append {blanks : String} (h : Blanks blanks) (text : String) :
    argumentsOfText (blanks ++ text) = argumentsOfText text := by
  rw [argumentsOfText, String.toList_append, lineOptions_blanks_append h.1 h.2, argumentsOfText]

theorem argumentsOfText_append_blanks {blanks : String} (h : Blanks blanks) (text : String) :
    argumentsOfText (text ++ blanks) = argumentsOfText text := by
  rw [argumentsOfText, String.toList_append, lineOptions_append_blanks h.1 h.2, argumentsOfText]

theorem Silent.argumentsOfText_eq {line : String} (h : Silent line) : argumentsOfText line = [] := by
  rw [argumentsOfText, lineOptions_line h.1, lineOption?_silent h.2]
  rfl

theorem Bare.argumentsOfText_eq {option : String} (h : Bare option) : argumentsOfText option = ["--" ++ option] := by
  have htrim := Text.trim_eq_self h.start h.stop
  have hne : option.toList ≠ [] := mt String.toList_eq_nil_iff.mp h.ne_empty
  rw [argumentsOfText, lineOptions_line h.one_line, lineOption?_eq, htrim, if_pos ⟨hne, h.not_comment⟩]
  simp [← String.toList_inj]

theorem StartsLine.argumentsOfText_append {before : String} (h : StartsLine before) (text : String) :
    argumentsOfText (before ++ text) = argumentsOfText before ++ argumentsOfText text := by
  obtain rfl | ⟨front, newline, hnewline, rfl⟩ := h
  · rw [String.empty_append, argumentsOfText_empty, List.nil_append]
  · have hended := argumentsOfText_newline hnewline front ""
    rw [String.append_empty, argumentsOfText_empty, List.append_nil] at hended
    rw [argumentsOfText_newline hnewline, hended]

theorem EndsLine.argumentsOfText_append {after : String} (h : EndsLine after) (text : String) :
    argumentsOfText (text ++ after) = argumentsOfText text ++ argumentsOfText after := by
  obtain rfl | ⟨newline, hnewline, rest, rfl⟩ := h
  · rw [String.append_empty, argumentsOfText_empty, List.append_nil]
  · have hended := argumentsOfText_newline hnewline "" rest
    rw [String.empty_append, argumentsOfText_empty, List.nil_append] at hended
    rw [← String.append_assoc, argumentsOfText_newline hnewline, hended]

theorem Embellishes.argumentsOfText_eq {text longer : String} (h : Embellishes text longer) :
    argumentsOfText longer = argumentsOfText text := by
  cases h with
  | lineBefore after hstart hsilent hnewline =>
    rw [hstart.argumentsOfText_append, hstart.argumentsOfText_append, argumentsOfText_newline hnewline,
      hsilent.argumentsOfText_eq, List.nil_append]
  | lineAfter before hend hsilent hnewline =>
    rw [hend.argumentsOfText_append, hend.argumentsOfText_append, argumentsOfText_newline hnewline,
      hsilent.argumentsOfText_eq, List.append_nil]
  | lastLine hstart hsilent =>
    rw [hstart.argumentsOfText_append, hsilent.argumentsOfText_eq, List.append_nil]
  | blanksBefore after hstart hblanks =>
    rw [hstart.argumentsOfText_append, hstart.argumentsOfText_append, argumentsOfText_blanks_append hblanks]
  | blanksAfter before hend hblanks =>
    rw [hend.argumentsOfText_append, hend.argumentsOfText_append, argumentsOfText_append_blanks hblanks]

theorem argumentsOfText_embellished {text longer : String} (h : Relation.ReflTransGen Embellishes text longer) :
    argumentsOfText longer = argumentsOfText text := by
  induction h with
  | refl => rfl
  | tail _ step ih => exact step.argumentsOfText_eq.trans ih

theorem argumentsOfText_intercalate {options : List String} (h : ∀ o ∈ options, Bare o) {newline : String}
    (hnewline : newline ∈ newlines) :
    argumentsOfText (newline.intercalate options) = options.map ("--" ++ ·) := by
  induction options with
  | nil => rfl
  | cons option rest ih =>
    obtain ⟨hoption, hrest⟩ := List.forall_mem_cons.mp h
    cases rest with
    | nil => rw [String.intercalate_singleton, hoption.argumentsOfText_eq, List.map_singleton]
    | cons next rest =>
      rw [String.intercalate_cons_cons, argumentsOfText_newline hnewline, hoption.argumentsOfText_eq, ih hrest]
      rfl

/-- The options of a text are those of its lines, one by one. So texts with a newline between them give the options
of both in order; lines that say nothing and white space at the ends of lines do not matter, however many; and
options with newlines between them are read back, each after two dashes. -/
theorem lines_stand_alone :
    (∀ text, argumentsOfText text = ((lines text).filterMap lineOption?).map String.ofList) ∧
    (∀ newline ∈ newlines, ∀ a b,
      argumentsOfText (a ++ newline ++ b) = argumentsOfText a ++ argumentsOfText b) ∧
    (∀ text longer, Relation.ReflTransGen Embellishes text longer →
      argumentsOfText longer = argumentsOfText text) ∧
    ∀ options, (∀ o ∈ options, Bare o) → ∀ newline ∈ newlines,
      argumentsOfText (newline.intercalate options) = options.map ("--" ++ ·) :=
  ⟨fun text => congrArg (List.map String.ofList) (lineOptions_eq_lines text),
    fun _ hnewline => argumentsOfText_newline hnewline,
    fun _ _ => argumentsOfText_embellished,
    fun _ hoptions _ hnewline => argumentsOfText_intercalate hoptions hnewline⟩

/-- Two options, and the text of them with a comment and white space added step by step. -/
theorem embellished_options_read :
    let text := "color=ff0000\r\ndaemonize"
    let longer := "# colors\n  color=ff0000\t\r\ndaemonize"
    Relation.ReflTransGen Embellishes text longer ∧ argumentsOfText longer = argumentsOfText text ∧
      "\r\n" ∈ newlines ∧
      argumentsOfText (text ++ "\r\n" ++ longer) = argumentsOfText text ++ argumentsOfText longer ∧
      (∀ o ∈ ["color=ff0000", "daemonize"], Bare o) ∧
      argumentsOfText ("\r\n".intercalate ["color=ff0000", "daemonize"]) = ["--color=ff0000", "--daemonize"] := by
  intro text longer
  obtain ⟨-, hjoined, hsame, hback⟩ := lines_stand_alone
  have hcomment : Silent "# colors" := ⟨by decide, by rintro c ⟨⟩; rfl⟩
  have hindent : Blanks "  " := ⟨List.all_iff_forall_prop.mp (by decide), by decide⟩
  have htab : Blanks "\t" := ⟨List.all_iff_forall_prop.mp (by decide), by decide⟩
  have hsteps : Relation.ReflTransGen Embellishes text longer := by
    have hcommented : Embellishes text ("# colors\n" ++ text) :=
      @Embellishes.lineBefore "" "# colors" "\n" text (.inl rfl) hcomment (by decide)
    have hindented : Embellishes ("# colors\n" ++ text) ("# colors\n" ++ ("  " ++ text)) :=
      .blanksBefore text (.inr ⟨"# colors", "\n", by decide, rfl⟩) hindent
    have htabbed : Embellishes ("# colors\n" ++ ("  " ++ text)) longer :=
      @Embellishes.blanksAfter "\t" "\r\ndaemonize" "# colors\n  color=ff0000"
        (.inr ⟨"\r\n", by decide, "daemonize", rfl⟩) htab
    exact .tail (.tail (.single hcommented) hindented) htabbed
  have hbare : ∀ o ∈ ["color=ff0000", "daemonize"], Bare o := by
    intro o ho
    rcases List.mem_cons.mp ho with rfl | ho
    · exact ⟨by decide, by decide, by rintro c ⟨⟩; decide, by rintro c ⟨⟩; decide, by decide⟩
    · obtain rfl := List.mem_singleton.mp ho
      exact ⟨by decide, by decide, by rintro c ⟨⟩; decide, by rintro c ⟨⟩; decide, by decide⟩
  have hnewline : "\r\n" ∈ newlines := by decide
  exact ⟨hsteps, hsame text longer hsteps, hnewline, hjoined "\r\n" hnewline text longer, hbare,
    hback _ hbare "\r\n" hnewline⟩

end Settings

end ScreenLocker
