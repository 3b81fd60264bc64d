import ScreenLocker.Options.Merge
import ScreenLocker.Proofs.ConfigText
import ScreenLocker.Proofs.Reading

/-! What the config file can say against the command line. Its lines are read before the arguments, each as an
option of its own that neither takes an argument for its value nor keeps one from being read. Where both give an
option with a value the command line wins, and some settings are the command line's alone. -/

namespace ScreenLocker.Options

open Settings (splitLines lineOptions lineOption?_eq argumentsOfText configFile? readText readArguments mergedArguments)

/-- The lines of a config file that say something, without the blanks around them. -/
def contentLines (text : String) : List (List Char) :=
  ((splitLines text.toList).map Text.trim).filter fun line => line ≠ [] ∧ line.head? ≠ some '#'

/-- The argument that a line of a config file stands for. -/
def dashed (line : List Char) : String := String.ofList ('-' :: '-' :: line)

/-- The text of the config file; one that is not there or cannot be read says nothing. -/
def configText (files : FileTree) (env : HomeEnvironment) (c : CommandLine) : String :=
  match configFile? files env c.config with
  | none => ""
  | some path => (readText files path).toOption.getD ""

theorem argumentsOfText_eq (text : String) : argumentsOfText text = (contentLines text).map dashed := by
  unfold argumentsOfText lineOptions contentLines
  induction splitLines text.toList with
  | nil => rfl
  | cons line rest ih =>
    rw [List.filterMap_cons, List.map_cons, List.filter_cons, lineOption?_eq]
    by_cases hcontent : Text.trim line ≠ [] ∧ (Text.trim line).head? ≠ some '#'
    · rw [if_pos hcontent, if_pos (decide_eq_true hcontent), List.map_cons, List.map_cons, ih, dashed]
    · rw [if_neg hcontent, if_neg (mt of_decide_eq_true hcontent), ih]

/-- The file's arguments are its lines, each after two dashes. -/
theorem value_fileArguments (files : FileTree) (env : HomeEnvironment) (c : CommandLine) :
    (fileArguments files env c).value = (contentLines (configText files env c)).map dashed := by
  rw [← argumentsOfText_eq]
  unfold fileArguments configText
  cases configFile? files env c.config with
  | none => rfl
  | some path =>
    simp only [readArguments]
    cases readText files path <;> rfl

theorem ne_nil_of_mem_contentLines {text : String} {line : List Char} (h : line ∈ contentLines text) :
    line ≠ [] := by
  have hline := (List.mem_filter.mp h).2
  rintro rfl
  simp at hline

theorem not_isValue_dashed {line : List Char} : ¬IsValue (dashed line) :=
  fun h => h '-' line String.toList_ofList

/-- By induction on the lines: none of them can be the value of the one before, and the first of the arguments
cannot be a value either, since they say something without the file. -/
theorem Spells.after_lines {lines : List (List Char)} {arguments : List String} {own given : List Occurrence}
    (hlines : ∀ line ∈ lines, line ≠ []) (hown : Spells arguments own)
    (h : Spells (lines.map dashed ++ arguments) given) :
    ∃ file, file.map Occurrence.line = lines ∧ (∀ o ∈ file, o.WellFormed) ∧ given = file ++ own := by
  induction lines generalizing given with
  | nil => exact ⟨[], rfl, by simp, h.unique hown⟩
  | cons line rest ih =>
    obtain ⟨hline, hrest⟩ := List.forall_mem_cons.mp hlines
    rw [List.map_cons, List.cons_append] at h
    generalize htext : dashed line = text, hmore : rest.map dashed ++ arguments = more at h
    have hword {first : List Occurrence} {left : Option Spec} (word : Word text.toList first left) :
        Word ('-' :: '-' :: line) first left := by
      rwa [← htext, dashed, String.toList_ofList] at word
    cases h with
    | ended =>
      exact absurd (by simpa [dashed] using congrArg String.toList htext) hline
    | whole word later =>
      obtain ⟨file, hfile, hformed, rfl⟩ := ih hrest (hmore ▸ later)
      obtain ⟨o, formed, ho, rfl, -⟩ | ⟨_, _, _, _, _, hnone⟩ := (hword word).after_dashes
      · exact ⟨o :: file, by simp [ho, hfile], by simpa [formed] using hformed, rfl⟩
      · cases hnone
    | followed word plain later =>
      cases rest with
      | nil =>
        rw [List.map_nil, List.nil_append] at hmore
        exact absurd plain (hmore ▸ hown).head_not_isValue
      | cons next rest =>
        obtain ⟨rfl, -⟩ : dashed next = _ ∧ _ := by simpa using hmore
        exact absurd plain not_isValue_dashed

/-- The value with which an option counts: the command line's last, or else the file's last. -/
def winning (name : OptionName) (file own : List Occurrence) : Option String :=
  (lastValue name own).or (lastValue name file)

def winningColor (name : OptionName) (file own : List Occurrence) : Option Color :=
  (winning name file own).map readColor

/-- The settings are what the config file and the command line make of them. The command line alone sets the
password hash and the debug flag. -/
structure Follows (file own : List Occurrence) (settings : Settings) : Prop where
  passwordHashFile : settings.passwordHashFile = lastValue .passwordHashFile own
  debug : settings.debug = isGiven .debug own
  ignoreEmptyPassword : settings.ignoreEmptyPassword ↔
    isGiven .ignoreEmptyPassword file ∨ isGiven .ignoreEmptyPassword own
  daemonize : settings.daemonize ↔ isGiven .daemonize file ∨ isGiven .daemonize own
  readyFd : (winning .readyFd file own).mapM readInt32 = .ok settings.readyFd
  background : settings.colors.background = (winningColor .color file own).getD ({} : Palette).background
  verifying : settings.colors.verifying = (winningColor .verifyingColor file own).getD ({} : Palette).verifying
  wrong : settings.colors.wrong = (winningColor .wrongColor file own).getD ({} : Palette).wrong
  cleared : settings.colors.cleared = (winningColor .clearedColor file own).getD ({} : Palette).cleared

theorem Says.follows {file own : List Occurrence} {c merged : CommandLine} (hc : Says own c)
    (hmerged : Says (file ++ own) merged) :
    Follows file own { merged.toSettings with passwordHashFile := c.passwordHashFile, debug := c.debug } where
  passwordHashFile := hc.passwordHashFile
  debug := hc.debug
  ignoreEmptyPassword := by simp [CommandLine.toSettings, hmerged.ignoreEmptyPassword]
  daemonize := by simp [CommandLine.toSettings, hmerged.daemonize]
  readyFd := by simpa [CommandLine.toSettings, winning] using hmerged.readyFd
  background := by simp [CommandLine.toSettings, winningColor, winning, hmerged.color]
  verifying := by simp [CommandLine.toSettings, winningColor, winning, hmerged.verifyingColor]
  wrong := by simp [CommandLine.toSettings, winningColor, winning, hmerged.wrongColor]
  cleared := by simp [CommandLine.toSettings, winningColor, winning, hmerged.clearedColor]

/-- All that is relied on of a way to read arguments: those that it accepts have a reading, and it makes of them
what that says. -/
def Faithful (read : Reader) : Prop :=
  ∀ arguments c, (read arguments).value = .ok c → ∃ given, Spells arguments given ∧ Says given c

theorem faithful_parse : Faithful parse := fun _ _ => parse_said

section Merged

variable {files : FileTree} {env : HomeEnvironment} {program : String} {arguments : List String} {c : CommandLine}
  {settings : Settings}

/-- The settings are read from the file's arguments and the command line's after them, also where there are none
of the file. -/
theorem loadSettingsBy_ok {read : Reader} (hc : (read arguments).value = .ok c)
    (hs : (loadSettingsBy read files env program arguments c).value = .ok settings) :
    ∃ merged, (read ((fileArguments files env c).value ++ arguments)).value = .ok merged ∧
      settings = { merged.toSettings with passwordHashFile := c.passwordHashFile, debug := c.debug } := by
  rw [loadSettingsBy, Logged.value_bind] at hs
  split at hs
  · rename_i hempty
    rw [List.isEmpty_iff.mp hempty, List.nil_append]
    exact ⟨c, hc, (Except.ok.inj hs).symm⟩
  · rw [mergedArguments, List.cons_append, List.tail_cons, Logged.value_bind] at hs
    split at hs
    · cases hs
    · rename_i merged hmerged
      exact ⟨merged, hmerged, (Except.ok.inj hs).symm⟩

/-- The settings that come of a command line and any config file, by any faithful reader. -/
theorem own_words_win {read : Reader} (hread : Faithful read) (hc : (read arguments).value = .ok c)
    (hs : (loadSettingsBy read files env program arguments c).value = .ok settings) :
    ∃ file own : List Occurrence,
      file.map Occurrence.line = contentLines (configText files env c) ∧ (∀ o ∈ file, o.WellFormed) ∧
      (∀ given, Spells arguments given ↔ given = own) ∧
      (∀ given, Spells ((fileArguments files env c).value ++ arguments) given ↔ given = file ++ own) ∧
      settings.passwordHashFile = c.passwordHashFile ∧ settings.debug = c.debug ∧ Follows file own settings := by
  obtain ⟨own, hown, hsaid⟩ := hread _ _ hc
  obtain ⟨merged, hparse, rfl⟩ := loadSettingsBy_ok hc hs
  obtain ⟨given, hgiven, hmerged⟩ := hread _ _ hparse
  rw [value_fileArguments] at hgiven ⊢
  obtain ⟨file, hfile, hformed, rfl⟩ := Spells.after_lines (fun _ => ne_nil_of_mem_contentLines) hown hgiven
  exact ⟨file, own, hfile, hformed, fun _ => ⟨fun h => h.unique hown, fun h => h ▸ hown⟩,
    fun _ => ⟨fun h => h.unique hgiven, fun h => h ▸ hgiven⟩, rfl, rfl, hsaid.follows hmerged⟩

/-- The settings that come of a command line and any config file. The arguments have one reading, and so have the
file's lines with the arguments after them: each line is an option by itself, and the arguments say what they say
without the file. -/
theorem command_line_wins (hc : (parse arguments).value = .ok c)
    (hs : (loadSettings files env program arguments c).value = .ok settings) :
    ∃ file own : List Occurrence,
      file.map Occurrence.line = contentLines (configText files env c) ∧ (∀ o ∈ file, o.WellFormed) ∧
      (∀ given, Spells arguments given ↔ given = own) ∧
      (∀ given, Spells ((fileArguments files env c).value ++ arguments) given ↔ given = file ++ own) ∧
      settings.passwordHashFile = c.passwordHashFile ∧ settings.debug = c.debug ∧ Follows file own settings :=
  own_words_win faithful_parse hc hs

end Merged

/-- A config file with a color, and with two settings that are not for it to make. -/
def sampleConfig : String := "# colors\n  color=ff0000\n\ndaemonize\ndebug\npassword-hash-file=/x\n"

def sampleFiles : FileTree := ⟨[(["", "c"], some sampleConfig.toUTF8.toList)]⟩

theorem read_sampleFiles : sampleFiles.read "/c" = .ok sampleConfig := by
  have hany : "/c".any (· = Char.ofNat 0) = false := String.contains_bool_eq
  -- Splitting is no structural recursion, so its steps at the slash, the letter and the end are taken one by one.
  have hsplit : "/c".splitOn "/" = ["", "c"] := by
    rw [String.splitOn, if_neg (by decide), String.splitOnAux, if_neg (by decide +kernel), if_pos (by decide +kernel),
      if_pos (by decide +kernel), String.splitOnAux, if_neg (by decide +kernel), if_neg (by decide +kernel),
      String.splitOnAux, if_pos (by decide +kernel)]
    rfl
  have hparts : Path.parts "/c" = ["", "c"] := by
    rw [Path.parts, hsplit]
    rfl
  have hends : "/c".endsWith "/" = false := by decide +kernel
  have hfind : sampleFiles.find "/c" = .ok (.file sampleConfig.toUTF8.toList) := by
    simp only [FileTree.find, hany, hparts, hends]
    rfl
  have hbytes : Text.ofBytes? sampleConfig.toUTF8.toList = some sampleConfig := by decide +kernel
  simp only [FileTree.read, hfind, hbytes]

/-- The command line's color stands, and of what else the file gives only the flag counts that is not the command
line's alone. -/
theorem own_color_stands :
    let arguments := ["-C", "/c", "--color=0000ff"]
    let c : CommandLine := { config := some "/c", color := some ⟨0x0000ffff⟩ }
    let settings : Settings := { daemonize := true, colors := { background := ⟨0x0000ffff⟩ } }
    (parse arguments).value = .ok c ∧
      (loadSettings sampleFiles {} "rustlock" arguments c).value = .ok settings ∧
      ∃ file own, file.map Occurrence.line = contentLines (configText sampleFiles {} c) ∧
        Spells arguments own ∧ Follows file own settings := by
  intro arguments c settings
  have hc : (parse arguments).value = .ok c := rfl
  have hs : (loadSettings sampleFiles {} "rustlock" arguments c).value = .ok settings := by
    simp only [loadSettings, loadSettingsBy, fileArguments, configFile?, readArguments, readText, c, read_sampleFiles,
      Logged.value_bind]
    rfl
  obtain ⟨file, own, hfile, -, hown, -, -, -, hfollows⟩ := command_line_wins hc hs
  exact ⟨hc, hs, file, own, hfile, (hown own).mpr rfl, hfollows⟩

end ScreenLocker.Options
