import ScreenLocker.Settings.Locations

/-! Where a user's files are looked for. Config file and password hash are sought under one configuration
directory: the one that the environment names, or the one in the user's home, if either is there at all. The two
lookups part in one case: a home that is set and empty is none to the one and the working directory to the
other. -/

namespace ScreenLocker

namespace Path

def IsAbsolute (path : String) : Prop := path.startsWith "/" = true

theorem isAbsolute_append {dir : String} (h : IsAbsolute dir) (rest : String) : IsAbsolute (dir ++ rest) := by
  simp only [IsAbsolute, String.startsWith_string_iff, String.toList_append] at h ⊢
  exact h.trans (List.prefix_append _ _)

theorem isAbsolute_join {dir : String} (h : IsAbsolute dir) (name : String) : IsAbsolute (join dir name) := by
  unfold join
  split
  · assumption
  · split
    · exact isAbsolute_append h _
    · exact isAbsolute_append (isAbsolute_append h _) _

end Path

namespace Settings

open ScreenLocker.Path (IsAbsolute isAbsolute_join)

/-- The configuration directory of the user, if there is one. -/
def configHome (env : HomeEnvironment) : Option String :=
  match nonEmpty env.configHome, nonEmpty env.home with
  | some dir, _ => some dir
  | none, some home => some (Path.join home ".config")
  | none, none => none

/-- Where a file is looked for that has its place in a configuration directory, if this is the user's. -/
def candidates (dir : Option String) (file : String) : List String :=
  dir.toList.map (fun d => Path.join (Path.join d programName) file) ++ ["/etc/" ++ programName ++ "/" ++ file]

/-- The place of the config file in the user's home itself. -/
def homeCandidates (env : HomeEnvironment) : List String :=
  (nonEmpty env.home).toList.map fun home => Path.join (Path.join home ("." ++ programName)) "config"

/-- Nothing says where the user's files are but a home that is empty. -/
def Astray (env : HomeEnvironment) : Prop := nonEmpty env.configHome = none ∧ env.home = some ""

theorem configPaths_eq (env : HomeEnvironment) :
    configPaths env = homeCandidates env ++ candidates (configHome env) "config" := by
  have hdir : (nonEmpty env.configHome).or ((nonEmpty env.home).map (Path.join · ".config")) = configHome env := by
    unfold configHome
    cases nonEmpty env.configHome <;> cases nonEmpty env.home <;> rfl
  simp only [configPaths, hdir, homeCandidates, candidates, List.append_assoc]
  congr 2

theorem hashPaths_eq {env : HomeEnvironment} (h : ¬Astray env) :
    hashPaths env = candidates (configHome env) "password-hash" := by
  have hdir : (nonEmpty env.configHome).or (env.home.map (Path.join · ".config")) = configHome env := by
    unfold configHome
    cases hconfig : nonEmpty env.configHome with
    | some dir => rfl
    | none =>
      cases hhome : env.home with
      | none => rfl
      | some home =>
        have hsome : home ≠ "" := by
          rintro rfl
          exact h ⟨hconfig, hhome⟩
        simp [nonEmpty, Option.filter, hsome]
  simp only [hashPaths, hdir, candidates]
  congr 2

theorem hashPaths_astray {env : HomeEnvironment} (h : Astray env) :
    configHome env = none ∧ hashPaths env = candidates (some ".config") "password-hash" := by
  obtain ⟨hconfig, hhome⟩ := h
  have hnone : nonEmpty env.home = none := by
    rw [hhome]
    simp [nonEmpty, Option.filter]
  refine ⟨by simp only [configHome, hconfig, hnone], ?_⟩
  have hdir : Path.join "" ".config" = ".config" := by simp [Path.join]
  simp only [hashPaths, hconfig, hhome, candidates, Option.map_some, hdir, Option.none_or]
  congr 2

theorem isAbsolute_candidates {dir : Option String} (h : ∀ d ∈ dir, IsAbsolute d) (file : String) :
    ∀ path ∈ candidates dir file, IsAbsolute path := by
  intro path hpath
  rcases List.mem_append.mp hpath with huser | hsystem
  · obtain ⟨d, hd, rfl⟩ := List.mem_map.mp huser
    exact isAbsolute_join (isAbsolute_join (h d (Option.mem_toList.mp hd)) _) _
  · rw [List.mem_singleton.mp hsystem, String.append_assoc, String.append_assoc]
    exact Path.isAbsolute_append (by simp [IsAbsolute]) _

/-- The value of a variable that is set to an absolute path, empty or not set. -/
def Proper (v : Option String) : Prop := ∀ s ∈ v, s = "" ∨ IsAbsolute s

theorem Proper.isAbsolute {v : Option String} (h : Proper v) : ∀ s ∈ nonEmpty v, IsAbsolute s := by
  intro s hs
  obtain ⟨hset, hsome⟩ := Option.filter_eq_some_iff.mp hs
  rcases h s hset with rfl | habsolute
  · simp at hsome
  · exact habsolute

theorem isAbsolute_configHome {env : HomeEnvironment} (hhome : Proper env.home) (hconfig : Proper env.configHome) :
    ∀ d ∈ configHome env, IsAbsolute d := by
  intro d hd
  unfold configHome at hd
  cases hc : nonEmpty env.configHome with
  | some dir =>
    rw [hc] at hd
    exact hconfig.isAbsolute d (hc.trans hd)
  | none =>
    cases hh : nonEmpty env.home with
    | some home =>
      rw [hc, hh] at hd
      obtain rfl : Path.join home ".config" = d := Option.some.inj hd
      exact isAbsolute_join (hhome.isAbsolute home hh) _
    | none =>
      rw [hc, hh] at hd
      exact absurd hd nofun

/-- The config file is looked for in the user's home and in the configuration directory, and the password hash in
that same directory, or both in none, unless the only thing that is said of the user's files is that the home is
empty. Then there is no configuration directory, and the hash is looked for below the working directory. Where each
variable is an absolute path, empty or not set, all places are absolute but for that one. -/
theorem lookups_agree_unless_astray (env : HomeEnvironment) :
    configPaths env = homeCandidates env ++ candidates (configHome env) "config" ∧
    (hashPaths env = candidates (configHome env) "password-hash" ↔ ¬Astray env) ∧
    (Astray env → configHome env = none ∧ hashPaths env = candidates (some ".config") "password-hash") ∧
    (Proper env.home → Proper env.configHome → (∀ path ∈ configPaths env, IsAbsolute path) ∧
      (¬Astray env → ∀ path ∈ hashPaths env, IsAbsolute path)) := by
  refine ⟨configPaths_eq env, ⟨?_, hashPaths_eq⟩, hashPaths_astray, fun hhome hconfig => ⟨?_, fun hknown => ?_⟩⟩
  · intro hagree hastray
    obtain ⟨hnone, hhash⟩ := hashPaths_astray hastray
    rw [hhash, hnone] at hagree
    simpa [candidates] using congrArg List.length hagree
  · rw [configPaths_eq]
    intro path hpath
    rcases List.mem_append.mp hpath with hown | huser
    · obtain ⟨home, hmem, rfl⟩ := List.mem_map.mp hown
      exact isAbsolute_join (isAbsolute_join (hhome.isAbsolute home (Option.mem_toList.mp hmem)) _) _
    · exact isAbsolute_candidates (isAbsolute_configHome hhome hconfig) "config" path huser
  · rw [hashPaths_eq hknown]
    exact isAbsolute_candidates (isAbsolute_configHome hhome hconfig) "password-hash"

/-- A home that is set and empty: the config file is looked for in the system's place alone, the hash also below the
working directory. -/
theorem hash_below_working_directory :
    let env : HomeEnvironment := { home := some "" }
    Proper env.home ∧ Proper env.configHome ∧ configHome env = none ∧
      configPaths env = ["/etc/rustlock/config"] ∧
      hashPaths env = [".config/rustlock/password-hash", "/etc/rustlock/password-hash"] ∧
      ¬IsAbsolute ".config/rustlock/password-hash" := by
  intro env
  have hempty : Proper env.home := by
    rintro s ⟨⟩
    exact .inl rfl
  exact ⟨hempty, nofun, by decide +kernel, by decide +kernel, by decide +kernel, by simp [IsAbsolute]⟩

end Settings

end ScreenLocker
