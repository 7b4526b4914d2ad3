import Mathlib.Data.List.Basic
import PackageAtlas.CommandLine.Console
import PackageAtlas.CommandLine.Run

set_option autoImplicit false

/-! # Options over the environment

A command reads four variables of the environment, each for one setting, and an option can stand in
the place of each. A scan depends on the pattern and the excluded names alone, a diagram on the
ignored beginnings only if dependencies are drawn. A reporter sees none of the four. So if two
environments differ in no variable but such that the options override, all that a run tells and
leaves is the same in both, whatever entries of the log are shown (`run_eq_of_overridden`). -/

namespace PackageAtlas.CommandLine

open Settings

variable {first second : Environment}

/-! ## Settings -/

theorem pattern_eq {options : SearchOptions}
    (h : options.pattern = none → first patternVariable = second patternVariable) :
    (searchSettings first options).pattern = (searchSettings second options).pattern := by
  unfold searchSettings
  cases hgiven : options.pattern with
  | none => simp only [Option.getD_none, environmentSettings, ofLookup, h hgiven]
  | some pattern => rfl

theorem excludes_eq {options : SearchOptions}
    (h : options.excludes = [] → first excludesVariable = second excludesVariable) :
    (searchSettings first options).excludes = (searchSettings second options).excludes := by
  unfold searchSettings
  by_cases hgiven : options.excludes = []
  · simp only [if_pos hgiven, environmentSettings, ofLookup, h hgiven]
  · simp only [if_neg hgiven]

theorem ignored_eq (options : SearchOptions) {ignored : List Text} (dependencies : Bool)
    (h : ignored = [] → first ignoredVariable = second ignoredVariable) :
    (diagramSettings first options ignored dependencies).ignored
      = (diagramSettings second options ignored dependencies).ignored := by
  unfold diagramSettings
  by_cases hgiven : ignored = []
  · simp only [if_pos hgiven, searchSettings, environmentSettings, ofLookup, h hgiven]
  · simp only [if_neg hgiven]

theorem dependencies_eq (options : SearchOptions) (ignored : List Text) {dependencies : Bool}
    (h : dependencies = false → first dependenciesVariable = second dependenciesVariable) :
    (diagramSettings first options ignored dependencies).dependencies
      = (diagramSettings second options ignored dependencies).dependencies := by
  unfold diagramSettings
  cases dependencies with
  | false => simp only [Bool.or_false, searchSettings, environmentSettings, ofLookup, h rfl]
  | true => simp only [Bool.or_true]

/-! ## What a run depends on -/

variable {settings others : Settings}

theorem scanRecords_congr (hpattern : settings.pattern = others.pattern)
    (hexcludes : settings.excludes = others.excludes) (tree : FileTree) (path : Text) :
    scanRecords tree path settings = scanRecords tree path others := by
  simp only [scanRecords, hpattern, hexcludes]

theorem drawnWithout_congr (hdependencies : settings.dependencies = others.dependencies)
    (hignored : settings.dependencies = true → settings.ignored = others.ignored) :
    drawnWithout settings = drawnWithout others := by
  unfold drawnWithout
  rw [← hdependencies]
  split
  · next hdrawn => rw [hignored hdrawn]
  · rfl

/-- A diagram depends on the source files that are searched and on the dependencies to draw. -/
theorem execute_diagram_congr {search : SearchOptions} {ignored : List Text} {dependencies : Bool}
    (hpattern : (searchSettings first search).pattern = (searchSettings second search).pattern)
    (hexcludes : (searchSettings first search).excludes = (searchSettings second search).excludes)
    (hdrawn : drawnWithout (diagramSettings first search ignored dependencies)
      = drawnWithout (diagramSettings second search ignored dependencies))
    (tree : FileTree) (title output : Option Text) :
    execute tree first (.diagram search ignored dependencies title output)
      = execute tree second (.diagram search ignored dependencies title output) := by
  have hscan : scanRecords tree search.path (diagramSettings first search ignored dependencies)
      = scanRecords tree search.path (diagramSettings second search ignored dependencies) :=
    scanRecords_congr hpattern hexcludes tree search.path
  simp only [execute, prepare, hscan, diagramText, drawnDependencies, dependencyNotices, hdrawn]

theorem execute_scan_congr {search : SearchOptions}
    (hpattern : (searchSettings first search).pattern = (searchSettings second search).pattern)
    (hexcludes : (searchSettings first search).excludes = (searchSettings second search).excludes)
    (tree : FileTree) (json : Bool) :
    execute tree first (.scan search json) = execute tree second (.scan search json) := by
  simp only [execute, prepare, scanRecords_congr hpattern hexcludes tree search.path]

/-! ## Overridden variables -/

/-- Whether the options for a search stand in the place of a variable. -/
def Replaced (options : SearchOptions) (name : Text) : Prop :=
  name = patternVariable ∧ options.pattern ≠ none ∨ name = excludesVariable ∧ options.excludes ≠ []

/-- Whether a variable does not matter to a command in two environments, for there is an option in
its place or no use for it: the ignored beginnings have none where no dependencies are drawn, and a
listing draws none. -/
def Overridden (first second : Environment) (name : Text) : Command → Prop
  | .diagram search ignored dependencies _ _ =>
    Replaced search name ∨
    name = ignoredVariable ∧ (ignored ≠ [] ∨ dependencies = false ∧
      (environmentSettings first).dependencies = false ∧
      (environmentSettings second).dependencies = false) ∨
    name = dependenciesVariable ∧ dependencies = true
  | .scan search _ => Replaced search name ∨ name = ignoredVariable ∨ name = dependenciesVariable

/-- Variables that are not for a search, or that its options replace, do not change it. -/
theorem searchSettings_congr (search : SearchOptions) (h : ∀ name, first name ≠ second name →
      Replaced search name ∨ name = ignoredVariable ∨ name = dependenciesVariable) :
    (searchSettings first search).pattern = (searchSettings second search).pattern ∧
      (searchSettings first search).excludes = (searchSettings second search).excludes := by
  refine ⟨pattern_eq fun hnone => ?_, excludes_eq fun hnil => ?_⟩
  · by_contra hne
    rcases h _ hne with (⟨-, hgiven⟩ | ⟨he, -⟩) | he | he
    · exact hgiven hnone
    all_goals exact absurd he (by decide)
  · by_contra hne
    rcases h _ hne with (⟨he, -⟩ | ⟨-, hgiven⟩) | he | he
    · exact absurd he (by decide)
    · exact hgiven hnil
    all_goals exact absurd he (by decide)

theorem Replaced.eq_variable {options : SearchOptions} {name : Text} (h : Replaced options name) :
    name = patternVariable ∨ name = excludesVariable :=
  h.imp And.left And.left

/-- The dependencies to draw are the same if neither variable for them matters. -/
theorem drawnWithout_eq {search : SearchOptions} {ignored : List Text} {dependencies : Bool}
    {title output : Option Text} (h : ∀ name, first name ≠ second name →
      Overridden first second name (.diagram search ignored dependencies title output)) :
    drawnWithout (diagramSettings first search ignored dependencies)
      = drawnWithout (diagramSettings second search ignored dependencies) := by
  refine drawnWithout_congr (dependencies_eq search ignored fun hfalse => ?_) fun hdrawn =>
    ignored_eq search dependencies fun hnil => ?_
  · by_contra hne
    rcases h _ hne with hreplaced | ⟨he, -⟩ | ⟨-, htrue⟩
    · exact absurd hreplaced.eq_variable (by decide)
    · exact absurd he (by decide)
    · exact Bool.false_ne_true (hfalse.symm.trans htrue)
  · by_contra hne
    rcases h _ hne with hreplaced | ⟨-, hgiven | ⟨hfalse, hfirst, -⟩⟩ | ⟨he, -⟩
    · exact absurd hreplaced.eq_variable (by decide)
    · exact hgiven hnil
    · -- neither the option nor the variable asks for dependencies
      have hundrawn : (diagramSettings first search ignored dependencies).dependencies = false := by
        rw [hfalse]
        exact (Bool.or_false _).trans hfirst
      exact Bool.false_ne_true (hundrawn.symm.trans hdrawn)
    · exact absurd he (by decide)

/-- A command does the same in environments between which its options leave no difference. -/
theorem execute_eq_of_overridden (tree : FileTree) {command : Command}
    (h : ∀ name, first name ≠ second name → Overridden first second name command) :
    execute tree first command = execute tree second command := by
  cases command with
  | diagram search ignored dependencies title output =>
      obtain ⟨hpattern, hexcludes⟩ := searchSettings_congr search fun name hne =>
        (h name hne).imp_right (Or.imp And.left And.left)
      exact execute_diagram_congr hpattern hexcludes (drawnWithout_eq h) tree title output
  | scan search json =>
      obtain ⟨hpattern, hexcludes⟩ := searchSettings_congr search h
      exact execute_scan_congr hpattern hexcludes tree json

/-! ## What a reporter sees -/

/-- A reporter sees no difference in variables of the settings. -/
theorem surroundings_congr (h : ∀ name, first name ≠ second name → name ∈ variableNames) :
    surroundings first = surroundings second := by
  funext name
  rw [surroundings, surroundings]
  split
  · rfl
  · next hname =>
      by_contra hne
      exact hname (h name hne)

/-- **Options override the environment.** If two environments differ only in variables of the
settings, and only in such that do not matter to the command if there is one, a run is the same in
both: its exit code, what it prints and tells, and the file tree that it leaves. This is so with any
reporter, for it sees the same in both. -/
theorem run_eq_of_overridden (reporter : Reporter) (tree : FileTree) (words : List Bytes)
    (first second : Environment)
    (hvariables : ∀ name, first name ≠ second name → name ∈ variableNames)
    (hoverridden : ∀ command, request words = .ok (.run command) → ∀ name,
      first name ≠ second name → Overridden first second name command) :
    run reporter tree first words = run reporter tree second words := by
  have hperform : perform tree first words = perform tree second words := by
    cases hrequest : request words with
    | error error => simp only [perform, hrequest]
    | ok request =>
        cases request with
        | version => simp only [perform, hrequest]
        | help => simp only [perform, hrequest]
        | run command =>
            simp only [perform, hrequest]
            exact execute_eq_of_overridden tree (hoverridden command hrequest)
  simp only [run, Reporter.outcome, hperform, surroundings_congr hvariables]

/-- A tree with one class that imports another. -/
def annex : FileTree where
  top :=
    [(Utf8.encode "src".toList, .folder
      [(Utf8.encode "A.java".toList, .file (Utf8.encode "package p;\nimport q.R;\n".toList))])]
  here := []

/-- An environment with another pattern than the option, and with a beginning to ignore where no
dependencies are drawn; in both, the log of the search is shown from the second lowest level on. -/
theorem run_eq_of_overridden_annex :
    let reporter := console fun number => "T".toList ++ Nat.toDigits 10 number
    let words := ["diagram".toList, "-p*.java".toList, "src".toList].map Utf8.encode
    let logged : Environment := fun name =>
      if name = Console.filterVariable then some (Utf8.encode "source=debug".toList)
      else if name = Console.colourlessVariable then some (Utf8.encode "1".toList)
      else none
    let first : Environment := fun name =>
      if name = patternVariable then some (Utf8.encode "*.kt".toList)
      else if name = ignoredVariable then some (Utf8.encode "q.".toList)
      else logged name
    (first patternVariable ≠ logged patternVariable ∧
      first ignoredVariable ≠ logged ignoredVariable) ∧
    (∀ name, first name ≠ logged name → name ∈ variableNames) ∧
    (∀ command, request words = .ok (.run command) → ∀ name, first name ≠ logged name →
      Overridden first logged name command) ∧
    run reporter annex first words = run reporter annex logged words ∧
    (run reporter annex first words).1.stderr =
      ["Scanning: /src", "T0 DEBUG source::walker: Matched 1 files under /src",
        "T1 DEBUG source::walker: /src/A.java -> p.A",
        "T2  INFO source::walker: Extracted 1 records from /src",
        "Found 1 files"].flatMap fun t => line t.toList := by
  intro reporter words logged first
  have hrequest : request words
      = .ok (.run (.diagram ⟨"src".toList, some "*.java".toList, []⟩ [] false none none)) := by
    decide +kernel
  have hdiffer : ∀ name, first name ≠ logged name →
      name = patternVariable ∨ name = ignoredVariable := by
    intro name hne
    by_contra hnone
    obtain ⟨hpattern, hignored⟩ := not_or.1 hnone
    exact hne ((if_neg hpattern).trans (if_neg hignored))
  have hvariables : ∀ name, first name ≠ logged name → name ∈ variableNames := by
    intro name hne
    rcases hdiffer name hne with rfl | rfl <;> decide
  have hoverridden : ∀ command, request words = .ok (.run command) → ∀ name,
      first name ≠ logged name → Overridden first logged name command := by
    intro command hcommand name hne
    obtain rfl := Request.run.inj (Except.ok.inj (hrequest.symm.trans hcommand))
    rcases hdiffer name hne with hpattern | hignored
    · exact Or.inl (Or.inl ⟨hpattern, nofun⟩)
    · exact Or.inr (Or.inl ⟨hignored, Or.inr ⟨rfl, by decide +kernel, by decide +kernel⟩⟩)
  have hsame := run_eq_of_overridden reporter annex words first logged hvariables hoverridden
  exact ⟨⟨by decide +kernel, by decide +kernel⟩, hvariables, hoverridden, hsame,
    by decide +kernel⟩

end PackageAtlas.CommandLine
