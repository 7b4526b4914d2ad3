import Mathlib.Data.List.Forall2
import PackageAtlas.Proofs.RecordPath
import PackageAtlas.Proofs.Trim
import PackageAtlas.Settings

set_option autoImplicit false

/-! # Settings and the variables that give them

Whatever the variables hold, the settings they give are `WellFormed`: nothing in them is empty or
has blanks at its ends, and a listed entry has no comma. The other way round, well-formed settings
can be written in many ways: `WrittenIn` says which, with any blanks around a value and around an
entry of a list, any blank entries in between, and any letter case for a switch. From each of these
the same settings are read (`ofLookup_writtenIn`). -/

namespace PackageAtlas

namespace Settings

/-! ## Well-formed settings -/

/-- Whether a text can be an entry of a list. -/
structure Entry (t : Text) : Prop where
  ne_nil : t ≠ []
  bare : Bare t
  comma_not_mem : ',' ∉ t

/-- Whether settings are such as variables can give. -/
structure WellFormed (settings : Settings) : Prop where
  pattern_ne_nil : settings.pattern ≠ []
  pattern_bare : Bare settings.pattern
  excludes : ∀ entry ∈ settings.excludes, Entry entry
  ignored : ∀ entry ∈ settings.ignored, Entry entry

theorem entry_of_mem_entries {value entry : Text} (h : entry ∈ entries value) : Entry entry := by
  obtain ⟨piece, hpiece, htrimmed⟩ := List.mem_filterMap.1 h
  obtain ⟨hne, rfl⟩ := of_trimmed?_eq_some htrimmed
  exact ⟨hne, bare_trim piece, fun hcomma =>
    Record.not_mem_of_mem_splitOn ',' value piece hpiece (mem_of_mem_trim hcomma)⟩

theorem entry_of_mem_getD {value : Option Text} {entry : Text}
    (h : entry ∈ (value.map entries).getD []) : Entry entry := by
  cases value with
  | none => exact absurd h List.not_mem_nil
  | some value => exact entry_of_mem_entries h

/-- The default pattern is in the place of one that is not set or blank. -/
theorem pattern_ofLookup (lookup : Text → Option Text) :
    (ofLookup lookup).pattern ≠ [] ∧ Bare (ofLookup lookup).pattern := by
  cases hpattern : (lookup patternVariable).bind trimmed? with
  | none =>
      have hdefault : (ofLookup lookup).pattern = Glob.sourceFiles := by
        rw [ofLookup, hpattern, Option.getD_none]
      rw [hdefault]
      exact ⟨by decide, by decide, by decide⟩
  | some pattern =>
      have hset : (ofLookup lookup).pattern = pattern := by
        rw [ofLookup, hpattern, Option.getD_some]
      obtain ⟨value, -, htrimmed⟩ := Option.bind_eq_some_iff.1 hpattern
      obtain ⟨hne, rfl⟩ := of_trimmed?_eq_some htrimmed
      rw [hset]
      exact ⟨hne, bare_trim value⟩

theorem wellFormed_ofLookup (lookup : Text → Option Text) : (ofLookup lookup).WellFormed where
  pattern_ne_nil := (pattern_ofLookup lookup).1
  pattern_bare := (pattern_ofLookup lookup).2
  excludes := fun _ h => entry_of_mem_getD h
  ignored := fun _ h => entry_of_mem_getD h

/-! ## Ways to write settings -/

/-- Whether `value` is `t` with blanks around it, perhaps none. -/
def Padded (t value : Text) : Prop :=
  ∃ before after : Text, (∀ c ∈ before, isBlank c = true) ∧ (∀ c ∈ after, isBlank c = true) ∧
    value = before ++ t ++ after

/-- Whether the texts `pieces` are the texts of a list in their order, each with blanks around it,
and blanks alone anywhere before, between and after them. -/
inductive Spread : List Text → List Text → Prop where
  | nil : Spread [] []
  | blank {list pieces : List Text} {piece : Text} (hblank : ∀ c ∈ piece, isBlank c = true)
      (rest : Spread list pieces) : Spread list (piece :: pieces)
  | entry {list pieces : List Text} {entry piece : Text} (hpadded : Padded entry piece)
      (rest : Spread list pieces) : Spread (entry :: list) (piece :: pieces)

/-- Whether `value` is a list written with commas. -/
def Listed (list : List Text) (value : Text) : Prop :=
  ∃ pieces, Spread list pieces ∧ value = [','].intercalate pieces

/-- Whether `written` is a word of small letters and digits in any letter case. -/
def Recased (word written : Text) : Prop :=
  List.Forall₂ (fun small c => c = small ∨ c = small.toUpper) word written

/-- Whether the variables hold the settings, each its own. -/
structure WrittenIn (lookup : Text → Option Text) (settings : Settings) : Prop where
  pattern : ∃ value, lookup patternVariable = some value ∧ Padded settings.pattern value
  excludes : ∃ value, lookup excludesVariable = some value ∧ Listed settings.excludes value
  ignored : ∃ value, lookup ignoredVariable = some value ∧ Listed settings.ignored value
  dependencies : ∃ word written value, lookup dependenciesVariable = some value ∧
    word ∈ (if settings.dependencies then ["1".toList, "true".toList, "yes".toList]
      else ["0".toList]) ∧ Recased word written ∧ Padded written value

theorem Padded.trimmed?_eq {t value : Text} (h : Padded t value) (hne : t ≠ []) (ht : Bare t) :
    trimmed? value = some t := by
  obtain ⟨before, after, hbefore, hafter, rfl⟩ := h
  exact trimmed?_append hbefore hne ht hafter

/-! ## Lists -/

theorem comma_not_mem_blanks {blanks : Text} (hblanks : ∀ c ∈ blanks, isBlank c = true) :
    ',' ∉ blanks :=
  not_mem_blanks (by decide) hblanks

theorem Padded.comma_not_mem {t value : Text} (h : Padded t value) (ht : ',' ∉ t) :
    ',' ∉ value := by
  obtain ⟨before, after, hbefore, hafter, rfl⟩ := h
  simp [comma_not_mem_blanks hbefore, comma_not_mem_blanks hafter, ht]

theorem Spread.comma_not_mem {list pieces : List Text} (h : Spread list pieces)
    (hlist : ∀ entry ∈ list, Entry entry) : ∀ piece ∈ pieces, ',' ∉ piece := by
  induction h with
  | nil => exact fun _ hmem => absurd hmem List.not_mem_nil
  | blank hblank rest ih => exact List.forall_mem_cons.2 ⟨comma_not_mem_blanks hblank, ih hlist⟩
  | entry hpadded rest ih =>
      obtain ⟨hentry, hrest⟩ := List.forall_mem_cons.1 hlist
      exact List.forall_mem_cons.2 ⟨hpadded.comma_not_mem hentry.comma_not_mem, ih hrest⟩

theorem Spread.filterMap_eq {list pieces : List Text} (h : Spread list pieces)
    (hlist : ∀ entry ∈ list, Entry entry) : pieces.filterMap trimmed? = list := by
  induction h with
  | nil => rfl
  | blank hblank rest ih => rw [List.filterMap_cons_none (trimmed?_blanks hblank), ih hlist]
  | entry hpadded rest ih =>
      obtain ⟨hentry, hrest⟩ := List.forall_mem_cons.1 hlist
      rw [List.filterMap_cons_some (hpadded.trimmed?_eq hentry.ne_nil hentry.bare), ih hrest]

/-- **A list is read back as it was written**, in its order and with what comes twice. -/
theorem Listed.entries_eq {list : List Text} {value : Text} (h : Listed list value)
    (hlist : ∀ entry ∈ list, Entry entry) : entries value = list := by
  obtain ⟨pieces, hspread, rfl⟩ := h
  by_cases hnil : pieces = []
  · -- no piece is written like one blank piece
    subst hnil
    cases hspread
    rfl
  · rw [entries, List.splitOn_intercalate ',' (hspread.comma_not_mem hlist) hnil,
      hspread.filterMap_eq hlist]

/-! ## Switches -/

/-- Whether a character is the small form of itself and of its capital, and neither is a blank. -/
def Small (c : Char) : Prop :=
  ∀ d ∈ [c, c.toUpper], d.toLower = c ∧ isBlank d = false

instance (c : Char) : Decidable (Small c) :=
  inferInstanceAs (Decidable (∀ d ∈ [c, c.toUpper], d.toLower = c ∧ isBlank d = false))

theorem Recased.spec {word written : Text} (h : Recased word written)
    (hword : ∀ c ∈ word, Small c) :
    written.map Char.toLower = word ∧ ∀ c ∈ written, isBlank c = false := by
  induction h with
  | nil => exact ⟨rfl, by simp⟩
  | @cons small c word written hc rest ih =>
      obtain ⟨hsmall, hrest⟩ := List.forall_mem_cons.1 hword
      obtain ⟨hlower, hblank⟩ := hsmall c (by simpa using hc)
      obtain ⟨hmap, hblanks⟩ := ih hrest
      exact ⟨by rw [List.map_cons, hlower, hmap], List.forall_mem_cons.2 ⟨hblank, hblanks⟩⟩

theorem small_of_mem_switch (on : Bool) :
    ∀ word ∈ (if on then ["1".toList, "true".toList, "yes".toList] else ["0".toList]),
      word ≠ [] ∧ (∀ c ∈ word, Small c) ∧ switchWords.contains word = on := by
  cases on <;> decide

/-- A switch is on if one of the words for that is written, in whatever case. -/
theorem isOn_of_recased {word written value : Text} (hne : word ≠ [])
    (hword : ∀ c ∈ word, Small c) (hwritten : Recased word written)
    (hvalue : Padded written value) : isOn value = switchWords.contains word := by
  obtain ⟨hmap, hblanks⟩ := hwritten.spec hword
  have hne' : written ≠ [] := by
    rintro rfl
    exact hne hmap.symm
  obtain ⟨before, after, hbefore, hafter, rfl⟩ := hvalue
  rw [isOn, trim_append hbefore hne' (bare_of_forall hblanks) hafter, hmap]

/-- **Variables give well-formed settings, and well-formed settings are read back from variables**,
in whichever of the ways they are written in them. -/
theorem ofLookup_writtenIn :
    (∀ lookup : Text → Option Text, (ofLookup lookup).WellFormed) ∧
    ∀ (settings : Settings) (lookup : Text → Option Text), settings.WellFormed →
      WrittenIn lookup settings → ofLookup lookup = settings := by
  refine ⟨wellFormed_ofLookup, fun settings lookup h hwritten => ?_⟩
  obtain ⟨pattern, hpattern, hpadded⟩ := hwritten.pattern
  obtain ⟨excludes, hexcludes, hexcluded⟩ := hwritten.excludes
  obtain ⟨ignored, hignored, hleft⟩ := hwritten.ignored
  obtain ⟨word, written, switch, hswitch, hword, hrecased, hvalue⟩ := hwritten.dependencies
  obtain ⟨hne, hsmall, hcontains⟩ := small_of_mem_switch _ word hword
  have hon : isOn switch = settings.dependencies :=
    (isOn_of_recased hne hsmall hrecased hvalue).trans hcontains
  rw [ofLookup, hpattern, hexcludes, hignored, hswitch, Option.bind_some,
    hpadded.trimmed?_eq h.pattern_ne_nil h.pattern_bare]
  simp only [Option.map_some, Option.getD_some, hexcluded.entries_eq h.excludes,
    hleft.entries_eq h.ignored, hon]

/-- A list with blank entries at both ends and in between and an entry that comes twice, a list of
blanks alone, and a switch in two cases. -/
theorem ofLookup_writtenIn_sloppy :
    let lookup : Text → Option Text := fun name =>
      if name = patternVariable then some "\u2003*.kt\n".toList
      else if name = excludesVariable then some ", build ,,\tout\u0085,build,".toList
      else if name = ignoredVariable then some " ".toList
      else if name = dependenciesVariable then some "\n tRUE ".toList
      else none
    let settings : Settings :=
      ⟨"*.kt".toList, ["build".toList, "out".toList, "build".toList], [], true⟩
    settings.WellFormed ∧ WrittenIn lookup settings ∧ ofLookup lookup = settings := by
  intro lookup settings
  have hwellFormed : settings.WellFormed := by
    have hentry : ∀ t ∈ ["build".toList, "out".toList, "build".toList],
        t ≠ [] ∧ startsBlank t = false ∧ startsBlank t.reverse = false ∧ ',' ∉ t := by decide
    refine ⟨by decide, ⟨by decide, by decide⟩, fun t ht => ?_, fun t ht => nomatch ht⟩
    obtain ⟨hne, hstarts, hends, hcomma⟩ := hentry t ht
    exact ⟨hne, ⟨hstarts, hends⟩, hcomma⟩
  have hexcludes : Spread settings.excludes
      [[], " build ".toList, [], "\tout\u0085".toList, "build".toList, []] :=
    .blank (by decide) (.entry ⟨[' '], [' '], by decide, by decide, rfl⟩ (.blank (by decide)
      (.entry ⟨['\t'], ['\u0085'], by decide, by decide, rfl⟩
        (.entry ⟨[], [], by decide, by decide, rfl⟩ (.blank (by decide) .nil)))))
  have hwritten : WrittenIn lookup settings := by
    refine ⟨⟨_, rfl, ['\u2003'], ['\n'], by decide, by decide, rfl⟩, ⟨_, rfl, _, hexcludes, rfl⟩,
      ⟨_, rfl, [[' ']], .blank (by decide) .nil, rfl⟩,
      ⟨"true".toList, "tRUE".toList, _, rfl, by decide, ?_, "\n ".toList, [' '], by decide,
        by decide, rfl⟩⟩
    exact .cons (Or.inl rfl) (.cons (Or.inr rfl) (.cons (Or.inr rfl) (.cons (Or.inr rfl) .nil)))
  exact ⟨hwellFormed, hwritten, ofLookup_writtenIn.2 settings lookup hwellFormed hwritten⟩

end Settings

end PackageAtlas
