import PackageAtlas.Proofs.SourceText.Declaration
import PackageAtlas.Proofs.SourceText.Lines

set_option autoImplicit false

/-! # Reading what was written

A source file can be written in many ways around the names it declares: `SourceLine` is a line with
its blanks, its modifier and what stands behind the name, `WrittenSource` a file of such lines, each
with its own end. However it is written, its record has the package and the imports that were put
into it (`ofLines_content`). -/

namespace PackageAtlas.SourceText

/-! ## The parts of a line -/

/-- Blanks within a line, perhaps none. -/
structure Blanks where
  text : Text
  blank : ∀ c ∈ text, isBlank c = true
  newline_not_mem : '\n' ∉ text

/-- Blanks between two words of a line. -/
structure Gap extends Blanks where
  ne_nil : text ≠ []

/-- A name that can be declared: it has no semicolon, and no blank begins or ends it. -/
structure Name where
  text : Text
  ne_nil : text ≠ []
  bare : Bare text
  semicolon_not_mem : ';' ∉ text
  newline_not_mem : '\n' ∉ text

/-- Any text within a line. -/
structure Remark where
  text : Text
  newline_not_mem : '\n' ∉ text

/-- What stands behind a name: blanks, and then nothing, or a semicolon and any text. -/
structure Trailer where
  blanks : Blanks
  remark : Option Remark

/-- What stands behind a name and the blanks after it. -/
def Trailer.rest (trailer : Trailer) : Text :=
  match trailer.remark with
  | none => []
  | some remark => ';' :: remark.text

/-- What stands behind a name, written. -/
def Trailer.text (trailer : Trailer) : Text :=
  trailer.blanks.text ++ trailer.rest

/-- A name with the modifier of an import and blanks in front. -/
def Name.behind (name : Name) (gap : Gap) : Name where
  text := staticModifier ++ gap.text ++ name.text
  ne_nil := by simp [name.ne_nil]
  bare := Bare.append (by decide) name.ne_nil (by decide) name.bare.ends gap.text
  semicolon_not_mem := by
    have hmodifier : ';' ∉ staticModifier := by decide
    simp [hmodifier, semicolon_not_mem_blanks gap.blank, name.semicolon_not_mem]
  newline_not_mem := by
    have hmodifier : '\n' ∉ staticModifier := by decide
    simp [hmodifier, gap.newline_not_mem, name.newline_not_mem]

/-- A name as an import shows it, with or without the modifier. -/
def Name.modified (name : Name) : Option Gap → Name
  | none => name
  | some gap => name.behind gap

/-! ## Lines and files -/

/-- A line of a source file. -/
inductive SourceLine where
  /-- The line that names the package. -/
  | package (indent : Blanks) (gap : Gap) (name : Name) (trailer : Trailer)
  /-- A line that names an import, with or without the modifier. A name that looks like a modified
  one needs it. -/
  | imported (indent : Blanks) (gap : Gap) (modifier : Option Gap) (name : Name)
      (trailer : Trailer) (needed : Announces staticModifier name.text → modifier ≠ none)
  /-- A line that declares nothing. -/
  | other (text : Text) (newline_not_mem : '\n' ∉ text)
      (silent : ∀ keyword ∈ [packageKeyword, importKeyword], ¬ Announces keyword (trim text))

namespace SourceLine

/-- A line that declares `name` after `keyword`. -/
def declaration (indent : Blanks) (keyword : Text) (gap : Gap) (name : Name) (trailer : Trailer) :
    Text :=
  indent.text ++ (keyword ++ gap.text ++ name.text ++ trailer.text)

/-- A line, written. -/
def text : SourceLine → Text
  | package indent gap name trailer => declaration indent packageKeyword gap name trailer
  | imported indent gap modifier name trailer _ =>
    declaration indent importKeyword gap (name.modified modifier) trailer
  | other text _ _ => text

/-- The package that a line names. -/
def package? : SourceLine → Option Name
  | package _ _ name _ => some name
  | _ => none

/-- The name that a line imports. -/
def import? : SourceLine → Option Name
  | imported _ _ _ name _ _ => some name
  | _ => none

end SourceLine

/-- A source file, written line by line. -/
structure WrittenSource where
  /-- The lines with their ends. -/
  ended : List (SourceLine × LineEnd)
  /-- The last line, if it has no end. -/
  last : Option SourceLine

namespace WrittenSource

/-- All lines. -/
def lines (source : WrittenSource) : List SourceLine :=
  source.ended.map Prod.fst ++ source.last.toList

/-- The file, written. -/
def content (source : WrittenSource) : Text :=
  endedText (source.ended.map fun line => (line.1.text, line.2))
    ((source.last.map SourceLine.text).getD [])

/-- The packages that lines of the file name. -/
def packages (source : WrittenSource) : List Name :=
  source.lines.filterMap SourceLine.package?

/-- The names that lines of the file import, in their order. -/
def imports (source : WrittenSource) : List Name :=
  source.lines.filterMap SourceLine.import?

end WrittenSource

/-! ## One line -/

/-- Trimming takes from what stands behind a name only blanks at its end. -/
theorem trimEnd_trailer (trailer : Trailer) : ∃ blanks rest : Text,
    (∀ c ∈ blanks, isBlank c = true) ∧ (rest = [] ∨ rest.head? = some ';') ∧
      trimEnd trailer.text = blanks ++ rest := by
  cases hremark : trailer.remark with
  | none =>
      refine ⟨[], [], by simp, Or.inl rfl, ?_⟩
      rw [Trailer.text, Trailer.rest, hremark, List.append_nil,
        trimEnd_blanks trailer.blanks.blank, List.append_nil]
  | some remark =>
      refine ⟨trailer.blanks.text, ';' :: trimEnd remark.text, trailer.blanks.blank, Or.inr rfl, ?_⟩
      have hends : startsBlank (trailer.blanks.text ++ [';']).reverse = false := by
        rw [List.reverse_append, startsBlank_append (by simp)]
        decide
      have htext : trailer.text = trailer.blanks.text ++ [';'] ++ remark.text := by
        simp [Trailer.text, Trailer.rest, hremark]
      rw [htext, trimEnd_append hends]
      simp

/-- What is left of a declaration when its line is trimmed. -/
theorem trim_declaration (indent : Blanks) {keyword : Text} (hkeyword : keyword ≠ [])
    (hstarts : startsBlank keyword = false) (gap : Gap) (name : Name) (trailer : Trailer) :
    ∃ blanks rest : Text, (∀ c ∈ blanks, isBlank c = true) ∧ (rest = [] ∨ rest.head? = some ';') ∧
      trim (SourceLine.declaration indent keyword gap name trailer)
        = keyword ++ (gap.text ++ name.text ++ blanks ++ rest) := by
  obtain ⟨blanks, rest, hblanks, hrest, htrailer⟩ := trimEnd_trailer trailer
  have hline : startsBlank (keyword ++ gap.text ++ name.text ++ trailer.text) = false := by
    rw [List.append_assoc, List.append_assoc, startsBlank_append hkeyword, hstarts]
  have hends : startsBlank (keyword ++ gap.text ++ name.text).reverse = false := by
    rw [List.reverse_append, startsBlank_append (by simpa using name.ne_nil), name.bare.ends]
  refine ⟨blanks, rest, hblanks, hrest, ?_⟩
  rw [SourceLine.declaration, trim, trimStart_append indent.blank, trimStart,
    dropWhile_isBlank_of_starts hline, trimEnd_append hends, htrailer]
  simp

theorem declaredName?_declaration (indent : Blanks) {keyword : Text} (hkeyword : keyword ≠ [])
    (hstarts : startsBlank keyword = false) (gap : Gap) (name : Name) (trailer : Trailer) :
    declaredName? keyword (trim (SourceLine.declaration indent keyword gap name trailer))
      = some name.text := by
  obtain ⟨blanks, rest, hblanks, hrest, htrim⟩ :=
    trim_declaration indent hkeyword hstarts gap name trailer
  rw [htrim, declaredName?_append gap.ne_nil gap.blank name.ne_nil name.bare
    name.semicolon_not_mem hblanks hrest]

/-- A line that declares something after one keyword declares nothing after another. -/
theorem declaredName?_other_keyword (keyword other : Text) (hkeyword : keyword ≠ [])
    (hstarts : startsBlank keyword = false) (hother : other ≠ [])
    (hne : keyword.head? ≠ other.head?) (indent : Blanks) (gap : Gap) (name : Name)
    (trailer : Trailer) :
    declaredName? other (trim (SourceLine.declaration indent keyword gap name trailer)) = none := by
  obtain ⟨blanks, rest, -, -, htrim⟩ := trim_declaration indent hkeyword hstarts gap name trailer
  refine declaredName?_eq_none ?_
  rintro ⟨tail, htail, -⟩
  have hhead := congrArg List.head? (htrim.symm.trans htail)
  rw [List.head?_append_of_ne_nil _ hkeyword, List.head?_append_of_ne_nil _ hother] at hhead
  exact hne hhead

theorem withoutModifier?_modified (name : Name) (modifier : Option Gap)
    (needed : Announces staticModifier name.text → modifier ≠ none) :
    withoutModifier? (name.modified modifier).text = some name.text := by
  cases modifier with
  | none => exact withoutModifier?_eq_self fun h => needed h rfl
  | some gap => exact withoutModifier?_append gap.ne_nil gap.blank name.ne_nil name.bare

/-- **The package of a line is read back.** -/
theorem declaredName?_line (line : SourceLine) :
    declaredName? packageKeyword (trim line.text) = line.package?.map Name.text := by
  cases line with
  | package indent gap name trailer =>
      exact declaredName?_declaration indent (by decide) (by decide) gap name trailer
  | imported indent gap modifier name trailer needed =>
      exact declaredName?_other_keyword importKeyword packageKeyword (by decide) (by decide)
        (by decide) (by decide) indent gap (name.modified modifier) trailer
  | other text _ silent => exact declaredName?_eq_none (silent packageKeyword (by simp))

/-- **The import of a line is read back.** -/
theorem importedName?_line (line : SourceLine) :
    importedName? (trim line.text) = line.import?.map Name.text := by
  cases line with
  | package indent gap name trailer =>
      have hnone := declaredName?_other_keyword packageKeyword importKeyword (by decide)
        (by decide) (by decide) (by decide) indent gap name trailer
      rw [importedName?, SourceLine.text, hnone]
      rfl
  | imported indent gap modifier name trailer needed =>
      rw [importedName?, SourceLine.text,
        declaredName?_declaration indent (by decide) (by decide) gap (name.modified modifier)
          trailer, Option.bind_some, withoutModifier?_modified name modifier needed]
      rfl
  | other text _ silent =>
      rw [importedName?, SourceLine.text, declaredName?_eq_none (silent importKeyword (by simp))]
      rfl

theorem newline_not_mem_declaration (indent : Blanks) {keyword : Text} (hkeyword : '\n' ∉ keyword)
    (gap : Gap) (name : Name) (trailer : Trailer) :
    '\n' ∉ SourceLine.declaration indent keyword gap name trailer := by
  have htrailer : '\n' ∉ trailer.text := by
    have hblanks := trailer.blanks.newline_not_mem
    cases hremark : trailer.remark with
    | none => simp [Trailer.text, Trailer.rest, hremark, hblanks]
    | some remark => simp [Trailer.text, Trailer.rest, hremark, hblanks, remark.newline_not_mem]
  simp [SourceLine.declaration, indent.newline_not_mem, hkeyword, gap.newline_not_mem,
    name.newline_not_mem, htrailer]

theorem newline_not_mem_line (line : SourceLine) : '\n' ∉ line.text := by
  cases line with
  | package indent gap name trailer =>
      exact newline_not_mem_declaration indent (by decide) gap name trailer
  | imported indent gap modifier name trailer needed =>
      exact newline_not_mem_declaration indent (by decide) gap (name.modified modifier) trailer
  | other text newline_not_mem silent => exact newline_not_mem

/-! ## Whole files -/

/-- What is read from trimmed lines is read from the lines as they were written. -/
theorem WrittenSource.filterMap_content (f : Text → Option Text) (hempty : f [] = none)
    (source : WrittenSource) :
    ((PackageAtlas.lines source.content).map trim).filterMap f
      = source.lines.filterMap fun line => f (trim line.text) := by
  have hended : ∀ line ∈ source.ended.map fun line => (line.1.text, line.2), '\n' ∉ line.1 := by
    intro line hline
    obtain ⟨written, -, rfl⟩ := List.mem_map.1 hline
    exact newline_not_mem_line written.1
  have hlast : '\n' ∉ (source.last.map SourceLine.text).getD [] := by
    cases source.last with
    | none => exact List.not_mem_nil
    | some line => exact newline_not_mem_line line
  have htexts : (source.ended.map fun line => (line.1.text, line.2)).map Prod.fst
      = (source.ended.map Prod.fst).map SourceLine.text := by simp
  rw [WrittenSource.content, filterMap_lines f hempty hended hlast, WrittenSource.lines, htexts,
    List.map_append, List.filterMap_append, List.filterMap_append, List.map_map,
    List.filterMap_map]
  refine congrArg₂ _ rfl ?_
  cases source.last with
  | none =>
      have htrim : f (trim []) = none := hempty
      simp [htrim]
  | some line => rfl

/-- **Extraction undoes writing.** Take a source file in which one line names a package and others
name what is imported, with any blanks around the names, any text behind a semicolon after them, any
lines that declare nothing between them, and lines ended in either way. Its record, under a file
name made of the class name, is the package, the class and the imports in their order. -/
theorem ofLines_content (package : Name) (className : Text) (dependencies : List Name)
    (source : WrittenSource) (hne : className ≠ []) (hslash : '/' ∉ className)
    (hpackage : source.packages = [package]) (himports : source.imports = dependencies) :
    Record.ofLines (className ++ ".java".toList) (PackageAtlas.lines source.content)
      = ⟨package.text, className, dependencies.map Name.text⟩ := by
  have hpackages : ((PackageAtlas.lines source.content).map trim).filterMap
      (declaredName? packageKeyword) = [package.text] := by
    rw [source.filterMap_content _ rfl]
    simp only [declaredName?_line]
    rw [← List.map_filterMap, ← WrittenSource.packages, hpackage, List.map_singleton]
  have hdependencies : ((PackageAtlas.lines source.content).map trim).filterMap importedName?
      = dependencies.map Name.text := by
    rw [source.filterMap_content _ rfl]
    simp only [importedName?_line]
    rw [← List.map_filterMap, ← WrittenSource.imports, himports]
  have hstem : stem (className ++ ".java".toList) = className :=
    stem_append hne hslash (by decide) (by decide) (by decide)
  rw [Record.ofLines, ← List.head?_filterMap, hpackages, hdependencies, hstem]
  rfl

/-- A file with a modified import before its package, an import whose name looks modified, a line
that is no import, both ends of lines and a last line without one. -/
def scattered : WrittenSource where
  ended :=
    [(.imported ⟨['\t'], by decide, by decide⟩ ⟨⟨[' '], by decide, by decide⟩, by decide⟩
        (some ⟨⟨[' ', ' '], by decide, by decide⟩, by decide⟩)
        ⟨"static x.Y".toList, by decide, ⟨by decide, by decide⟩, by decide, by decide⟩
        ⟨⟨[], by decide, by decide⟩, some ⟨" // ; y".toList, by decide⟩⟩ (by decide),
      .returnNewline),
    (.other "imports of a.b".toList (by decide) (by decide), .newline),
    (.package ⟨[], by decide, by decide⟩ ⟨⟨['\u3000'], by decide, by decide⟩, by decide⟩
        ⟨"a b.c".toList, by decide, ⟨by decide, by decide⟩, by decide, by decide⟩
        ⟨⟨[' '], by decide, by decide⟩, none⟩,
      .returnNewline)]
  last := some (.imported ⟨[], by decide, by decide⟩ ⟨⟨[' '], by decide, by decide⟩, by decide⟩ none
    ⟨"staticZ".toList, by decide, ⟨by decide, by decide⟩, by decide, by decide⟩
    ⟨⟨['\r'], by decide, by decide⟩, none⟩ (by decide))

/-- What is read from `scattered`, in a file whose class has a dot in its name. -/
theorem ofLines_content_scattered :
    scattered.content = ("\timport static  static x.Y; // ; y\r\nimports of a.b\n"
        ++ "package\u3000a b.c \r\nimport staticZ\r").toList ∧
      "C.test".toList ≠ [] ∧ '/' ∉ "C.test".toList ∧
      scattered.packages.map Name.text = ["a b.c".toList] ∧
      scattered.imports.map Name.text = ["static x.Y".toList, "staticZ".toList] ∧
      Record.ofLines "C.test.java".toList (PackageAtlas.lines scattered.content)
        = ⟨"a b.c".toList, "C.test".toList, ["static x.Y".toList, "staticZ".toList]⟩ :=
  ⟨by decide, by decide, by decide, by decide, by decide,
    ofLines_content _ "C.test".toList _ scattered (by decide) (by decide) rfl rfl⟩

end PackageAtlas.SourceText
