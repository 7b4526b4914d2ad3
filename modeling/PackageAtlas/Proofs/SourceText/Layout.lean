import Mathlib.Data.List.Basic
import PackageAtlas.Proofs.SourceText.Lines
import PackageAtlas.Record.SourceText

set_option autoImplicit false

/-! # The layout of a source file

A source file counts only by its lines without the blanks around them, and an empty line counts for
nothing: that is its `substance`, and files of one substance have one record
(`ofLines_eq_of_substance`). Blanks at the start or the end of a line are no part of it, newlines
among them, so a file may be indented, have more blank lines or be ended in another way. -/

namespace PackageAtlas.SourceText

/-- What counts in a text: the pieces between newlines, trimmed, without those that are empty. -/
def substance (content : Text) : List Text :=
  ((content.splitOn '\n').map trim).filter (· ≠ [])

/-- A text with a carriage return put in front of each newline. -/
def withReturns (content : Text) : Text :=
  content.flatMap fun c => if c = '\n' then ['\r', '\n'] else [c]

/-- Whether a line starts or ends between two parts of a text. -/
def AtLineEdge (before after : Text) : Prop :=
  before = [] ∨ before.getLast? = some '\n' ∨ after = [] ∨ after.head? = some '\n'

/-! ## Line by line -/

/-- Every text is a line, or a line with a newline behind it and then a text. -/
theorem line_induction {motive : Text → Prop} (unended : ∀ line, '\n' ∉ line → motive line)
    (ended : ∀ line rest, '\n' ∉ line → motive rest → motive (line ++ '\n' :: rest))
    (content : Text) : motive content := by
  induction hlength : content.length using Nat.strong_induction_on generalizing content with
  | _ n ih =>
      by_cases hnewline : '\n' ∈ content
      · obtain ⟨line, rest, rfl, hline⟩ := List.eq_append_cons_of_mem hnewline
        refine ended line rest hline (ih rest.length ?_ rest rfl)
        simp only [List.length_append, List.length_cons] at hlength
        omega
      · exact unended content hnewline

theorem substance_append_newline (before after : Text) :
    substance (before ++ '\n' :: after) = substance before ++ substance after := by
  rw [substance, List.splitOn_append_cons_self, List.map_append, List.filter_append]
  rfl

theorem substance_newline_cons (content : Text) : substance ('\n' :: content) = substance content :=
  substance_append_newline [] content

theorem substance_line {line : Text} (h : '\n' ∉ line) :
    substance line = [trim line].filter (· ≠ []) := by
  rw [substance, List.splitOn_eq_singleton h, List.map_singleton]

/-- The lines of a text have its substance. -/
theorem filter_map_trim_lines (content : Text) :
    ((lines content).map trim).filter (· ≠ []) = substance content := by
  induction content using line_induction with
  | unended line hline =>
      rw [lines_unended hline, substance_line hline]
      by_cases hnil : line = []
      · subst hnil
        rfl
      · rw [if_neg hnil, List.map_singleton]
  | ended line rest hline ih =>
      rw [lines_ended hline, List.map_cons, trim_withoutReturn, substance_append_newline,
        substance_line hline, ← ih, ← List.filter_append, List.singleton_append]

/-! ## Blanks -/

theorem substance_cons_blank {c : Char} (hc : isBlank c = true) (content : Text) :
    substance (c :: content) = substance content := by
  by_cases hnewline : c = '\n'
  · rw [hnewline, substance_newline_cons]
  have hblank : ∀ d ∈ [c], isBlank d = true := by simpa using hc
  have htrim : ∀ line, trim (c :: line) = trim line := fun line =>
    congrArg trimEnd (trimStart_append hblank line)
  cases content using line_induction with
  | unended line hline =>
      rw [substance_line hline, substance_line (by simp [Ne.symm hnewline, hline]), htrim]
  | ended line rest hline _ =>
      rw [← List.cons_append, substance_append_newline, substance_append_newline,
        substance_line hline, substance_line (by simp [Ne.symm hnewline, hline]), htrim]

theorem substance_concat_blank {c : Char} (hc : isBlank c = true) (content : Text) :
    substance (content ++ [c]) = substance content := by
  by_cases hnewline : c = '\n'
  · rw [hnewline, substance_append_newline]
    exact List.append_nil _
  induction content using line_induction with
  | unended line hline =>
      rw [substance_line hline, substance_line (by simp [Ne.symm hnewline, hline]),
        trim_append_blanks (by simpa using hc)]
  | ended line rest _ ih =>
      rw [List.append_assoc, List.cons_append, substance_append_newline, ih,
        substance_append_newline]

theorem substance_blanks_append {blanks : Text} (hblanks : ∀ c ∈ blanks, isBlank c = true)
    (content : Text) : substance (blanks ++ content) = substance content := by
  induction blanks with
  | nil => rfl
  | cons c rest ih =>
      obtain ⟨hc, hrest⟩ := List.forall_mem_cons.1 hblanks
      rw [List.cons_append, substance_cons_blank hc, ih hrest]

theorem substance_append_blanks {blanks : Text} (hblanks : ∀ c ∈ blanks, isBlank c = true) :
    ∀ content : Text, substance (content ++ blanks) = substance content := by
  induction blanks with
  | nil => simp
  | cons c rest ih =>
      intro content
      obtain ⟨hc, hrest⟩ := List.forall_mem_cons.1 hblanks
      rw [List.append_cons, ih hrest, substance_concat_blank hc]

/-- Blanks where a line starts or ends are no part of the substance. -/
theorem substance_insert_blanks {before blanks after : Text}
    (hblanks : ∀ c ∈ blanks, isBlank c = true) (hedge : AtLineEdge before after) :
    substance (before ++ blanks ++ after) = substance (before ++ after) := by
  rcases hedge with rfl | hlast | rfl | hhead
  · exact substance_blanks_append hblanks after
  · obtain ⟨front, rfl⟩ := List.getLast?_eq_some_iff.1 hlast
    simp only [List.append_assoc, List.cons_append, List.nil_append]
    rw [substance_append_newline, substance_blanks_append hblanks, substance_append_newline]
  · rw [List.append_nil, List.append_nil, substance_append_blanks hblanks]
  · obtain ⟨rest, rfl⟩ := List.head?_eq_some_iff.1 hhead
    rw [substance_append_newline, substance_append_blanks hblanks, substance_append_newline]

theorem withReturns_line {line : Text} (h : '\n' ∉ line) : withReturns line = line := by
  have hkeep : ∀ c ∈ line, (if c = '\n' then ['\r', '\n'] else [c]) = [c] := fun c hc =>
    if_neg fun (he : c = '\n') => h (he ▸ hc)
  rw [withReturns, List.flatMap_congr hkeep, List.flatMap_singleton']

theorem substance_withReturns (content : Text) :
    substance (withReturns content) = substance content := by
  induction content using line_induction with
  | unended line hline => rw [withReturns_line hline]
  | ended line rest hline ih =>
      have hreturns : withReturns (line ++ '\n' :: rest)
          = line ++ ['\r'] ++ '\n' :: withReturns rest := by
        rw [withReturns, List.flatMap_append, ← withReturns, withReturns_line hline]
        simp [withReturns]
      rw [hreturns, substance_append_newline, ih, substance_append_blanks (by decide),
        substance_append_newline]

/-! ## Records -/

theorem filterMap_filter_ne_nil {f : Text → Option Text} (hempty : f [] = none) (t : List Text) :
    (t.filter (· ≠ [])).filterMap f = t.filterMap f := by
  induction t with
  | nil => rfl
  | cons line rest ih =>
      by_cases hnil : line = []
      · rw [hnil, List.filter_cons_of_neg (by simp), List.filterMap_cons_none hempty, ih]
      · rw [List.filter_cons_of_pos (by simpa using hnil), List.filterMap_cons,
          List.filterMap_cons, ih]

/-- What is read from the trimmed lines of a text is read from its substance. -/
theorem filterMap_substance {f : Text → Option Text} (hempty : f [] = none) (content : Text) :
    (substance content).filterMap f = ((lines content).map trim).filterMap f := by
  rw [← filter_map_trim_lines, filterMap_filter_ne_nil hempty]

theorem ofLines_eq (filename content : Text) :
    Record.ofLines filename (lines content)
      = ⟨((substance content).filterMap (declaredName? packageKeyword)).head?.getD
            Record.unknownPackage,
          stem filename, (substance content).filterMap importedName?⟩ := by
  rw [filterMap_substance rfl, filterMap_substance rfl, List.head?_filterMap]
  rfl

/-- **Files of one substance have one record.** So it does not matter for the record of a file
whether there is a carriage return in front of its newlines, and what blanks, newlines among them,
are where its lines start and end. -/
theorem ofLines_eq_of_substance (filename : Text) :
    (∀ content other, substance content = substance other →
      Record.ofLines filename (lines content) = Record.ofLines filename (lines other)) ∧
    (∀ content, Record.ofLines filename (lines (withReturns content))
      = Record.ofLines filename (lines content)) ∧
    ∀ before blanks after, (∀ c ∈ blanks, isBlank c = true) → AtLineEdge before after →
      Record.ofLines filename (lines (before ++ blanks ++ after))
        = Record.ofLines filename (lines (before ++ after)) := by
  have hrecord : ∀ content other, substance content = substance other →
      Record.ofLines filename (lines content) = Record.ofLines filename (lines other) := by
    intro content other h
    rw [ofLines_eq, ofLines_eq, h]
  refine ⟨hrecord, fun content => hrecord _ _ (substance_withReturns content), ?_⟩
  intro before blanks after hblanks hedge
  exact hrecord _ _ (substance_insert_blanks hblanks hedge)

/-- Three spellings of a file, the second with a blank line, a carriage return too many and other
blanks than spaces, the third with newlines put in front of its last line. -/
theorem ofLines_eq_of_substance_spelled :
    let content := "package a.b;\nimport c.D;\n".toList
    let other := "\u2028 \r\n\tpackage a.b; \r\r\n\u3000import c.D;".toList
    (substance content = substance other ∧
      Record.ofLines "A.java".toList (lines content)
        = Record.ofLines "A.java".toList (lines other)) ∧
    (∀ c ∈ "\n \u0085".toList, isBlank c = true) ∧
    AtLineEdge "package a.b;\n".toList "import c.D;\n".toList ∧
    Record.ofLines "A.java".toList
        (lines ("package a.b;\n".toList ++ "\n \u0085".toList ++ "import c.D;\n".toList))
      = Record.ofLines "A.java".toList (lines content) := by
  intro content other
  obtain ⟨hrecord, -, hblanks⟩ := ofLines_eq_of_substance "A.java".toList
  have hsubstance : substance content = substance other := by decide
  have hblank : ∀ c ∈ "\n \u0085".toList, isBlank c = true := by decide
  have hedge : AtLineEdge "package a.b;\n".toList "import c.D;\n".toList := Or.inr (Or.inl rfl)
  exact ⟨⟨hsubstance, hrecord content other hsubstance⟩, hblank, hedge, hblanks _ _ _ hblank hedge⟩

end PackageAtlas.SourceText
