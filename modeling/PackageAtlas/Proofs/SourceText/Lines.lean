import PackageAtlas.Proofs.Lines
import PackageAtlas.Proofs.Trim

set_option autoImplicit false

/-! # Lines and their ends

A text can be put together from lines, each ended by a newline or by a carriage return and a
newline, with perhaps one more line that is not ended. `lines` takes it apart again: but for
carriage returns and a last line that is empty these are the lines it was made of, so that nothing
changes for what is read from the lines after trimming (`filterMap_lines`). -/

namespace PackageAtlas

/-- The end of a line. -/
inductive LineEnd where
  | newline
  | returnNewline

/-- A line's end, written. -/
def LineEnd.text : LineEnd → Text
  | .newline => ['\n']
  | .returnNewline => ['\r', '\n']

/-- The carriage return that a line's end puts at the end of the line. -/
def LineEnd.rest : LineEnd → Text
  | .newline => []
  | .returnNewline => ['\r']

theorem LineEnd.text_eq (e : LineEnd) : e.text = e.rest ++ ['\n'] := by
  cases e <;> rfl

/-- Lines with their ends, and a last one without. -/
def endedText (ended : List (Text × LineEnd)) (last : Text) : Text :=
  (ended.flatMap fun line => line.1 ++ line.2.text) ++ last

theorem lines_ended {line : Text} (h : '\n' ∉ line) (rest : Text) :
    lines (line ++ '\n' :: rest) = Lines.withoutReturn '\r' line :: lines rest :=
  Lines.split_ended h rest

theorem lines_unended {line : Text} (h : '\n' ∉ line) :
    lines line = if line = [] then [] else [line] :=
  Lines.split_unended h

variable {β : Type}

/-- **Reading trimmed lines is reading the lines a text was made of**, if there is nothing to be
read from an empty line. -/
theorem filterMap_lines (f : Text → Option β) (hempty : f [] = none)
    {ended : List (Text × LineEnd)} {last : Text} (hended : ∀ line ∈ ended, '\n' ∉ line.1)
    (hlast : '\n' ∉ last) :
    ((lines (endedText ended last)).map trim).filterMap f
      = ((ended.map Prod.fst ++ [last]).map trim).filterMap f := by
  induction ended with
  | nil =>
      rw [endedText, List.flatMap_nil, List.nil_append, lines_unended hlast]
      by_cases hnil : last = []
      · subst hnil
        have htrim : f (trim []) = none := hempty
        simp [htrim]
      · rw [if_neg hnil]
        rfl
  | cons first rest ih =>
      obtain ⟨line, e⟩ := first
      have hline : '\n' ∉ line ++ e.rest := by
        have hfirst : '\n' ∉ line := hended (line, e) (List.mem_cons_self ..)
        cases e <;> simp [LineEnd.rest, hfirst]
      have hblank : ∀ c ∈ e.rest, isBlank c = true := by
        cases e <;> decide
      have htext : endedText ((line, e) :: rest) last
          = line ++ e.rest ++ '\n' :: endedText rest last := by
        simp [endedText, LineEnd.text_eq]
      rw [htext, lines_ended hline, List.map_cons, trim_withoutReturn, trim_append_blanks hblank,
        List.filterMap_cons, ih fun l hl => hended l (List.mem_cons_of_mem _ hl), List.map_cons,
        List.cons_append, List.map_cons, List.filterMap_cons]

end PackageAtlas
