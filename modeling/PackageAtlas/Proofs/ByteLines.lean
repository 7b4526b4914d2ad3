import Mathlib.Data.List.Basic
import PackageAtlas.Proofs.Lines
import PackageAtlas.Proofs.RecordPath
import PackageAtlas.Proofs.Utf8Ascii
import PackageAtlas.Search.Collection

set_option autoImplicit false

/-! # Lines of bytes

A file can be split into lines before it is decoded or after: the lines are the same
(`lines_decodeLossy`), since the newlines and carriage returns of the text are those of the bytes.
So bytes that are no text do not reach beyond the line they stand in (`readLines_by_line`). Without
its bytes a line is still one, but not if it stands at the end without a newline
(`readLines_emptied`). -/

namespace PackageAtlas

namespace Utf8

/-! ## Whole texts -/

theorem started_ready : Started .ready :=
  trivial

theorem decodeLossy_eq_nil_iff (bytes : Bytes) : decodeLossy bytes = [] ↔ bytes = [] := by
  constructor
  · intro h
    rcases List.eq_nil_or_concat' bytes with rfl | ⟨front, b, rfl⟩
    · rfl
    · obtain ⟨text, state, -, heq⟩ := exists_decodeFrom_concat front b started_ready
      rw [decodeLossy, heq, List.append_eq_nil_iff] at h
      exact absurd h.2 (given_ne_nil state b)
  · rintro rfl
    rfl

theorem newline_not_mem_decodeLossy {bytes : Bytes} (h : 0x0A ∉ bytes) :
    '\n' ∉ decodeLossy bytes := by
  intro hmem
  obtain ⟨b, hb, heq⟩ := exists_of_mem_decodeFrom (by decide) (by decide) bytes started_ready hmem
  have hnewline : b = 0x0A := UInt8.toNat_inj.1 heq
  exact h (hnewline ▸ hb)

/-- The text of a line ends with a carriage return if the line does. -/
theorem withoutReturn_decodeLossy (line : Bytes) :
    Lines.withoutReturn '\r' (decodeLossy line) = decodeLossy (Lines.withoutReturn 0x0D line) := by
  rcases List.eq_nil_or_concat' line with rfl | ⟨front, b, rfl⟩
  · rfl
  · unfold Lines.withoutReturn
    rw [List.getLast?_concat, List.dropLast_concat]
    by_cases hb : b = 0x0D
    · subst hb
      have hfront : decodeLossy (front ++ [0x0D]) = decodeLossy front ++ ['\r'] :=
        decodeFrom_append_ascii (by decide) front [] started_ready
      rw [hfront, List.getLast?_concat, if_pos rfl, if_pos rfl, List.dropLast_concat]
    · have hlast : (decodeLossy (front ++ [b])).getLast? ≠ some '\r' := by
        intro hlast
        obtain ⟨text, state, hstate, heq⟩ := exists_decodeFrom_concat front b started_ready
        rw [decodeLossy, heq, List.getLast?_append_of_ne_nil _ (given_ne_nil state b)] at hlast
        have hreturn := toNat_of_mem_given hstate (List.mem_of_getLast? hlast) (by decide)
          (by decide)
        exact hb (UInt8.toNat_inj.1 hreturn.symm)
      rw [if_neg hlast, if_neg (by simpa using hb)]

theorem decodeLossy_intercalate {pieces : List Bytes} (hne : pieces ≠ []) :
    decodeLossy ([0x0A].intercalate pieces) = ['\n'].intercalate (pieces.map decodeLossy) := by
  induction pieces with
  | nil => exact absurd rfl hne
  | cons piece rest ih =>
      cases rest with
      | nil => simp
      | cons next more =>
          rw [List.intercalate_cons_cons, List.map_cons, List.map_cons,
            List.intercalate_cons_cons, ← List.map_cons, ← ih (List.cons_ne_nil _ _),
            List.append_assoc, List.append_assoc]
          exact decodeFrom_append_ascii (by decide) piece _ started_ready

/-- Decoding does not move the newlines. -/
theorem splitOn_decodeLossy (content : Bytes) :
    (decodeLossy content).splitOn '\n' = (content.splitOn 0x0A).map decodeLossy := by
  have hne : content.splitOn 0x0A ≠ [] := List.splitOn_ne_nil _ _
  have hpieces : ∀ text ∈ (content.splitOn 0x0A).map decodeLossy, '\n' ∉ text := by
    intro text htext
    obtain ⟨piece, hpiece, rfl⟩ := List.mem_map.1 htext
    exact newline_not_mem_decodeLossy (Record.not_mem_of_mem_splitOn 0x0A content piece hpiece)
  have hcontent : decodeLossy content
      = ['\n'].intercalate ((content.splitOn 0x0A).map decodeLossy) := by
    rw [← decodeLossy_intercalate hne, List.intercalate_splitOn]
  rw [hcontent]
  exact List.splitOn_intercalate '\n' hpieces (by simp [hne])

/-- **The lines of a file can be decoded one by one.** -/
theorem lines_decodeLossy (content : Bytes) :
    lines (decodeLossy content) = (byteLines content).map decodeLossy := by
  rw [lines, byteLines, Lines.split, Lines.split, splitOn_decodeLossy]
  exact Lines.ofPieces_map decodeLossy_eq_nil_iff withoutReturn_decodeLossy _

end Utf8

/-! ## Files -/

namespace FileTree

open Utf8

/-- The lines that stand around a line of a file do not depend on it. -/
theorem exists_lines_around {front back : Bytes} (hfront : front = [] ∨ front.getLast? = some 0x0A)
    (hback : back = [] ∨ back.head? = some 0x0A) : ∃ before after : List Text,
      ∀ line : Bytes, 0x0A ∉ line → ∃ here : Option Text, (here = none ↔ line = [] ∧ back = []) ∧
        lines (decodeLossy (front ++ line ++ back)) = before ++ here.toList ++ after := by
  refine ⟨(byteLines front).map decodeLossy, (byteLines (back.drop 1)).map decodeLossy, ?_⟩
  intro line hline
  rw [lines_decodeLossy, byteLines, List.append_assoc, Lines.split_append hfront]
  rcases hback with rfl | hhead
  · rw [List.append_nil, Lines.split_unended hline]
    by_cases hnil : line = []
    · exact ⟨none, by simp [hnil], by simp [hnil, byteLines]⟩
    · exact ⟨some (decodeLossy line), by simp [hnil], by simp [hnil, byteLines]⟩
  · obtain ⟨rest, rfl⟩ := List.head?_eq_some_iff.1 hhead
    refine ⟨some (decodeLossy (Lines.withoutReturn 0x0D line)), by simp, ?_⟩
    rw [Lines.split_ended hline]
    simp [byteLines]

/-- **Bytes that are no text do not reach beyond their line.** The lines that are read from a file
are its lines as bytes, each decoded by itself. So wherever a line stands in a file, the lines
before it and after it are the same whatever bytes it has, and it is one line; none is left only
where the last line has no newline and loses all its bytes. -/
theorem readLines_by_line :
    (∀ (tree : FileTree) (path content : Bytes), tree.read path = .ok content →
      tree.readLines path = .ok ((byteLines content).map decodeLossy)) ∧
    ∀ front back : Bytes, (front = [] ∨ front.getLast? = some 0x0A) →
      (back = [] ∨ back.head? = some 0x0A) → ∃ before after : List Text,
        ∀ line : Bytes, 0x0A ∉ line → ∃ here : Option Text,
          (here = none ↔ line = [] ∧ back = []) ∧
          ∀ (tree : FileTree) (path : Bytes), tree.read path = .ok (front ++ line ++ back) →
            tree.readLines path = .ok (before ++ here.toList ++ after) := by
  have hread : ∀ (tree : FileTree) (path content : Bytes), tree.read path = .ok content →
      tree.readLines path = .ok (lines (decodeLossy content)) := by
    intro tree path content h
    rw [readLines, h]
  refine ⟨?_, ?_⟩
  · intro tree path content h
    rw [hread tree path content h, lines_decodeLossy]
  · intro front back hfront hback
    obtain ⟨before, after, haround⟩ := exists_lines_around hfront hback
    refine ⟨before, after, ?_⟩
    intro line hline
    obtain ⟨here, hnone, hlines⟩ := haround line hline
    refine ⟨here, hnone, fun tree path h => ?_⟩
    rw [hread tree path _ h, hlines]

/-- A tree with one file. -/
def leaf (content : Bytes) : FileTree where
  top := [(Utf8.encode "A".toList, .file content)]
  here := []

/-- The last line loses its only byte: the file keeps its newline and has one line less. -/
theorem readLines_emptied :
    let path : Bytes := Utf8.encode "A".toList
    let front : Bytes := [0x61, 0x0A]
    let line : Bytes := [0x62]
    (front.getLast? = some 0x0A ∧ 0x0A ∉ line ∧ 0x0A ∉ ([] : Bytes)) ∧
    ∃ before after : List Text,
      (leaf (front ++ line)).readLines path = .ok before ∧
      (leaf (front ++ [])).readLines path = .ok after ∧ before.length ≠ after.length := by
  intro path front line
  exact ⟨by decide, ["a".toList, "b".toList], ["a".toList], by decide +kernel, by decide +kernel,
    by decide⟩

/-- A character that is cut short at the end of a line, and one that is spelled in too many bytes,
between a line with a carriage return and one without a newline. -/
theorem readLines_by_line_torn :
    let path : Bytes := Utf8.encode "A".toList
    let front : Bytes := [0x61, 0x0D, 0x0A]
    let back : Bytes := [0x0A, 0x62]
    let torn : FileTree := leaf (front ++ [0xE2, 0x82] ++ back)
    let overlong : FileTree := leaf (front ++ [0xC0, 0x8A] ++ back)
    (torn.read path = .ok (front ++ [0xE2, 0x82] ++ back) ∧
      torn.readLines path = .ok ([[0x61], [0xE2, 0x82], [0x62]].map decodeLossy)) ∧
    (front = [] ∨ front.getLast? = some 0x0A) ∧ (back = [] ∨ back.head? = some 0x0A) ∧
    ∃ (before after : List Text) (here here' : Text),
      torn.readLines path = .ok (before ++ [here] ++ after) ∧
      overlong.readLines path = .ok (before ++ [here'] ++ after) := by
  intro path front back torn overlong
  have hread : ∀ content, (leaf content).read path = .ok content := fun content => rfl
  have hfront : front = [] ∨ front.getLast? = some 0x0A := Or.inr rfl
  have hback : back = [] ∨ back.head? = some 0x0A := Or.inr rfl
  obtain ⟨before, after, haround⟩ := readLines_by_line.2 front back hfront hback
  have hline : ∀ line : Bytes, 0x0A ∉ line → ∃ here : Text,
      (leaf (front ++ line ++ back)).readLines path = .ok (before ++ [here] ++ after) := by
    intro line hnewline
    obtain ⟨here, hnone, hlines⟩ := haround line hnewline
    cases here with
    | none => exact absurd (hnone.1 rfl).2 (by decide)
    | some text => exact ⟨text, hlines _ path (hread _)⟩
  obtain ⟨here, hhere⟩ := hline [0xE2, 0x82] (by decide)
  obtain ⟨here', hhere'⟩ := hline [0xC0, 0x8A] (by decide)
  exact ⟨⟨hread _, readLines_by_line.1 _ path _ (hread _)⟩, hfront, hback, before, after, here,
    here', hhere, hhere'⟩

end FileTree

end PackageAtlas
