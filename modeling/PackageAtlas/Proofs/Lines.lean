import PackageAtlas.Text.Lines

set_option autoImplicit false

/-! # Splitting into lines

What splitting does, for any elements that stand for newline and carriage return: line by line
(`split_ended`, `split_unended`), for a text that ends with a newline and another behind it
(`split_append`), and for pieces that are changed one by one (`ofPieces_map`). -/

namespace PackageAtlas.Lines

variable {α β : Type} [DecidableEq α] [DecidableEq β]

@[simp]
theorem split_nil (newline ret : α) : split newline ret [] = [] := by
  simp [split, ofPieces]

theorem split_ended {newline ret : α} {line : List α} (hline : newline ∉ line) (rest : List α) :
    split newline ret (line ++ newline :: rest)
      = withoutReturn ret line :: split newline ret rest := by
  unfold split
  rw [List.splitOn_append_cons_self_of_not_mem hline]
  obtain ⟨next, more, hnext⟩ := List.exists_cons_of_ne_nil (List.splitOn_ne_nil newline rest)
  rw [hnext, ofPieces]

theorem split_unended {newline ret : α} {line : List α} (hline : newline ∉ line) :
    split newline ret line = if line = [] then [] else [line] := by
  rw [split, List.splitOn_eq_singleton hline, ofPieces]

theorem ofPieces_append (ret : α) (front : List (List α)) {back : List (List α)}
    (hback : back ≠ []) :
    ofPieces ret (front ++ back) = front.map (withoutReturn ret) ++ ofPieces ret back := by
  induction front with
  | nil => rfl
  | cons piece rest ih =>
      obtain ⟨next, more, hnext⟩ : ∃ next more, rest ++ back = next :: more :=
        List.exists_cons_of_ne_nil (by simp [hback])
      rw [List.cons_append, hnext, ofPieces, ← hnext, ih]
      rfl

/-- The lines of a text that ends with a newline are followed by those of the text behind it. -/
theorem split_append {newline ret : α} {front : List α}
    (hfront : front = [] ∨ front.getLast? = some newline) (rest : List α) :
    split newline ret (front ++ rest) = split newline ret front ++ split newline ret rest := by
  rcases hfront with rfl | hlast
  · rfl
  · obtain ⟨ended, rfl⟩ := List.getLast?_eq_some_iff.1 hlast
    have hpieces : ∀ back : List α, split newline ret (ended ++ newline :: back)
        = (ended.splitOn newline).map (withoutReturn ret) ++ split newline ret back := by
      intro back
      unfold split
      rw [List.splitOn_append_cons_self, ofPieces_append _ _ (List.splitOn_ne_nil _ _)]
    rw [List.append_assoc, List.singleton_append, hpieces, hpieces]
    simp [split, ofPieces]

/-- Pieces can be changed before they become lines or after, if what is done to them keeps apart
what is empty and what ends with a carriage return. -/
theorem ofPieces_map {f : List α → List β} {ret : α} {ret' : β}
    (hnil : ∀ piece, f piece = [] ↔ piece = [])
    (hret : ∀ piece, withoutReturn ret' (f piece) = f (withoutReturn ret piece))
    (pieces : List (List α)) : ofPieces ret' (pieces.map f) = (ofPieces ret pieces).map f := by
  induction pieces with
  | nil => rfl
  | cons piece rest ih =>
      cases rest with
      | nil =>
          rw [List.map_singleton, ofPieces, ofPieces]
          simp only [hnil]
          split <;> rfl
      | cons next more =>
          rw [List.map_cons, List.map_cons, ofPieces, ofPieces, List.map_cons, hret]
          exact congrArg _ ih

end PackageAtlas.Lines
