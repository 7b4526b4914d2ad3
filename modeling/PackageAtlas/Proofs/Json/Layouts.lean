import PackageAtlas.Proofs.Json.Spacing

set_option autoImplicit false

/-! # Both layouts are read back

The compact and the indented layout differ in their blanks alone: each is a text that `Spaced`
allows. So every value is read back from either, the empty arrays and objects of the indented
layout included (`parse?_compact`, `parse?_indented`). -/

namespace PackageAtlas.Json

/-! ## The compact layout -/

mutual

theorem spaced_compact : ∀ v : Json, Spaced (.value v) (compact v)
  | .null => .null
  | .bool value => .bool value
  | .integer value => .integer value
  | .decimal negative digits exponent => .decimal negative digits exponent
  | .string value => .string value
  | .array [] => .emptyArray gap_nil
  | .array (item :: items) => .array (spaced_compactItems item items)
  | .object [] => .emptyObject gap_nil
  | .object ((key, value) :: members) => .object (spaced_compactMembers key value members)
termination_by v => sizeOf v

theorem spaced_compactItems : ∀ (item : Json) (items : List Json),
    Spaced (.items (item :: items)) (compactItems (item :: items) ++ [']'])
  | item, [] => .lastItem gap_nil (spaced_compact item) gap_nil
  | item, next :: rest => by
      rw [compactItems, List.append_assoc, List.cons_append]
      exact .item gap_nil (spaced_compact item) gap_nil (spaced_compactItems next rest)
termination_by item items => sizeOf (item :: items)

theorem spaced_compactMembers : ∀ (key : Text) (value : Json) (members : List (Text × Json)),
    Spaced (.members ((key, value) :: members))
      (compactMembers ((key, value) :: members) ++ ['\x7d'])
  | key, value, [] => by
      rw [compactMembers, List.append_assoc, List.cons_append]
      exact .lastMember key gap_nil gap_nil gap_nil (spaced_compact value) gap_nil
  | key, value, (name, next) :: rest => by
      rw [compactMembers, List.append_assoc, List.cons_append, List.append_assoc, List.cons_append]
      exact .member key gap_nil gap_nil gap_nil (spaced_compact value) gap_nil
        (spaced_compactMembers name next rest)
termination_by key value members => sizeOf ((key, value) :: members)

end

/-! ## The indented layout -/

theorem gap_freshLine (depth : Nat) : Gap (freshLine depth) := by
  intro c hc
  rcases List.mem_cons.1 hc with rfl | hc
  · decide
  · rw [List.eq_of_mem_replicate hc]
    decide

mutual

theorem spaced_indented : ∀ (depth : Nat) (v : Json), Spaced (.value v) (indented depth v)
  | _, .null => .null
  | _, .bool value => .bool value
  | _, .integer value => .integer value
  | _, .decimal negative digits exponent => .decimal negative digits exponent
  | _, .string value => .string value
  | _, .array [] => .emptyArray gap_nil
  | depth, .array (item :: items) => by
      rw [indented, List.append_assoc, List.append_assoc, List.append_assoc]
      exact .array (spaced_indentedItems depth item items)
  | _, .object [] => .emptyObject gap_nil
  | depth, .object ((key, value) :: members) => by
      rw [indented]
      simp only [List.append_assoc, List.cons_append]
      exact .object (spaced_indentedMembers depth key value members)
termination_by _ v => sizeOf v

/-- The items behind a bracket at a depth, which stand one deeper. -/
theorem spaced_indentedItems : ∀ (depth : Nat) (item : Json) (items : List Json),
    Spaced (.items (item :: items))
      (freshLine (depth + 1) ++ (indented (depth + 1) item
        ++ (indentedItems (depth + 1) items ++ (freshLine depth ++ [']']))))
  | depth, item, [] =>
      .lastItem (gap_freshLine _) (spaced_indented _ item) (gap_freshLine depth)
  | depth, item, next :: rest => by
      rw [indentedItems]
      simp only [List.append_assoc, List.cons_append]
      exact .item (gap_freshLine _) (spaced_indented _ item) gap_nil
        (spaced_indentedItems depth next rest)
termination_by _ item items => sizeOf (item :: items)

/-- The members behind a brace at a depth, which stand one deeper. -/
theorem spaced_indentedMembers : ∀ (depth : Nat) (key : Text) (value : Json)
    (members : List (Text × Json)),
    Spaced (.members ((key, value) :: members))
      (freshLine (depth + 1) ++ (quoted key ++ ':' :: ' ' :: (indented (depth + 1) value
        ++ (indentedMembers (depth + 1) members ++ (freshLine depth ++ ['\x7d'])))))
  | depth, key, value, [] =>
      .lastMember key (gap_freshLine _) gap_nil (gap_singleton rfl) (spaced_indented _ value)
        (gap_freshLine depth)
  | depth, key, value, (name, next) :: rest => by
      rw [indentedMembers]
      simp only [List.append_assoc, List.cons_append]
      exact .member key (gap_freshLine _) gap_nil (gap_singleton rfl) (spaced_indented _ value)
        gap_nil (spaced_indentedMembers depth name next rest)
termination_by _ key value members => sizeOf ((key, value) :: members)

end

/-! ## Reading back -/

theorem parse?_compact (v : Json) : parse? (compact v) = some v := by
  simpa using parse?_spaced gap_nil (spaced_compact v) gap_nil

/-- An indented value is read back also from a text that goes on with blanks. -/
theorem parse?_indented (depth : Nat) (v : Json) {after : Text} (hafter : Gap after) :
    parse? (indented depth v ++ after) = some v := by
  simpa using parse?_spaced gap_nil (spaced_indented depth v) hafter

end PackageAtlas.Json
