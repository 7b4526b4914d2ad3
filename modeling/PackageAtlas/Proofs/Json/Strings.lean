import PackageAtlas.Json.Parser
import PackageAtlas.Json.Printer

set_option autoImplicit false

/-! # Strings of JSON are read back

A character between quotes is written in one of three ways: with a letter behind a backslash, as the
number of a control character, or as itself. Each of them is read as that character, whatever comes
after it (`stringBody?_escapedChar`), so a whole string is read up to its own closing quote
(`stringBody?_quoted`). -/

namespace PackageAtlas.Json

/-! ## One character -/

/-- The characters that are written with a letter behind a backslash, each with its letter. -/
def letters : List (Char × Char) :=
  [('"', '"'), ('\\', '\\'), ('\x08', 'b'), ('\x0c', 'f'), ('\n', 'n'), ('\r', 'r'), ('\t', 't')]

theorem letters_spec : ∀ pair ∈ letters, escapedChar pair.1 = ['\\', pair.2] ∧
    shortEscape? pair.2 = some pair.1 ∧ pair.2 ≠ 'u' := by
  decide

/-- Any other character is written as its number if it is a control character, else as itself. -/
theorem escapedChar_of_not_mem {c : Char} (h : c ∉ letters.map Prod.fst) :
    escapedChar c = if c.toNat < 0x20 then
      ['\\', 'u', '0', '0', hexDigit (c.toNat / 16), hexDigit (c.toNat % 16)] else [c] := by
  simp only [letters, List.map_cons, List.map_nil, List.mem_cons, List.not_mem_nil, or_false,
    not_or] at h
  simp only [escapedChar, h, if_false]

theorem fourHex?_control : ∀ n < 0x20,
    fourHex? '0' '0' (hexDigit (n / 16)) (hexDigit (n % 16)) = some n := by
  decide

theorem charOfUnit?_control {c : Char} (h : c.toNat < 0x20) : charOfUnit? c.toNat = some c := by
  rw [charOfUnit?, if_neg (by omega), Char.ofNat_toNat]

/-- A character is read from what is written for it, and nothing of what comes after it. -/
theorem stringBody?_escapedChar (c : Char) (t : Text) :
    stringBody? (escapedChar c ++ t) = withChar c (stringBody? t) := by
  by_cases hletter : c ∈ letters.map Prod.fst
  · obtain ⟨⟨c, letter⟩, hpair, rfl⟩ := List.mem_map.1 hletter
    obtain ⟨hwritten, hread, hne⟩ := letters_spec _ hpair
    rw [hwritten, List.cons_append, List.singleton_append, stringBody?, hread]
    -- the letter `u` would begin a number
    exact fun _ _ _ _ _ hu _ => hne hu
  by_cases hcontrol : c.toNat < 0x20
  · rw [escapedChar_of_not_mem hletter, if_pos hcontrol]
    simp only [List.cons_append, List.nil_append]
    rw [stringBody?, fourHex?_control _ hcontrol]
    simp only [charOfUnit?_control hcontrol]
  · have hquote : c ≠ '"' := fun h => hletter (by rw [h]; decide)
    have hslash : c ≠ '\\' := fun h => hletter (by rw [h]; decide)
    rw [escapedChar_of_not_mem hletter, if_neg hcontrol, List.singleton_append, stringBody?]
    · rw [if_neg (by simp [hcontrol, hslash])]
    all_goals simp [hquote, hslash]

/-! ## A whole string -/

/-- A string is read from between its quotes, and nothing of what comes after them. -/
theorem stringBody?_quoted (t rest : Text) :
    stringBody? (t.flatMap escapedChar ++ '"' :: rest) = some (t, rest) := by
  induction t with
  | nil => rfl
  | cons c t ih =>
      rw [List.flatMap_cons, List.append_assoc, stringBody?_escapedChar, ih]
      rfl

end PackageAtlas.Json
