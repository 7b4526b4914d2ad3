import Mathlib.Data.List.Basic
import PackageAtlas.Proofs.Utf8Slices

set_option autoImplicit false

/-! # What a pattern accepts

A pattern stands for all texts that have its pieces in their order, with any text in the place of
each star (`Filled`). The matcher takes each piece where it occurs first and never goes back.
Nothing is lost by that: of all occurrences the first leaves the longest rest
(`exists_afterFirst?`), and in front of a further piece more can always be filled in
(`Filled.append`).

In the bytes of a name the matcher moves an offset. Pieces are found there at the same places
(`firstOffset?_encode`), so the offset always stands between two characters and the name can be cut
there (`acceptsFrom_eq`). -/

namespace PackageAtlas.Glob

open Utf8

/-! ## Pieces with anything between them -/

/-- `t` consists of the pieces, with a filler in front of each. -/
def Filled (pieces : List Text) (t : Text) : Prop :=
  ∃ fillers : List Text, fillers.length = pieces.length ∧
    t = (List.zipWith (· ++ ·) fillers pieces).flatten

theorem filled_nil (t : Text) : Filled [] t ↔ t = [] := by
  constructor
  · rintro ⟨fillers, -, rfl⟩
    simp
  · rintro rfl
    exact ⟨[], rfl, rfl⟩

theorem filled_cons (piece : Text) (pieces : List Text) (t : Text) :
    Filled (piece :: pieces) t ↔
      ∃ filler rest, Filled pieces rest ∧ t = filler ++ piece ++ rest := by
  constructor
  · rintro ⟨fillers, hlength, rfl⟩
    cases fillers with
    | nil => cases hlength
    | cons filler fillers =>
        exact ⟨filler, _, ⟨fillers, Nat.succ.inj hlength, rfl⟩, rfl⟩
  · rintro ⟨filler, rest, ⟨fillers, hlength, rfl⟩, rfl⟩
    exact ⟨filler :: fillers, congrArg (· + 1) hlength, rfl⟩

/-- More can be filled in front of the first piece. -/
theorem Filled.append {pieces : List Text} {t : Text} (h : Filled pieces t) (hne : pieces ≠ [])
    (u : Text) : Filled pieces (u ++ t) := by
  obtain ⟨piece, pieces, rfl⟩ := List.exists_cons_of_ne_nil hne
  obtain ⟨filler, rest, hrest, rfl⟩ := (filled_cons _ _ _).1 h
  exact (filled_cons _ _ _).2 ⟨u ++ filler, rest, hrest, by simp⟩

/-! ## The first occurrence -/

theorem afterFirst?_append (piece rest : Text) : afterFirst? piece (piece ++ rest) = some rest := by
  cases ht : piece ++ rest with
  | nil =>
      obtain ⟨rfl, rfl⟩ := List.append_eq_nil_iff.1 ht
      rfl
  | cons c t => rw [afterFirst?, List.isPrefixOf?_eq_some_iff_append_eq.2 ht]

theorem afterFirst?_cons {piece : Text} {c : Char} {t : Text} (h : ¬ piece <+: c :: t) :
    afterFirst? piece (c :: t) = afterFirst? piece t := by
  rw [afterFirst?]
  split
  · next after hprefix =>
      exact absurd ⟨after, List.isPrefixOf?_eq_some_iff_append_eq.1 hprefix⟩ h
  · rfl

theorem exists_of_afterFirst? {piece after : Text} (t : Text)
    (h : afterFirst? piece t = some after) : ∃ before, t = before ++ piece ++ after := by
  induction t with
  | nil =>
      unfold afterFirst? at h
      split at h
      · next hpiece =>
          obtain rfl : [] = after := Option.some.inj h
          exact ⟨[], by simp [hpiece]⟩
      · cases h
  | cons c t ih =>
      by_cases hprefix : piece <+: c :: t
      · obtain ⟨rest, hrest⟩ := hprefix
        rw [← hrest, afterFirst?_append] at h
        obtain rfl : rest = after := Option.some.inj h
        exact ⟨[], hrest.symm⟩
      · rw [afterFirst?_cons hprefix] at h
        obtain ⟨before, rfl⟩ := ih h
        exact ⟨c :: before, rfl⟩

/-- Behind its first occurrence a piece leaves at least what it leaves behind any other. -/
theorem exists_afterFirst? (before piece rest : Text) :
    ∃ more, afterFirst? piece (before ++ piece ++ rest) = some (more ++ rest) := by
  induction before with
  | nil => exact ⟨[], afterFirst?_append piece rest⟩
  | cons c before ih =>
      rw [List.cons_append, List.cons_append]
      by_cases hprefix : piece <+: c :: (before ++ piece ++ rest)
      · obtain ⟨after, hafter⟩ := hprefix
        have hbehind : rest <:+ piece ++ after := by
          rw [hafter]
          exact ⟨c :: (before ++ piece), by simp⟩
        have hshorter : rest.length ≤ after.length := by
          have hlength := congrArg List.length hafter
          simp at hlength
          omega
        obtain ⟨more, rfl⟩ : rest <:+ after :=
          List.suffix_of_suffix_length_le hbehind (List.suffix_append piece after) hshorter
        exact ⟨more, by rw [← hafter, afterFirst?_append]⟩
      · rw [afterFirst?_cons hprefix]
        exact ih

theorem acceptsAfterStar_iff {pieces : List Text} (hne : pieces ≠ []) :
    ∀ t, acceptsAfterStar pieces t = true ↔ Filled pieces t := by
  induction pieces with
  | nil => exact absurd rfl hne
  | cons piece rest ih =>
      intro t
      rw [filled_cons]
      cases rest with
      | nil =>
          simp only [acceptsAfterStar, List.isSuffixOf_iff_suffix, filled_nil, exists_eq_left,
            List.append_nil]
          exact exists_congr fun filler => eq_comm
      | cons next pieces =>
          have hrest := ih (List.cons_ne_nil _ _)
          unfold acceptsAfterStar
          constructor
          · intro h
            split at h
            · next after hafter =>
                obtain ⟨before, rfl⟩ := exists_of_afterFirst? t hafter
                exact ⟨before, after, (hrest after).1 h, rfl⟩
            · cases h
          · rintro ⟨filler, rest, hfilled, rfl⟩
            obtain ⟨more, hmore⟩ := exists_afterFirst? filler piece rest
            rw [hmore]
            exact (hrest _).2 (hfilled.append (List.cons_ne_nil _ _) more)

/-- A pattern accepts what its pieces can be filled up to. -/
theorem accepts_iff (pattern name : Text) : accepts pattern name = true ↔
    ∃ first pieces rest, pattern.splitOn '*' = first :: pieces ∧ Filled pieces rest ∧
      name = first ++ rest := by
  obtain ⟨first, pieces, hsplit⟩ := List.exists_cons_of_ne_nil (List.splitOn_ne_nil '*' pattern)
  have hiff : accepts pattern name = true ↔ ∃ rest, Filled pieces rest ∧ name = first ++ rest := by
    unfold accepts
    rw [hsplit]
    cases pieces with
    | nil => simp [filled_nil]
    | cons piece more =>
        have hmore := acceptsAfterStar_iff (List.cons_ne_nil piece more)
        constructor
        · intro h
          simp only at h
          split at h
          · next rest hrest =>
              exact ⟨rest, (hmore rest).1 h,
                (List.isPrefixOf?_eq_some_iff_append_eq.1 hrest).symm⟩
          · cases h
        · rintro ⟨rest, hfilled, rfl⟩
          have hrest : first.isPrefixOf? (first ++ rest) = some rest :=
            List.isPrefixOf?_eq_some_iff_append_eq.2 rfl
          simp only [hrest]
          exact (hmore rest).2 hfilled
  rw [hiff, hsplit]
  constructor
  · rintro ⟨rest, hrest⟩
    exact ⟨first, pieces, rest, rfl, hrest⟩
  · rintro ⟨first', pieces', rest, heq, hrest⟩
    obtain ⟨rfl, rfl⟩ := List.cons.inj heq
    exact ⟨rest, hrest⟩

/-! ## Offsets -/

theorem firstOffset?_of_prefix {piece bytes : Bytes} (h : piece <+: bytes) :
    firstOffset? piece bytes = some 0 := by
  cases bytes with
  | nil => exact if_pos (List.prefix_nil.1 h)
  | cons b rest => exact if_pos (List.isPrefixOf_iff_prefix.2 h)

theorem firstOffset?_cons {piece : Bytes} {b : UInt8} {rest : Bytes} (h : ¬ piece <+: b :: rest) :
    firstOffset? piece (b :: rest) = (firstOffset? piece rest).map (· + 1) :=
  if_neg fun hprefix => h (List.isPrefixOf_iff_prefix.1 hprefix)

/-- No piece is found at a byte that goes on with a character. -/
theorem firstOffset?_append {piece : Text} (hne : piece ≠ []) {more : Bytes}
    (hmore : ∀ b ∈ more, continues b = true) (bytes : Bytes) :
    firstOffset? (encode piece) (more ++ bytes)
      = (firstOffset? (encode piece) bytes).map (· + more.length) := by
  obtain ⟨lead, tail, hpiece, hlead⟩ := exists_lead_encode hne
  induction more with
  | nil => simp
  | cons b rest ih =>
      have hprefix : ¬ encode piece <+: b :: (rest ++ bytes) := by
        intro h
        rw [hpiece, List.cons_prefix_cons] at h
        rw [h.1, hmore b (List.mem_cons_self ..)] at hlead
        cases hlead
      rw [List.cons_append, firstOffset?_cons hprefix,
        ih fun b' hb' => hmore b' (List.mem_cons_of_mem _ hb'), Option.map_map]
      rfl

/-- In the bytes, a piece occurs first where it does in the text. -/
theorem firstOffset?_encode {piece : Text} (hne : piece ≠ []) (t : Text) :
    (afterFirst? piece t = none ∧ firstOffset? (encode piece) (encode t) = none) ∨
      ∃ before after, afterFirst? piece t = some after ∧ t = before ++ piece ++ after ∧
        firstOffset? (encode piece) (encode t) = some (encode before).length := by
  induction t with
  | nil =>
      have hbytes : encode piece ≠ [] := fun h => hne ((encode_eq_nil_iff piece).1 h)
      exact Or.inl ⟨if_neg hne, if_neg hbytes⟩
  | cons c t ih =>
      by_cases hprefix : piece <+: c :: t
      · have hbytes := firstOffset?_of_prefix ((encode_prefix_iff piece (c :: t)).2 hprefix)
        obtain ⟨after, hafter⟩ := hprefix
        exact Or.inr ⟨[], after, by rw [← hafter, afterFirst?_append], hafter.symm, hbytes⟩
      · obtain ⟨lead, more, hc, -, hmore⟩ := exists_lead c
        have hoffset : firstOffset? (encode piece) (encode (c :: t))
            = (firstOffset? (encode piece) (encode t)).map
                (· + (String.utf8EncodeChar c).length) := by
          have hbytes : ¬ encode piece <+: lead :: (more ++ encode t) := by
            rw [← List.cons_append, ← hc, ← encode_cons, encode_prefix_iff]
            exact hprefix
          rw [encode_cons, hc, List.cons_append, firstOffset?_cons hbytes,
            firstOffset?_append hne hmore, Option.map_map]
          rfl
        rw [afterFirst?_cons hprefix, hoffset]
        rcases ih with ⟨hnone, hnoOffset⟩ | ⟨before, after, hafter, rfl, hfirst⟩
        · exact Or.inl ⟨hnone, by rw [hnoOffset]; rfl⟩
        · refine Or.inr ⟨c :: before, after, hafter, rfl, ?_⟩
          rw [hfirst, Option.map_some, encode_cons, List.length_append, Nat.add_comm]

theorem afterFirst?_nil (t : Text) : afterFirst? [] t = some t :=
  afterFirst?_append [] t

/-- From an offset between two characters, matching goes on as it does with the text behind it. -/
theorem acceptsFrom_eq (pieces : List Text) : ∀ front back : Text,
    acceptsFrom (encode (front ++ back)) (pieces.map encode) (encode front).length
      = .ok (acceptsAfterStar pieces back) := by
  induction pieces with
  | nil => exact fun _ _ => rfl
  | cons piece rest ih =>
      intro front back
      cases rest with
      | nil =>
          simp only [List.map_cons, List.map_nil, acceptsFrom, acceptsAfterStar]
          have hsuffix : (encode piece).isSuffixOf (encode back) = piece.isSuffixOf back := by
            rw [Bool.eq_iff_iff, List.isSuffixOf_iff_suffix, List.isSuffixOf_iff_suffix,
              encode_suffix_iff]
          split
          · rw [sliceFrom_encode_append]
            exact congrArg _ hsuffix
          · next hlong =>
              have hnot : piece.isSuffixOf back = false := by
                rw [← hsuffix, ← Bool.not_eq_true, List.isSuffixOf_iff_suffix]
                intro h
                have hlength := h.length_le
                rw [encode_append, List.length_append] at hlong
                omega
              rw [hnot]
      | cons next more =>
          simp only [List.map_cons] at ih ⊢
          unfold acceptsFrom acceptsAfterStar
          by_cases hne : piece = []
          · subst hne
            rw [afterFirst?_nil]
            exact (if_pos rfl).trans (ih front back)
          · rw [if_neg fun h => hne ((encode_eq_nil_iff piece).1 h), sliceFrom_encode_append]
            rcases firstOffset?_encode hne back with
              ⟨hnone, hnoOffset⟩ | ⟨before, after, hafter, rfl, hfirst⟩
            · simp only [hnone, hnoOffset]
            · simp only [hafter, hfirst]
              have hbehind := ih (front ++ before ++ piece) after
              simp only [encode_append, List.length_append, List.append_assoc] at hbehind ⊢
              exact hbehind

/-- No cut is refused, and matching by offsets accepts what matching does. -/
theorem acceptsByOffset_eq (pattern name : Text) :
    acceptsByOffset pattern name = .ok (accepts pattern name) := by
  unfold acceptsByOffset accepts
  cases pattern.splitOn '*' with
  | nil => rfl
  | cons first pieces =>
      cases pieces with
      | nil => rfl
      | cons piece more =>
          simp only
          by_cases hprefix : first <+: name
          · have hbytes := List.isPrefixOf_iff_prefix.2 ((encode_prefix_iff first name).2 hprefix)
            obtain ⟨rest, rfl⟩ := hprefix
            rw [if_pos hbytes, List.isPrefixOf?_eq_some_iff_append_eq.2 rfl]
            exact acceptsFrom_eq (piece :: more) first rest
          · have hbytes : ¬ (encode first).isPrefixOf (encode name) = true := by
              rw [List.isPrefixOf_iff_prefix, encode_prefix_iff]
              exact hprefix
            rw [if_neg hbytes]
            split
            · next rest hrest =>
                exact absurd ⟨rest, List.isPrefixOf?_eq_some_iff_append_eq.1 hrest⟩ hprefix
            · rfl

/-- **A pattern accepts the texts that have its pieces in their order**, with any text for each star
and with nothing before the first piece and after the last. Matching by offsets in the bytes of the
name gives the same answer: an offset can be cut at if it stands between two characters, and no
other offset is met. -/
theorem accepts_iff_fillers (pattern name : Text) :
    (accepts pattern name = true ↔ ∃ (first : Text) (pieces fillers : List Text),
      pattern.splitOn '*' = first :: pieces ∧ fillers.length = pieces.length ∧
      name = first ++ (List.zipWith (· ++ ·) fillers pieces).flatten) ∧
    acceptsByOffset pattern name = .ok (accepts pattern name) ∧
    ∀ offset, (∃ slice, sliceFrom (encode name) offset = .ok slice) ↔
      ∃ front back, name = front ++ back ∧ (encode front).length = offset := by
  refine ⟨?_, acceptsByOffset_eq pattern name, ?_⟩
  · rw [accepts_iff]
    constructor
    · rintro ⟨first, pieces, _, hsplit, ⟨fillers, hlength, rfl⟩, rfl⟩
      exact ⟨first, pieces, fillers, hsplit, hlength, rfl⟩
    · rintro ⟨first, pieces, fillers, hsplit, hlength, rfl⟩
      exact ⟨first, pieces, _, hsplit, ⟨fillers, hlength, rfl⟩, rfl⟩
  · intro offset
    rw [← isBoundary_encode_iff, sliceFrom]
    split
    · next h => simp [h]
    · next h => simp [h]

/-- The ends of a pattern do not overlap in a name, and a piece that comes twice is taken twice. -/
example : accepts "a*a".toList "a".toList = false ∧ accepts "*é*é*".toList "éxé".toList = true ∧
    acceptsByOffset "é**é".toList "éé".toList = .ok true := by
  decide

end PackageAtlas.Glob
