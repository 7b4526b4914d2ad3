import PackageAtlas.Glob.Offsets
import PackageAtlas.Proofs.Utf8Decoding

set_option autoImplicit false

/-! # Cutting UTF-8

The bytes of a text can be cut exactly where one of its characters begins, or where it ends
(`isBoundary_encode_iff`): the first byte of a character says that it is the first, and the others
that they are not. So a text begins or ends with another if the bytes do (`encode_prefix_iff`,
`encode_suffix_iff`). -/

namespace PackageAtlas.Utf8

/-! ## The bytes of texts -/

theorem encode_cons (c : Char) (t : Text) :
    encode (c :: t) = String.utf8EncodeChar c ++ encode t :=
  List.flatMap_cons

theorem encode_append (t u : Text) : encode (t ++ u) = encode t ++ encode u :=
  List.flatMap_append

theorem encode_eq_nil_iff (t : Text) : encode t = [] ↔ t = [] :=
  ⟨fun h => encode_injective h, fun h => h ▸ rfl⟩

theorem decodeLossy_encode_append (t : Text) (bytes : Bytes) :
    decodeLossy (encode t ++ bytes) = t ++ decodeLossy bytes := by
  induction t with
  | nil => rfl
  | cons c rest ih =>
      rw [encode_cons, List.append_assoc, decodeLossy, decodeFrom_utf8EncodeChar]
      exact congrArg (c :: ·) ih

theorem encode_prefix_iff (t u : Text) : encode t <+: encode u ↔ t <+: u := by
  constructor
  · rintro ⟨bytes, h⟩
    refine ⟨decodeLossy bytes, ?_⟩
    rw [← decodeLossy_encode_append, h, decodeLossy_encode]
  · rintro ⟨rest, rfl⟩
    rw [encode_append]
    exact List.prefix_append _ _

/-! ## Where characters begin -/

theorem continues_ofNat {n : Nat} (hn : n < 256) :
    continues (.ofNat n) = true ↔ 0x80 ≤ n ∧ n ≤ 0xBF := by
  simp only [continues, Bool.and_eq_true, decide_eq_true_eq, UInt8.le_iff_toNat_le,
    UInt8.toNat_ofNat', Nat.mod_eq_of_lt hn]
  rfl

/-- The bytes of a character: one that begins it, and those that go on with it. -/
theorem exists_lead (c : Char) : ∃ (lead : UInt8) (more : Bytes),
    String.utf8EncodeChar c = lead :: more ∧ continues lead = false ∧
      ∀ b ∈ more, continues b = true := by
  have hlead : ∀ n < 256, ¬ (0x80 ≤ n ∧ n ≤ 0xBF) → continues (.ofNat n) = false := by
    intro n hn hout
    rw [← Bool.not_eq_true, continues_ofNat hn]
    exact hout
  have hmore : ∀ n < 64, continues (.ofNat (n + 0x80)) = true := by
    intro n hn
    rw [continues_ofNat (by omega)]
    omega
  dsimp only [String.utf8EncodeChar]
  generalize c.val.toNat = n
  split_ifs with h1 h2 h3
  · exact ⟨_, _, rfl, hlead n (by omega) (by omega), by simp⟩
  · refine ⟨_, _, rfl, hlead _ (by omega) (by omega), ?_⟩
    exact List.forall_mem_singleton.2 (hmore _ (by omega))
  · refine ⟨_, _, rfl, hlead _ (by omega) (by omega), ?_⟩
    exact List.forall_mem_cons.2
      ⟨hmore _ (by omega), List.forall_mem_singleton.2 (hmore _ (by omega))⟩
  · refine ⟨_, _, rfl, hlead _ (by omega) (by omega), ?_⟩
    exact List.forall_mem_cons.2 ⟨hmore _ (by omega), List.forall_mem_cons.2
      ⟨hmore _ (by omega), List.forall_mem_singleton.2 (hmore _ (by omega))⟩⟩

theorem exists_lead_encode {t : Text} (hne : t ≠ []) : ∃ (lead : UInt8) (more : Bytes),
    encode t = lead :: more ∧ continues lead = false := by
  obtain ⟨c, rest, rfl⟩ := List.exists_cons_of_ne_nil hne
  obtain ⟨lead, more, hc, hlead, -⟩ := exists_lead c
  exact ⟨lead, more ++ encode rest, by rw [encode_cons, hc, List.cons_append], hlead⟩

theorem isBoundary_encode_append (front back : Text) :
    isBoundary (encode (front ++ back)) (encode front).length = true := by
  rw [isBoundary, encode_append, List.getElem?_append_right (Nat.le_refl _), Nat.sub_self]
  by_cases hne : back = []
  · subst hne
    simp [encode]
  · obtain ⟨lead, more, hback, hlead⟩ := exists_lead_encode hne
    simp [hback, hlead]

theorem exists_of_isBoundary (t : Text) : ∀ {offset : Nat}, isBoundary (encode t) offset = true →
    ∃ front back, t = front ++ back ∧ (encode front).length = offset := by
  induction t with
  | nil =>
      intro offset h
      have hoffset : offset = 0 := by simpa [isBoundary, encode] using h
      exact ⟨[], [], rfl, hoffset.symm⟩
  | cons c rest ih =>
      intro offset h
      obtain ⟨lead, more, hc, hlead, hmore⟩ := exists_lead c
      rcases Nat.eq_zero_or_pos offset with rfl | hpos
      · exact ⟨[], c :: rest, rfl, rfl⟩
      · rw [encode_cons] at h
        by_cases hin : offset < (String.utf8EncodeChar c).length
        · -- inside the character there is no boundary
          exfalso
          have hbyte : (String.utf8EncodeChar c)[offset] ∈ more := by
            obtain ⟨index, rfl⟩ := Nat.exists_eq_add_of_lt hpos
            simp [hc]
          rw [isBoundary, List.getElem?_append_left hin, List.getElem?_eq_getElem hin] at h
          simp [hmore _ hbyte] at h
        · have hrest : isBoundary (encode rest) (offset - (String.utf8EncodeChar c).length)
              = true := by
            rw [isBoundary, List.getElem?_append_right (by omega), List.length_append] at h
            rw [isBoundary]
            split at h
            · next hnone =>
                rw [hnone]
                have hoffset : offset
                    = (String.utf8EncodeChar c).length + (encode rest).length := eq_of_beq h
                exact beq_iff_eq.2 (by omega)
            · next b hb =>
                rw [hb]
                exact h
          obtain ⟨front, back, rfl, hfront⟩ := ih hrest
          refine ⟨c :: front, back, rfl, ?_⟩
          rw [encode_cons, List.length_append, hfront]
          omega

/-- **A text can be cut between its characters and nowhere else.** -/
theorem isBoundary_encode_iff (t : Text) (offset : Nat) :
    isBoundary (encode t) offset = true ↔
      ∃ front back, t = front ++ back ∧ (encode front).length = offset := by
  constructor
  · exact exists_of_isBoundary t
  · rintro ⟨front, back, rfl, rfl⟩
    exact isBoundary_encode_append front back

theorem sliceFrom_encode_append (front back : Text) :
    sliceFrom (encode (front ++ back)) (encode front).length = .ok (encode back) := by
  rw [sliceFrom, if_pos (isBoundary_encode_append front back), encode_append, List.drop_left]

theorem encode_suffix_iff (t u : Text) : encode t <:+ encode u ↔ t <:+ u := by
  constructor
  · rintro ⟨bytes, h⟩
    by_cases hne : t = []
    · subst hne
      exact List.nil_suffix
    · obtain ⟨lead, more, ht, hlead⟩ := exists_lead_encode hne
      have hboundary : isBoundary (encode u) bytes.length = true := by
        rw [← h, isBoundary, List.getElem?_append_right (Nat.le_refl _), Nat.sub_self, ht]
        simp [hlead]
      obtain ⟨front, back, rfl, hfront⟩ := exists_of_isBoundary u hboundary
      rw [encode_append] at h
      have hback := (List.append_inj h hfront.symm).2
      rw [encode_injective hback]
      exact List.suffix_append _ _
  · rintro ⟨front, rfl⟩
    rw [encode_append]
    exact List.suffix_append _ _

end PackageAtlas.Utf8
