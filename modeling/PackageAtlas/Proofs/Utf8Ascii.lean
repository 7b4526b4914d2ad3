import Mathlib.Algebra.Group.Nat.Defs
import PackageAtlas.Proofs.Utf8Decoding

set_option autoImplicit false

/-! # Characters of one byte

A byte below 0x80 ends whatever character was begun and is read by itself
(`decodeFrom_append_ascii`), and no other bytes give such a character (`exists_of_mem_decodeFrom`).
What the machine keeps to is `Started`: the bits it has read cannot become a character that one byte
would have been enough for. -/

namespace PackageAtlas.Utf8

/-! ## Steps of the machine -/

theorem forall_byte {p : UInt8 → Prop} (h : ∀ n < 256, p (.ofNat n)) (b : UInt8) : p b := by
  have hb := h b.toNat b.toNat_lt
  rwa [UInt8.ofNat_toNat] at hb

section Steps

variable {seen later : Nat} {low high b : UInt8}

theorem step_last (hb : low ≤ b ∧ b ≤ high) :
    step (.inside seen 0 low high) b
      = ([Char.ofNat (seen * 64 + (b.toNat - 0x80))], .ready) :=
  if_pos hb

theorem step_more (hb : low ≤ b ∧ b ≤ high) :
    step (.inside seen (later + 1) low high) b
      = ([], .inside (seen * 64 + (b.toNat - 0x80)) later 0x80 0xBF) :=
  if_pos hb

theorem step_out (hb : ¬ (low ≤ b ∧ b ≤ high)) :
    step (.inside seen later low high) b = (replacement :: (first b).1, (first b).2) := by
  cases later <;> exact if_neg hb

end Steps

/-- What holds of the machine wherever it stands: the next byte of a character is none below 0x80,
and the character is none either, whatever bytes complete it. -/
def Started : State → Prop
  | .ready => True
  | .inside seen later low _ =>
    0x80 ≤ low.toNat ∧ 0x80 ≤ (seen * 64 + (low.toNat - 0x80)) * 64 ^ later

instance : DecidablePred Started
  | .ready => inferInstanceAs (Decidable True)
  | .inside seen later low _ => inferInstanceAs
    (Decidable (0x80 ≤ low.toNat ∧ 0x80 ≤ (seen * 64 + (low.toNat - 0x80)) * 64 ^ later))

theorem started_first (b : UInt8) : Started (first b).2 :=
  forall_byte (p := fun b => Started (first b).2) (by decide +kernel) b

theorem started_step {state : State} (h : Started state) (b : UInt8) :
    Started (step state b).2 := by
  cases state with
  | ready => exact started_first b
  | inside seen later low high =>
      by_cases hb : low ≤ b ∧ b ≤ high
      · have hlow : low.toNat ≤ b.toNat := UInt8.le_iff_toNat_le.1 hb.1
        cases later with
        | zero =>
            rw [step_last hb]
            trivial
        | succ more =>
            rw [step_more hb]
            refine ⟨Nat.le_refl _, Nat.le_trans h.2 ?_⟩
            calc (seen * 64 + (low.toNat - 0x80)) * 64 ^ (more + 1)
                ≤ (seen * 64 + (b.toNat - 0x80)) * 64 ^ (more + 1) :=
                  Nat.mul_le_mul_right _ (by omega)
              _ = ((seen * 64 + (b.toNat - 0x80)) * 64 + 0) * 64 ^ more := by
                  rw [Nat.pow_succ', Nat.add_zero, Nat.mul_assoc]
      · rw [step_out hb]
        exact started_first b

/-! ## Bytes that are characters by themselves -/

theorem first_ascii {b : UInt8} (hb : b.toNat < 0x80) :
    first b = ([Char.ofNat b.toNat], .ready) := by
  have h := first_of_one b.toNat hb
  rwa [UInt8.ofNat_toNat] at h

/-- A byte below 0x80 ends the character before it and is a character by itself. -/
theorem step_ascii {state : State} (h : Started state) {b : UInt8} (hb : b.toNat < 0x80) :
    step state b = (finish state ++ [Char.ofNat b.toNat], .ready) := by
  cases state with
  | ready => exact first_ascii hb
  | inside seen later low high =>
      have hout : ¬ (low ≤ b ∧ b ≤ high) := by
        rintro ⟨hlow, -⟩
        have hle := UInt8.le_iff_toNat_le.1 hlow
        have hstarted := h.1
        omega
      rw [step_out hout, first_ascii hb]
      rfl

theorem decodeFrom_append_ascii {b : UInt8} (hb : b.toNat < 0x80) (front back : Bytes) :
    ∀ {state : State}, Started state → decodeFrom state (front ++ b :: back)
      = decodeFrom state front ++ Char.ofNat b.toNat :: decodeLossy back := by
  induction front with
  | nil =>
      intro state h
      rw [List.nil_append, decodeFrom.eq_def]
      simp [step_ascii h hb, decodeFrom, decodeLossy]
  | cons c rest ih =>
      intro state h
      rw [List.cons_append, decodeFrom, decodeFrom, ih (started_step h c), List.append_assoc]

/-! ## Characters that are a byte by themselves -/

/-- What a byte completes, and what would be owed after it. -/
def given (state : State) (b : UInt8) : Text :=
  (step state b).1 ++ finish (step state b).2

theorem given_ne_nil (state : State) (b : UInt8) : given state b ≠ [] := by
  unfold given
  cases state with
  | ready =>
      refine forall_byte (p := fun b => (first b).1 ++ finish (first b).2 ≠ []) ?_ b
      decide +kernel
  | inside seen later low high =>
      by_cases hb : low ≤ b ∧ b ≤ high
      · cases later with
        | zero => simp [step_last hb]
        | succ more => simp [step_more hb, finish]
      · simp [step_out hb]

/-- A number that is none of a character stands for the character 0. -/
theorem toNat_ofNat_cases (n : Nat) : (Char.ofNat n).toNat = n ∨ (Char.ofNat n).toNat = 0 := by
  unfold Char.ofNat
  by_cases h : n.isValidChar
  · rw [dif_pos h]
    exact Or.inl rfl
  · rw [dif_neg h]
    exact Or.inr rfl

theorem toNat_of_mem_finish {state : State} {c : Char} (hc : c ∈ finish state) :
    c.toNat = 0xFFFD := by
  cases state with
  | ready => exact absurd hc List.not_mem_nil
  | inside seen later low high =>
      obtain rfl : c = replacement := List.mem_singleton.1 hc
      rfl

/-- A character below 0x80 comes of a byte only if it is that byte. The character 0 is left out,
since it also stands for numbers that are none of a character. -/
theorem toNat_of_mem_given {state : State} (h : Started state) {b : UInt8} {c : Char}
    (hc : c ∈ given state b) (hpos : 0 < c.toNat) (hlt : c.toNat < 0x80) : c.toNat = b.toNat := by
  have hfirst : ∀ d ∈ (first b).1 ++ finish (first b).2, d.toNat < 0x80 → d.toNat = b.toNat := by
    refine forall_byte (p := fun b => ∀ d ∈ (first b).1 ++ finish (first b).2,
      d.toNat < 0x80 → d.toNat = b.toNat) ?_ b
    decide +kernel
  have hreplacement : replacement.toNat = 0xFFFD := rfl
  unfold given at hc
  cases state with
  | ready => exact hfirst c hc hlt
  | inside seen later low high =>
      by_cases hb : low ≤ b ∧ b ≤ high
      · have hlow : low.toNat ≤ b.toNat := UInt8.le_iff_toNat_le.1 hb.1
        cases later with
        | zero =>
            have hchar : c = Char.ofNat (seen * 64 + (b.toNat - 0x80)) := by
              rw [step_last hb] at hc
              exact List.mem_singleton.1 hc
            have hseen : 0x80 ≤ seen * 64 + (low.toNat - 0x80) := by simpa using h.2
            rw [hchar] at hpos hlt
            rcases toNat_ofNat_cases (seen * 64 + (b.toNat - 0x80)) with hvalue | hvalue <;> omega
        | succ more =>
            obtain rfl : c = replacement := by
              rw [step_more hb] at hc
              exact List.mem_singleton.1 hc
            omega
      · rw [step_out hb, List.cons_append] at hc
        rcases List.mem_cons.1 hc with rfl | hc
        · omega
        · exact hfirst c hc hlt

theorem exists_of_mem_decodeFrom {c : Char} (hpos : 0 < c.toNat) (hlt : c.toNat < 0x80)
    (bytes : Bytes) : ∀ {state : State}, Started state → c ∈ decodeFrom state bytes →
      ∃ b ∈ bytes, b.toNat = c.toNat := by
  induction bytes with
  | nil =>
      intro state _ hc
      have hreplacement := toNat_of_mem_finish hc
      omega
  | cons b rest ih =>
      intro state h hc
      rw [decodeFrom] at hc
      rcases List.mem_append.1 hc with hc | hc
      · have hb := toNat_of_mem_given h (List.mem_append_left _ hc) hpos hlt
        exact ⟨b, List.mem_cons_self .., hb.symm⟩
      · obtain ⟨b', hb', heq⟩ := ih (started_step h b) hc
        exact ⟨b', List.mem_cons_of_mem _ hb', heq⟩

/-- The last byte gives the end of the text. -/
theorem exists_decodeFrom_concat (front : Bytes) (b : UInt8) : ∀ {state : State}, Started state →
    ∃ text state', Started state' ∧ decodeFrom state (front ++ [b]) = text ++ given state' b := by
  induction front with
  | nil =>
      intro state h
      exact ⟨[], state, h, rfl⟩
  | cons c rest ih =>
      intro state h
      obtain ⟨text, state', h', heq⟩ := ih (started_step h c)
      refine ⟨(step state c).1 ++ text, state', h', ?_⟩
      rw [List.cons_append, decodeFrom, heq, List.append_assoc]

end PackageAtlas.Utf8
