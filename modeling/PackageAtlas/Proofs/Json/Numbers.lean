import PackageAtlas.Json.Parser
import PackageAtlas.Json.Printer

set_option autoImplicit false

/-! # Numbers of JSON are read back

A number is written as an optional minus, its decimal digits and, for a decimal, an exponent. What
follows it must not go on like a number (`Stops`); then just the number is read
(`number?_integerText`, `number?_decimalText`). -/

namespace PackageAtlas.Json

/-! ## Digits -/

theorem digitsValue_toDigits (n : Nat) : digitsValue 0 (Nat.toDigits 10 n) = n := by
  have h : Nat.ofDigitChars 10 (Nat.toDigits 10 n) 0 = n := Nat.ofDigitChars_ten_toDigits
  rw [Nat.ofDigitChars_eq_foldl] at h
  simpa only [digitsValue, Nat.mul_comm] using h

theorem isDigit_of_mem_toDigits {n : Nat} : ∀ c ∈ Nat.toDigits 10 n, c.isDigit = true :=
  fun _ hc => Nat.isDigit_of_mem_toDigits (by decide) (by decide) hc

theorem exists_toDigits_eq_cons (n : Nat) :
    ∃ c tail, c.isDigit = true ∧ Nat.toDigits 10 n = c :: tail := by
  obtain ⟨c, tail, h⟩ := List.exists_cons_of_ne_nil (Nat.toDigits_ne_nil (b := 10) (n := n))
  exact ⟨c, tail, isDigit_of_mem_toDigits c (by rw [h]; exact List.mem_cons_self), h⟩

theorem toDigits_append_ne_cons (n : Nat) (t : Text) {c : Char} (hc : c.isDigit = false)
    (tail : Text) : Nat.toDigits 10 n ++ t ≠ c :: tail := by
  obtain ⟨first, others, hfirst, hdigits⟩ := exists_toDigits_eq_cons n
  rw [hdigits, List.cons_append]
  rintro h
  rw [(List.cons.inj h).1, hc] at hfirst
  exact Bool.noConfusion hfirst

/-- Only zero is written with a zero in front. -/
theorem head?_toDigits {n : Nat} (h : 0 < n) : (Nat.toDigits 10 n).head? ≠ some '0' := by
  induction n using Nat.strongRecOn with
  | _ n ih =>
    by_cases hlt : n < 10
    · rw [Nat.toDigits_of_lt_base hlt, List.head?_cons]
      simp only [ne_eq, Option.some.injEq, Nat.digitChar_eq_zero]
      omega
    · rw [Nat.toDigits_of_base_le (by decide) (by omega), List.head?_append,
        Option.or_of_isSome (List.isSome_head?.2 Nat.toDigits_ne_nil)]
      exact ih (n / 10) (by omega) (by omega)

theorem digits?_toDigits (n : Nat) {rest : Text} (hrest : ∀ c ∈ rest.head?, c.isDigit = false) :
    digits? (Nat.toDigits 10 n ++ rest) = some (Nat.toDigits 10 n, rest) := by
  obtain ⟨htake, hdrop⟩ :
      rest.takeWhile Char.isDigit = [] ∧ rest.dropWhile Char.isDigit = rest := by
    cases rest with
    | nil => exact ⟨rfl, rfl⟩
    | cons c rest =>
        have hc : ¬ c.isDigit = true := by simpa using hrest c rfl
        exact ⟨List.takeWhile_cons_of_neg hc, List.dropWhile_cons_of_neg hc⟩
  rw [digits?, List.takeWhile_append_of_pos isDigit_of_mem_toDigits,
    List.dropWhile_append_of_pos isDigit_of_mem_toDigits, htake, hdrop, List.append_nil,
    if_neg Nat.toDigits_ne_nil]

/-! ## The parts of a number -/

/-- No number that ends before `rest` goes on in it. -/
def Stops (rest : Text) : Prop :=
  ∀ c ∈ rest.head?, c.isDigit = false ∧ c ≠ '.' ∧ c ≠ 'e' ∧ c ≠ 'E'

theorem integerPart?_toDigits (n : Nat) {rest : Text}
    (hrest : ∀ c ∈ rest.head?, c.isDigit = false) :
    integerPart? (Nat.toDigits 10 n ++ rest) = some (Nat.toDigits 10 n, rest) := by
  rw [integerPart?, digits?_toDigits n hrest]
  split
  · next c tail left h =>
      have hdigits : Nat.toDigits 10 n = '0' :: c :: tail :=
        congrArg Prod.fst (Option.some.inj h)
      rcases Nat.eq_zero_or_pos n with rfl | hpos
      · rw [Nat.toDigits_zero] at hdigits
        cases (List.cons.inj hdigits).2
      · exact absurd (congrArg List.head? hdigits) (head?_toDigits hpos)
  · rfl

theorem fractionPart?_eq {rest : Text} (h : ∀ c ∈ rest.head?, c ≠ '.') :
    fractionPart? rest = some ([], rest) := by
  rw [fractionPart?]
  rintro after rfl
  exact h '.' rfl rfl

theorem Stops.exponentPart?_eq {rest : Text} (h : Stops rest) :
    exponentPart? rest = some (none, rest) := by
  cases rest with
  | nil => rfl
  | cons c rest =>
      obtain ⟨-, -, hsmall, hcapital⟩ := h c rfl
      simp only [exponentPart?, hsmall, hcapital, or_self, if_false]

theorem exponentPart?_integerText (n : Int) {rest : Text} (hrest : Stops rest) :
    exponentPart? ('e' :: (integerText n ++ rest)) = some (some n, rest) := by
  have hdigit : ∀ c ∈ rest.head?, c.isDigit = false := fun c hc => (hrest c hc).1
  cases n with
  | ofNat m =>
      rw [integerText, exponentPart?, if_pos (Or.inl rfl), digits?_toDigits m hdigit]
      · simp only [Option.map_some, digitsValue_toDigits]
        rfl
      · exact fun t => toDigits_append_ne_cons m rest (by decide) t
      · exact fun t => toDigits_append_ne_cons m rest (by decide) t
  | negSucc m =>
      simp only [integerText, List.cons_append, exponentPart?, true_or, if_true,
        digits?_toDigits (m + 1) hdigit, Option.map_some, digitsValue_toDigits]
      rfl

/-- A number without a fraction is read from its digits and what is behind them. -/
theorem unsigned?_toDigits (negative : Bool) (n : Nat) {t rest : Text} {exponent : Option Int}
    (ht : ∀ c ∈ t.head?, c.isDigit = false ∧ c ≠ '.')
    (h : exponentPart? t = some (exponent, rest)) :
    unsigned? negative (Nat.toDigits 10 n ++ t)
      = some (numberOfParts negative (Nat.toDigits 10 n) [] exponent, rest) := by
  rw [unsigned?, integerPart?_toDigits n fun c hc => (ht c hc).1]
  simp only [Option.bind_eq_bind, Option.bind_some, fractionPart?_eq fun c hc => (ht c hc).2, h]
  rfl

/-! ## Integers and decimals -/

/-- The minus of a negative number. -/
def sign (negative : Bool) : Text :=
  if negative then ['-'] else []

theorem integerText_eq (n : Int) :
    integerText n = sign (n < 0) ++ Nat.toDigits 10 n.natAbs := by
  cases n <;> simp [integerText, sign]

theorem decimalText_eq (negative : Bool) (digits : Nat) (exponent : Int) :
    decimalText negative digits exponent
      = sign negative ++ (Nat.toDigits 10 digits ++ 'e' :: integerText exponent) := by
  rw [decimalText, sign, List.append_assoc]

theorem number?_sign (negative : Bool) (n : Nat) (t : Text) :
    number? (sign negative ++ (Nat.toDigits 10 n ++ t))
      = unsigned? negative (Nat.toDigits 10 n ++ t) := by
  cases negative with
  | true => rfl
  | false =>
      rw [sign, if_neg Bool.false_ne_true, List.nil_append, number?]
      exact fun tail => toDigits_append_ne_cons n t (by decide) tail

/-- A number without fraction and exponent is an integer, but for the negative zero. -/
theorem numberOfParts_none {negative : Bool} {n : Nat} (h : negative = true → n ≠ 0) :
    numberOfParts negative (Nat.toDigits 10 n) [] none
      = integer (if negative then -(n : Int) else n) := by
  have hvalue : digitsValue (digitsValue 0 (Nat.toDigits 10 n)) [] = n := digitsValue_toDigits n
  rw [numberOfParts, hvalue, if_pos ⟨rfl, rfl, fun hzero => h hzero.1 hzero.2⟩]

theorem numberOfParts_some (negative : Bool) (n : Nat) (exponent : Int) :
    numberOfParts negative (Nat.toDigits 10 n) [] (some exponent)
      = decimal negative n exponent := by
  have hvalue : digitsValue (digitsValue 0 (Nat.toDigits 10 n)) [] = n := digitsValue_toDigits n
  rw [numberOfParts, hvalue, if_neg fun h => nomatch h.2.1]
  simp

theorem number?_integerText (n : Int) {rest : Text} (hrest : Stops rest) :
    number? (integerText n ++ rest) = some (integer n, rest) := by
  have hzero : decide (n < 0) = true → n.natAbs ≠ 0 := by
    simp only [decide_eq_true_eq]
    omega
  have hvalue : (if decide (n < 0) = true then -(n.natAbs : Int) else n.natAbs) = n := by
    simp only [decide_eq_true_eq]
    omega
  rw [integerText_eq, List.append_assoc, number?_sign,
    unsigned?_toDigits _ _ (fun c hc => ⟨(hrest c hc).1, (hrest c hc).2.1⟩) hrest.exponentPart?_eq,
    numberOfParts_none hzero, hvalue]

theorem number?_decimalText (negative : Bool) (digits : Nat) (exponent : Int) {rest : Text}
    (hrest : Stops rest) :
    number? (decimalText negative digits exponent ++ rest)
      = some (decimal negative digits exponent, rest) := by
  rw [decimalText_eq, List.append_assoc, List.append_assoc, List.cons_append, number?_sign,
    unsigned?_toDigits negative digits _ (exponentPart?_integerText exponent hrest),
    numberOfParts_some]
  rintro c ⟨⟩
  decide

end PackageAtlas.Json
