import PackageAtlas.Proofs.Json.Numbers
import PackageAtlas.Proofs.Json.Strings

set_option autoImplicit false

/-! # Values with blanks between their parts

`Spaced` says how a text writes a value: strings, numbers and words as the printers write them, and
any blanks of JSON between them and the brackets, commas and colons. However it is spaced, such a
text is read as the value it writes (`parse?_spaced`). -/

namespace PackageAtlas.Json

/-! ## Blanks -/

/-- Whether only blanks of JSON are in a text. -/
def Gap (t : Text) : Prop :=
  ∀ c ∈ t, isSpace c = true

theorem gap_nil : Gap [] :=
  fun _ hc => absurd hc List.not_mem_nil

theorem gap_singleton {c : Char} (hc : isSpace c = true) : Gap [c] :=
  List.forall_mem_singleton.2 hc

theorem Gap.skipSpace_append {gap : Text} (h : Gap gap) (t : Text) :
    skipSpace (gap ++ t) = skipSpace t :=
  List.dropWhile_append_of_pos h

theorem skipSpace_cons {c : Char} (hc : isSpace c = false) (t : Text) :
    skipSpace (c :: t) = c :: t :=
  List.dropWhile_cons_of_neg (by simp [hc])

theorem Gap.skipSpace_eq {gap : Text} (h : Gap gap) {c : Char} (hc : isSpace c = false) (t : Text) :
    skipSpace (gap ++ c :: t) = c :: t := by
  rw [h.skipSpace_append, skipSpace_cons hc]

theorem stops_nil : Stops [] :=
  fun _ hc => nomatch hc

theorem stops_cons {c : Char} (hc : c.isDigit = false ∧ c ≠ '.' ∧ c ≠ 'e' ∧ c ≠ 'E') (t : Text) :
    Stops (c :: t) := by
  rintro _ ⟨⟩
  exact hc

theorem Gap.stops_append {gap t : Text} (h : Gap gap) (ht : Stops t) : Stops (gap ++ t) := by
  cases gap with
  | nil => exact ht
  | cons c gap =>
      have hc : isSpace c = true := h c List.mem_cons_self
      refine stops_cons ?_ (gap ++ t)
      simp only [isSpace, Bool.or_eq_true, decide_eq_true_eq] at hc
      rcases hc with ((rfl | rfl) | rfl) | rfl <;> decide

/-! ## Writing -/

/-- What is written and read as one: a value, or all that stands behind an opening bracket or brace,
up to the one that closes it. -/
inductive Part where
  | value (value : Json)
  | items (items : List Json)
  | members (members : List (Text × Json))

/-- Whether a text writes a part, with any blanks inside. -/
inductive Spaced : Part → Text → Prop where
  | null : Spaced (.value null) "null".toList
  | bool (value : Bool) : Spaced (.value (bool value)) (boolText value)
  | integer (value : Int) : Spaced (.value (integer value)) (integerText value)
  | decimal (negative : Bool) (digits : Nat) (exponent : Int) :
    Spaced (.value (decimal negative digits exponent)) (decimalText negative digits exponent)
  | string (value : Text) : Spaced (.value (string value)) (quoted value)
  | emptyArray {gap : Text} (hgap : Gap gap) : Spaced (.value (array [])) ('[' :: (gap ++ [']']))
  | array {items : List Json} {t : Text} (h : Spaced (.items items) t) :
    Spaced (.value (array items)) ('[' :: t)
  | emptyObject {gap : Text} (hgap : Gap gap) :
    Spaced (.value (object [])) ('\x7b' :: (gap ++ ['\x7d']))
  | object {members : List (Text × Json)} {t : Text} (h : Spaced (.members members) t) :
    Spaced (.value (object members)) ('\x7b' :: t)
  | lastItem {item : Json} {before t after : Text} (hbefore : Gap before)
    (h : Spaced (.value item) t) (hafter : Gap after) :
    Spaced (.items [item]) (before ++ (t ++ (after ++ [']'])))
  | item {item : Json} {items : List Json} {before t after rest : Text} (hbefore : Gap before)
    (h : Spaced (.value item) t) (hafter : Gap after) (hrest : Spaced (.items items) rest) :
    Spaced (.items (item :: items)) (before ++ (t ++ (after ++ ',' :: rest)))
  | lastMember (key : Text) {value : Json} {front back before t after : Text} (hfront : Gap front)
    (hback : Gap back) (hbefore : Gap before) (h : Spaced (.value value) t) (hafter : Gap after) :
    Spaced (.members [(key, value)])
      (front ++ (quoted key ++ (back ++ ':' :: (before ++ (t ++ (after ++ ['\x7d']))))))
  | member (key : Text) {value : Json} {members : List (Text × Json)}
    {front back before t after rest : Text} (hfront : Gap front) (hback : Gap back)
    (hbefore : Gap before) (h : Spaced (.value value) t) (hafter : Gap after)
    (hrest : Spaced (.members members) rest) :
    Spaced (.members ((key, value) :: members))
      (front ++ (quoted key ++ (back ++ ':' :: (before ++ (t ++ (after ++ ',' :: rest))))))

/-! ## Reading values -/

theorem Gap.value?_append {gap : Text} (h : Gap gap) (fuel : Nat) (t : Text) :
    value? fuel (gap ++ t) = value? fuel t := by
  cases fuel with
  | zero => simp only [value?]
  | succ fuel => simp only [value?, h.skipSpace_append]

theorem quoted_append (s rest : Text) :
    quoted s ++ rest = '"' :: (s.flatMap escapedChar ++ '"' :: rest) := by
  simp only [quoted, List.cons_append, List.append_assoc, List.nil_append]

theorem value?_quoted (fuel : Nat) (s rest : Text) :
    value? (fuel + 1) (quoted s ++ rest) = some (string s, rest) := by
  rw [quoted_append, value?, skipSpace_cons (by decide)]
  simp only [stringBody?_quoted, Option.map_some]

/-- What begins with none of the other things is read as a number. -/
theorem value?_number (fuel : Nat) {c : Char}
    (h : ∀ d ∈ [' ', '\n', '\r', '\t', '"', '[', '\x7b', 'n', 't', 'f'], c ≠ d) (t : Text) :
    value? (fuel + 1) (c :: t) = number? (c :: t) := by
  simp only [List.forall_mem_cons] at h
  obtain ⟨hspace, hline, hreturn, htab, hquote, hbracket, hbrace, hnull, htrue, hfalse, -⟩ := h
  have hc : isSpace c = false := by simp [isSpace, hspace, hline, hreturn, htab]
  rw [value?, skipSpace_cons hc]
  -- no other case of the reader begins with `c`
  simp

theorem value?_sign (fuel : Nat) (negative : Bool) (n : Nat) (t : Text) :
    value? (fuel + 1) (sign negative ++ (Nat.toDigits 10 n ++ t))
      = number? (sign negative ++ (Nat.toDigits 10 n ++ t)) := by
  cases negative with
  | true => exact value?_number fuel (by simp) _
  | false =>
      obtain ⟨c, tail, hc, hdigits⟩ := exists_toDigits_eq_cons n
      rw [sign, if_neg Bool.false_ne_true, List.nil_append, hdigits, List.cons_append]
      have hstarts : ∀ d ∈ [' ', '\n', '\r', '\t', '"', '[', '\x7b', 'n', 't', 'f'],
          d.isDigit = false := by simp
      refine value?_number fuel (fun d hd => ?_) _
      rintro rfl
      rw [hstarts c hd] at hc
      exact Bool.noConfusion hc

theorem value?_integerText (fuel : Nat) (n : Int) {rest : Text} (hrest : Stops rest) :
    value? (fuel + 1) (integerText n ++ rest) = some (integer n, rest) := by
  rw [← number?_integerText n hrest, integerText_eq, List.append_assoc, value?_sign]

theorem value?_decimalText (fuel : Nat) (negative : Bool) (digits : Nat) (exponent : Int)
    {rest : Text} (hrest : Stops rest) :
    value? (fuel + 1) (decimalText negative digits exponent ++ rest)
      = some (decimal negative digits exponent, rest) := by
  rw [← number?_decimalText negative digits exponent hrest, decimalText_eq, List.append_assoc,
    List.append_assoc, value?_sign]

/-! ## Reading items and members -/

/-- No value begins with a closing bracket. -/
theorem value?_closing {t left : Text} (h : skipSpace t = ']' :: left) (fuel : Nat) :
    value? fuel t = none := by
  cases fuel with
  | zero => rw [value?]
  | succ fuel => rw [value?, h]; rfl

theorem Gap.value?_emptyArray {gap : Text} (h : Gap gap) (fuel : Nat) (rest : Text) :
    value? (fuel + 1) ('[' :: (gap ++ ']' :: rest)) = some (array [], rest) := by
  rw [value?, skipSpace_cons (by decide)]
  simp only [h.skipSpace_eq (c := ']') (by decide) rest]

theorem Gap.value?_emptyObject {gap : Text} (h : Gap gap) (fuel : Nat) (rest : Text) :
    value? (fuel + 1) ('\x7b' :: (gap ++ '\x7d' :: rest)) = some (object [], rest) := by
  rw [value?, skipSpace_cons (by decide)]
  simp only [h.skipSpace_eq (c := '\x7d') (by decide) rest]

theorem value?_array {fuel : Nat} {t left : Text} {items : List Json}
    (h : items? fuel t = some (items, left)) :
    value? (fuel + 1) ('[' :: t) = some (array items, left) := by
  rw [value?, skipSpace_cons (by decide)]
  simp only
  split
  · next hclose =>
      -- an array that is closed at once has no item to read
      cases fuel with
      | zero => simp [items?] at h
      | succ fuel => simp [items?, value?_closing hclose] at h
  · rw [h, Option.map_some]

theorem value?_object {fuel : Nat} {t left : Text} {members : List (Text × Json)}
    (h : members? fuel t = some (members, left)) :
    value? (fuel + 1) ('\x7b' :: t) = some (object members, left) := by
  rw [value?, skipSpace_cons (by decide)]
  simp only
  split
  · next hclose =>
      cases fuel with
      | zero => simp [members?] at h
      | succ fuel => simp [members?, hclose] at h
  · rw [h, Option.map_some]

variable {fuel : Nat} {t gap left : Text}

theorem items?_last {item : Json} (hgap : Gap gap)
    (h : value? fuel t = some (item, gap ++ ']' :: left)) :
    items? (fuel + 1) t = some ([item], left) := by
  rw [items?, h]
  simp only [hgap.skipSpace_eq (c := ']') (by decide)]

theorem items?_next {item : Json} {items : List Json} {rest : Text} (hgap : Gap gap)
    (h : value? fuel t = some (item, gap ++ ',' :: rest))
    (hrest : items? fuel rest = some (items, left)) :
    items? (fuel + 1) t = some (item :: items, left) := by
  rw [items?, h]
  simp only [hgap.skipSpace_eq (c := ',') (by decide), hrest, Option.map_some]

theorem members?_last (key : Text) {value : Json} {front back : Text} (hfront : Gap front)
    (hback : Gap back) (hgap : Gap gap)
    (h : value? fuel t = some (value, gap ++ '\x7d' :: left)) :
    members? (fuel + 1) (front ++ (quoted key ++ (back ++ ':' :: t)))
      = some ([(key, value)], left) := by
  rw [members?, quoted_append, hfront.skipSpace_eq (by decide)]
  simp only [stringBody?_quoted, hback.skipSpace_eq (c := ':') (by decide), h,
    hgap.skipSpace_eq (c := '\x7d') (by decide)]

theorem members?_next (key : Text) {value : Json} {members : List (Text × Json)}
    {front back rest : Text} (hfront : Gap front) (hback : Gap back) (hgap : Gap gap)
    (h : value? fuel t = some (value, gap ++ ',' :: rest))
    (hrest : members? fuel rest = some (members, left)) :
    members? (fuel + 1) (front ++ (quoted key ++ (back ++ ':' :: t)))
      = some ((key, value) :: members, left) := by
  rw [members?, quoted_append, hfront.skipSpace_eq (by decide)]
  simp only [stringBody?_quoted, hback.skipSpace_eq (c := ':') (by decide), h,
    hgap.skipSpace_eq (c := ',') (by decide), hrest, Option.map_some]

/-! ## Reading what is written -/

/-- Whether a part is read from a text by whoever may enter one bracket or item for every character
of it, and nothing of what comes after it. -/
def Part.ReadFrom (t : Text) : Part → Prop
  | value v => ∀ fuel rest, t.length ≤ fuel → Stops rest →
      value? (fuel + 1) (t ++ rest) = some (v, rest)
  | items list => ∀ fuel rest, t.length ≤ fuel → items? (fuel + 1) (t ++ rest) = some (list, rest)
  | members list =>
      ∀ fuel rest, t.length ≤ fuel → members? (fuel + 1) (t ++ rest) = some (list, rest)

theorem Part.ReadFrom.value?_padded {v : Json} {before t after rest : Text}
    (h : (Part.value v).ReadFrom t) (hbefore : Gap before) (hafter : Gap after)
    (hrest : Stops rest) {fuel : Nat} (hfuel : t.length ≤ fuel) :
    value? (fuel + 1) (before ++ (t ++ (after ++ rest))) = some (v, after ++ rest) := by
  rw [hbefore.value?_append]
  exact h fuel (after ++ rest) hfuel (hafter.stops_append hrest)

theorem Spaced.readFrom {part : Part} {t : Text} (h : Spaced part t) : part.ReadFrom t := by
  induction h with
  | null => exact fun fuel rest _ _ => rfl
  | bool value =>
      intro fuel rest _ _
      cases value <;> rfl
  | integer value => exact fun fuel rest _ hrest => value?_integerText fuel value hrest
  | decimal negative digits exponent =>
      exact fun fuel rest _ hrest => value?_decimalText fuel negative digits exponent hrest
  | string value => exact fun fuel rest _ _ => value?_quoted fuel value rest
  | emptyArray hgap =>
      intro fuel rest _ _
      rw [List.cons_append, List.append_assoc, List.singleton_append]
      exact hgap.value?_emptyArray fuel rest
  | emptyObject hgap =>
      intro fuel rest _ _
      rw [List.cons_append, List.append_assoc, List.singleton_append]
      exact hgap.value?_emptyObject fuel rest
  -- a bracket takes one step of the count, and its own character pays for it
  | array h ih =>
      rintro (_ | fuel) rest hfuel _
      · simp at hfuel
      · exact value?_array (ih fuel rest (by simpa using hfuel))
  | object h ih =>
      rintro (_ | fuel) rest hfuel _
      · simp at hfuel
      · exact value?_object (ih fuel rest (by simpa using hfuel))
  -- so does an item, paid for by the comma or bracket behind it
  | lastItem hbefore h hafter ih =>
      rintro (_ | fuel) rest hfuel
      · simp at hfuel
      · simp only [List.append_assoc, List.singleton_append]
        simp only [List.length_append, List.length_singleton] at hfuel
        exact items?_last hafter
          (ih.value?_padded hbefore hafter (stops_cons (by decide) rest) (by omega))
  | item hbefore h hafter hrest ih ihrest =>
      rintro (_ | fuel) rest hfuel
      · simp at hfuel
      · simp only [List.append_assoc, List.cons_append]
        simp only [List.length_append, List.length_cons] at hfuel
        exact items?_next hafter
          (ih.value?_padded hbefore hafter (stops_cons (by decide) _) (by omega))
          (ihrest fuel rest (by omega))
  | lastMember key hfront hback hbefore h hafter ih =>
      rintro (_ | fuel) rest hfuel
      · simp at hfuel
      · simp only [List.append_assoc, List.cons_append, List.nil_append]
        simp only [List.length_append, List.length_cons, List.length_nil] at hfuel
        exact members?_last key hfront hback hafter
          (ih.value?_padded hbefore hafter (stops_cons (by decide) rest) (by omega))
  | member key hfront hback hbefore h hafter hrest ih ihrest =>
      rintro (_ | fuel) rest hfuel
      · simp at hfuel
      · simp only [List.append_assoc, List.cons_append]
        simp only [List.length_append, List.length_cons] at hfuel
        exact members?_next key hfront hback hafter
          (ih.value?_padded hbefore hafter (stops_cons (by decide) _) (by omega))
          (ihrest fuel rest (by omega))

/-- **A spaced value is read back**, with blanks around it or without. -/
theorem parse?_spaced {v : Json} {before t after : Text} (hbefore : Gap before)
    (h : Spaced (.value v) t) (hafter : Gap after) :
    parse? (before ++ (t ++ after)) = some v := by
  have hfuel : t.length ≤ (before ++ (t ++ after)).length := by
    simp only [List.length_append]
    omega
  have hread := h.readFrom.value?_padded hbefore hafter stops_nil hfuel
  have hskip := hafter.skipSpace_append []
  rw [List.append_nil] at hread hskip
  rw [parse?, hread]
  simp only [hskip]
  rfl

end PackageAtlas.Json
