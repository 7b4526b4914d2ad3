import Mathlib.Data.List.TakeWhile
import PackageAtlas.Text.Lines

set_option autoImplicit false

/-! # Texts without blanks at their ends

`Bare t` says that no blank begins or ends `t`: trimming leaves such a text alone and takes away any
blanks around it (`trim_append`). Blanks at the end of a line do not matter to its trimmed text, and
neither does the carriage return that may belong to the line's end (`trim_withoutReturn`). -/

namespace PackageAtlas

/-- What is said of the characters of a text is decided by going through the text, also where all
characters could be gone through. -/
instance (p : Char → Prop) [DecidablePred p] (t : Text) : Decidable (∀ c ∈ t, p c) :=
  List.decidableBAll p t

/-- Neither the first nor the last character is a blank. -/
structure Bare (t : Text) : Prop where
  starts : startsBlank t = false
  ends : startsBlank t.reverse = false

/-! ## The first character -/

theorem startsBlank_append {t : Text} (ht : t ≠ []) (u : Text) :
    startsBlank (t ++ u) = startsBlank t := by
  obtain ⟨c, rest, rfl⟩ := List.exists_cons_of_ne_nil ht
  rfl

theorem startsBlank_blanks_append {blanks : Text} (hblanks : ∀ c ∈ blanks, isBlank c = true)
    (hne : blanks ≠ []) (t : Text) : startsBlank (blanks ++ t) = true := by
  obtain ⟨c, rest, rfl⟩ := List.exists_cons_of_ne_nil hne
  exact hblanks c (List.mem_cons_self ..)

theorem startsBlank_reverse_append {blanks : Text} (hblanks : ∀ c ∈ blanks, isBlank c = true)
    (hne : blanks ≠ []) (t : Text) : startsBlank (t ++ blanks).reverse = true := by
  rw [List.reverse_append]
  refine startsBlank_blanks_append (fun c hc => ?_) (by simpa using hne) _
  exact hblanks c (List.mem_reverse.1 hc)

theorem startsBlank_eq_false {t : Text} (h : ∀ c ∈ t, isBlank c = false) :
    startsBlank t = false := by
  cases t with
  | nil => rfl
  | cons c rest => exact h c (List.mem_cons_self ..)

/-- A text without any blank has none at its ends. -/
theorem bare_of_forall {t : Text} (h : ∀ c ∈ t, isBlank c = false) : Bare t :=
  ⟨startsBlank_eq_false h, startsBlank_eq_false fun c hc => h c (List.mem_reverse.1 hc)⟩

theorem not_mem_blanks {c : Char} (hc : isBlank c = false) {blanks : Text}
    (hblanks : ∀ c ∈ blanks, isBlank c = true) : c ∉ blanks := fun hmem =>
  Bool.false_ne_true (hc.symm.trans (hblanks c hmem))

theorem dropWhile_isBlank_of_starts {t : Text} (h : startsBlank t = false) :
    t.dropWhile isBlank = t := by
  cases t with
  | nil => rfl
  | cons c rest =>
      have hc : isBlank c = false := h
      rw [List.dropWhile_cons, if_neg (by simp [hc])]

theorem Bare.append {t u : Text} (ht : t ≠ []) (hu : u ≠ []) (hstarts : startsBlank t = false)
    (hends : startsBlank u.reverse = false) (between : Text) : Bare (t ++ between ++ u) where
  starts := by
    rw [List.append_assoc, startsBlank_append ht, hstarts]
  ends := by
    rw [List.reverse_append, startsBlank_append (by simpa using hu), hends]

/-! ## Trimming -/

theorem trimStart_append {blanks : Text} (hblanks : ∀ c ∈ blanks, isBlank c = true) (t : Text) :
    trimStart (blanks ++ t) = trimStart t :=
  List.dropWhile_append_of_pos hblanks

theorem trimEnd_append {t : Text} (hends : startsBlank t.reverse = false) (u : Text) :
    trimEnd (t ++ u) = t ++ trimEnd u := by
  rw [trimEnd, trimEnd, List.reverse_append, List.dropWhile_append]
  split
  · next hempty =>
      rw [dropWhile_isBlank_of_starts hends, List.isEmpty_iff.1 hempty, List.reverse_reverse,
        List.reverse_nil, List.append_nil]
  · rw [List.reverse_append, List.reverse_reverse]

theorem trimEnd_append_blanks {blanks : Text} (hblanks : ∀ c ∈ blanks, isBlank c = true)
    (t : Text) : trimEnd (t ++ blanks) = trimEnd t := by
  have hall : ∀ c ∈ blanks.reverse, isBlank c = true := fun c hc =>
    hblanks c (List.mem_reverse.1 hc)
  rw [trimEnd, trimEnd, List.reverse_append, List.dropWhile_append_of_pos hall]

theorem trimEnd_blanks {blanks : Text} (hblanks : ∀ c ∈ blanks, isBlank c = true) :
    trimEnd blanks = [] :=
  trimEnd_append_blanks hblanks []

/-- Blanks around a text without blanks at its ends are taken away. -/
theorem trim_append {before t after : Text} (hbefore : ∀ c ∈ before, isBlank c = true)
    (hne : t ≠ []) (ht : Bare t) (hafter : ∀ c ∈ after, isBlank c = true) :
    trim (before ++ t ++ after) = t := by
  have hstarts : startsBlank (t ++ after) = false := by rw [startsBlank_append hne, ht.starts]
  rw [trim, List.append_assoc, trimStart_append hbefore, trimStart,
    dropWhile_isBlank_of_starts hstarts, trimEnd_append ht.ends, trimEnd_blanks hafter,
    List.append_nil]

theorem trim_append_blanks {blanks : Text} (hblanks : ∀ c ∈ blanks, isBlank c = true) (t : Text) :
    trim (t ++ blanks) = trim t := by
  rw [trim, trim, trimStart, trimStart, List.dropWhile_append]
  split
  · next hempty =>
      have hrest : ∀ c ∈ blanks.dropWhile isBlank, isBlank c = true := fun c hc =>
        hblanks c ((List.dropWhile_sublist _).mem hc)
      rw [List.isEmpty_iff.1 hempty, trimEnd_blanks hrest]
      rfl
  · exact trimEnd_append_blanks hblanks _

theorem startsBlank_dropWhile (t : Text) : startsBlank (t.dropWhile isBlank) = false := by
  induction t with
  | nil => rfl
  | cons c rest ih =>
      rw [List.dropWhile_cons]
      split
      · exact ih
      · next hc => exact eq_false_of_ne_true hc

/-- What is left behind the blanks in front is the trimmed text and blanks. -/
theorem trimStart_eq (t : Text) :
    ∃ after : Text, (∀ c ∈ after, isBlank c = true) ∧ trimStart t = trim t ++ after := by
  refine ⟨((trimStart t).reverse.takeWhile isBlank).reverse, ?_, ?_⟩
  · intro c hc
    exact List.mem_takeWhile_imp (List.mem_reverse.1 hc)
  · rw [trim, trimEnd, ← List.reverse_append, List.takeWhile_append_dropWhile,
      List.reverse_reverse]

/-- A text is its trimmed text with blanks around it. -/
theorem exists_blanks_trim (t : Text) : ∃ before after : Text, (∀ c ∈ before, isBlank c = true) ∧
    (∀ c ∈ after, isBlank c = true) ∧ t = before ++ trim t ++ after := by
  obtain ⟨after, hafter, htrim⟩ := trimStart_eq t
  refine ⟨t.takeWhile isBlank, after, fun c hc => List.mem_takeWhile_imp hc, hafter, ?_⟩
  rw [List.append_assoc, ← htrim, trimStart, List.takeWhile_append_dropWhile]

theorem bare_trim (t : Text) : Bare (trim t) where
  starts := by
    obtain ⟨after, -, htrim⟩ := trimStart_eq t
    by_cases hne : trim t = []
    · rw [hne]
      rfl
    · rw [← startsBlank_append hne after, ← htrim]
      exact startsBlank_dropWhile t
  ends := by
    rw [trim, trimEnd, List.reverse_reverse]
    exact startsBlank_dropWhile _

/-- A text whose last character is no blank is not trimmed away. -/
theorem trim_ne_nil {t : Text} (hne : t ≠ []) (hends : startsBlank t.reverse = false) :
    trim t ≠ [] := by
  intro htrim
  obtain ⟨before, after, hbefore, hafter, ht⟩ := exists_blanks_trim t
  rw [htrim, List.append_nil] at ht
  have hall : ∀ c ∈ t.reverse, isBlank c = true := by
    intro c hc
    rw [ht, List.mem_reverse, List.mem_append] at hc
    exact hc.elim (hbefore c) (hafter c)
  have hstarts := startsBlank_blanks_append hall (by simpa using hne) []
  rw [List.append_nil, hends] at hstarts
  cases hstarts

theorem mem_of_mem_trim {c : Char} {t : Text} (h : c ∈ trim t) : c ∈ t := by
  obtain ⟨before, after, -, -, ht⟩ := exists_blanks_trim t
  rw [ht]
  exact List.mem_append_left _ (List.mem_append_right _ h)

/-- The carriage return at the end of a line is a blank. -/
theorem trim_withoutReturn (t : Text) : trim (Lines.withoutReturn '\r' t) = trim t := by
  rw [Lines.withoutReturn]
  split
  · next hlast =>
      obtain ⟨front, rfl⟩ := List.getLast?_eq_some_iff.1 hlast
      rw [List.dropLast_concat, trim_append_blanks (by decide)]
  · rfl

/-! ## Trimmed texts that are not empty -/

theorem trimmed?_append {before t after : Text} (hbefore : ∀ c ∈ before, isBlank c = true)
    (hne : t ≠ []) (ht : Bare t) (hafter : ∀ c ∈ after, isBlank c = true) :
    trimmed? (before ++ t ++ after) = some t := by
  rw [trimmed?, trim_append hbefore hne ht hafter, if_neg hne]

theorem trimmed?_blanks {blanks : Text} (hblanks : ∀ c ∈ blanks, isBlank c = true) :
    trimmed? blanks = none :=
  if_pos (trim_append_blanks hblanks [])

theorem of_trimmed?_eq_some {t u : Text} (h : trimmed? t = some u) : u ≠ [] ∧ u = trim t := by
  unfold trimmed? at h
  split at h
  · cases h
  · next hne =>
      obtain rfl := Option.some.inj h
      exact ⟨hne, rfl⟩

end PackageAtlas
