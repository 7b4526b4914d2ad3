import PackageAtlas.Proofs.SourceText.Declaration

set_option autoImplicit false

/-! # The grammar of declarations

`Declares keyword line name` says how a line is written that declares `name`, and `Imports` what the
declared name of an import says about its modifier. The readers accept exactly these lines and find
exactly these names (`declaredName?_eq_some_iff`, `withoutModifier?_eq_some_iff`). A declared name
ends with no blank, so a modifier always has a name behind it, and no import is lost
(`isSome_withoutModifier?`). -/

namespace PackageAtlas.SourceText

/-- `line` is `keyword`, a gap, `name`, and then blanks and perhaps a semicolon with any text behind
it. The name has no semicolon, and no blank begins or ends it. -/
structure Declares (keyword line name : Text) : Prop where
  ne_nil : name ≠ []
  semicolon_not_mem : ';' ∉ name
  bare : Bare name
  written : ∃ gap blanks rest : Text, gap ≠ [] ∧ (∀ c ∈ gap, isBlank c = true) ∧
    (∀ c ∈ blanks, isBlank c = true) ∧ (rest = [] ∨ rest.head? = some ';') ∧
    line = keyword ++ gap ++ name ++ blanks ++ rest

/-- What the declared name of an import says: the modifier, a gap and `name`, or `name` alone if it
does not look like that. -/
def Imports (declared name : Text) : Prop :=
  (∃ gap : Text, gap ≠ [] ∧ (∀ c ∈ gap, isBlank c = true) ∧ startsBlank name = false ∧
    declared = staticModifier ++ gap ++ name) ∨
  ¬ Announces staticModifier declared ∧ name = declared

/-! ## Names behind a gap -/

/-- What is trimmed behind a keyword stands behind a gap. -/
theorem exists_gap {t name : Text} (hstarts : startsBlank t = true) (h : trimmed? t = some name) :
    ∃ gap blanks : Text, gap ≠ [] ∧ (∀ c ∈ gap, isBlank c = true) ∧
      (∀ c ∈ blanks, isBlank c = true) ∧ name ≠ [] ∧ Bare name ∧ t = gap ++ name ++ blanks := by
  obtain ⟨hne, rfl⟩ := of_trimmed?_eq_some h
  obtain ⟨gap, blanks, hgap, hblanks, ht⟩ := exists_blanks_trim t
  refine ⟨gap, blanks, ?_, hgap, hblanks, hne, bare_trim t, ht⟩
  rintro rfl
  rw [ht, List.nil_append, startsBlank_append hne, (bare_trim t).starts] at hstarts
  cases hstarts

theorem startsBlank_takeWhile {t : Text} (h : startsBlank t = true) :
    startsBlank (t.takeWhile (· ≠ ';')) = true := by
  cases t with
  | nil => exact h
  | cons c rest =>
      have hc : isBlank c = true := h
      have hne : c ≠ ';' := by
        rintro rfl
        revert hc
        decide
      rw [List.takeWhile_cons, if_pos (by simpa using hne)]
      exact hc

theorem dropWhile_semicolon (t : Text) :
    t.dropWhile (· ≠ ';') = [] ∨ (t.dropWhile (· ≠ ';')).head? = some ';' := by
  induction t with
  | nil => exact Or.inl rfl
  | cons c rest ih =>
      by_cases hc : c = ';'
      · subst hc
        exact Or.inr rfl
      · rw [List.dropWhile_cons, if_pos (by simpa using hc)]
        exact ih

/-! ## Lines -/

/-- **A line declares what the grammar says.** -/
theorem declaredName?_eq_some_iff (keyword line name : Text) :
    declaredName? keyword line = some name ↔ Declares keyword line name := by
  constructor
  · intro h
    unfold declaredName? at h
    split at h
    · cases h
    · next rest hrest =>
        split at h
        · next hstarts =>
            obtain ⟨gap, blanks, hgap, hgapBlank, hblanks, hne, hbare, hfront⟩ :=
              exists_gap (startsBlank_takeWhile hstarts) h
            refine ⟨hne, ?_, hbare, gap, blanks, rest.dropWhile (· ≠ ';'), hgap, hgapBlank, hblanks,
              dropWhile_semicolon rest, ?_⟩
            · intro hmem
              have hin : ';' ∈ rest.takeWhile (· ≠ ';') := by
                rw [hfront]
                simp [hmem]
              have hsemicolon := List.mem_takeWhile_imp hin
              simp at hsemicolon
            · have hsplit : rest = gap ++ name ++ blanks ++ rest.dropWhile (· ≠ ';') := by
                rw [← hfront, List.takeWhile_append_dropWhile]
              rw [← List.isPrefixOf?_eq_some_iff_append_eq.1 hrest]
              simpa using hsplit
        · cases h
  · rintro ⟨hne, hsemicolon, hbare, gap, blanks, rest, hgap, hgapBlank, hblanks, hrest, rfl⟩
    have h : declaredName? keyword (keyword ++ (gap ++ name ++ blanks ++ rest)) = some name :=
      declaredName?_append hgap hgapBlank hne hbare hsemicolon hblanks hrest
    simpa using h

/-! ## Imports -/

variable {declared : Text}

/-- **The name of an import is what the grammar says**, if no blank ends what is declared. -/
theorem withoutModifier?_eq_some_iff (hends : startsBlank declared.reverse = false) (name : Text) :
    withoutModifier? declared = some name ↔ Imports declared name := by
  constructor
  · intro h
    unfold withoutModifier? at h
    split at h
    · next hnone =>
        refine Or.inr ⟨?_, (Option.some.inj h).symm⟩
        rintro ⟨rest, rfl, -⟩
        rw [isPrefixOf?_append] at hnone
        cases hnone
    · next rest hrest =>
        obtain rfl : staticModifier ++ rest = declared :=
          List.isPrefixOf?_eq_some_iff_append_eq.1 hrest
        split at h
        · next hstarts =>
            obtain ⟨gap, blanks, hgap, hgapBlank, hblanks, hne, hbare, rfl⟩ := exists_gap hstarts h
            refine Or.inl ⟨gap, hgap, hgapBlank, hbare.starts, ?_⟩
            -- blanks behind the name would end what is declared
            obtain rfl : blanks = [] := by
              by_contra hblanksNe
              rw [← List.append_assoc, startsBlank_reverse_append hblanks hblanksNe] at hends
              cases hends
            simp
        · next hstarts =>
            refine Or.inr ⟨?_, (Option.some.inj h).symm⟩
            rintro ⟨rest', heq, hblank⟩
            exact hstarts (List.append_cancel_left heq ▸ hblank)
  · rintro (⟨gap, hgap, hgapBlank, hstarts, rfl⟩ | ⟨hannounces, rfl⟩)
    · have hne : name ≠ [] := by
        rintro rfl
        rw [List.append_nil, startsBlank_reverse_append hgapBlank hgap] at hends
        cases hends
      rw [List.reverse_append, startsBlank_append (by simpa using hne)] at hends
      exact withoutModifier?_append hgap hgapBlank hne ⟨hstarts, hends⟩
    · exact withoutModifier?_eq_self hannounces

/-- What is declared has a name in it, with a modifier or without. -/
theorem isSome_withoutModifier? (hne : declared ≠ [])
    (hends : startsBlank declared.reverse = false) : (withoutModifier? declared).isSome = true := by
  unfold withoutModifier?
  split
  · rfl
  · next rest hrest =>
      obtain rfl : staticModifier ++ rest = declared :=
        List.isPrefixOf?_eq_some_iff_append_eq.1 hrest
      split
      · next hstarts =>
          have hrestNe : rest ≠ [] := by
            rintro rfl
            cases hstarts
          rw [List.reverse_append, startsBlank_append (by simpa using hrestNe)] at hends
          rw [trimmed?, if_neg (trim_ne_nil hrestNe hends)]
          rfl
      · rfl

/-- **Declarations are read by their grammar.** A line declares a name after a keyword exactly if it
is written that way, and then it declares no other. A line imports a name exactly if it declares,
after the keyword of imports, that name or the name with the modifier in front; whatever it declares
there, it imports something. -/
theorem importedName?_exactly :
    (∀ keyword line name, declaredName? keyword line = some name ↔ Declares keyword line name) ∧
    (∀ keyword line name name', Declares keyword line name → Declares keyword line name' →
      name = name') ∧
    (∀ line name, importedName? line = some name ↔
      ∃ declared, declaredName? importKeyword line = some declared ∧ Imports declared name) ∧
    ∀ line, (importedName? line).isSome = (declaredName? importKeyword line).isSome := by
  refine ⟨declaredName?_eq_some_iff, ?_, ?_, ?_⟩
  · intro keyword line name name' h h'
    rw [← declaredName?_eq_some_iff] at h h'
    exact Option.some.inj (h.symm.trans h')
  · intro line name
    unfold importedName?
    rw [Option.bind_eq_some_iff]
    refine exists_congr fun declared => and_congr_right fun hdeclared => ?_
    exact withoutModifier?_eq_some_iff
      ((declaredName?_eq_some_iff _ _ _).1 hdeclared).bare.ends name
  · intro line
    unfold importedName?
    cases hdeclared : declaredName? importKeyword line with
    | none => rfl
    | some declared =>
        have h := (declaredName?_eq_some_iff _ _ _).1 hdeclared
        exact isSome_withoutModifier? h.ne_nil h.bare.ends

/-- Blanks of any kind around a modifier and around a name that has a blank in it. -/
theorem importedName?_exactly_spaced :
    let line : Text := "import\u3000static\ta b ; c".toList
    let declared : Text := "static\ta b".toList
    Declares importKeyword line declared ∧
      (∀ name, Declares importKeyword line name → name = declared) ∧
      importedName? line = some "a b".toList ∧ Imports declared "a b".toList := by
  intro line declared
  have hdeclares : Declares importKeyword line declared :=
    (importedName?_exactly.1 importKeyword line declared).1 (by decide)
  have himported : importedName? line = some "a b".toList := by decide
  refine ⟨hdeclares, ?_, himported, ?_⟩
  · intro name hname
    exact importedName?_exactly.2.1 importKeyword line name declared hname hdeclares
  · obtain ⟨declared', hdeclared', himports⟩ := (importedName?_exactly.2.2.1 line _).1 himported
    have hdeclares' := (importedName?_exactly.1 importKeyword line declared').1 hdeclared'
    rwa [importedName?_exactly.2.1 importKeyword line declared' declared hdeclares' hdeclares]
      at himports

/-- A modifier with nothing behind it is a name, and so is a word that only begins with it. -/
example : importedName? "import static ;".toList = some "static".toList ∧
    importedName? "import staticky.A".toList = some "staticky.A".toList := by
  decide

end PackageAtlas.SourceText
