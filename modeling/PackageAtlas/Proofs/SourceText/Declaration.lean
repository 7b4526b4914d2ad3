import PackageAtlas.Proofs.Dependencies
import PackageAtlas.Proofs.Trim
import PackageAtlas.Record.SourceText

set_option autoImplicit false

/-! # What a line declares

A declaration is a keyword, blanks, a name, and then blanks and perhaps a semicolon with any text
behind it. `declaredName?` reads the name back whatever the blanks and the text are
(`declaredName?_append`), `withoutModifier?` takes one `static` away from it
(`withoutModifier?_append`), and a file name gives back the name that was put before its extension
(`stem_append`). -/

namespace PackageAtlas.SourceText

/-- Whether `t` begins with `keyword` and blanks. -/
def Announces (keyword t : Text) : Prop :=
  ∃ rest, t = keyword ++ rest ∧ startsBlank rest = true

theorem announces_iff (keyword t : Text) :
    Announces keyword t ↔ (keyword.isPrefixOf? t).any startsBlank = true := by
  rw [Option.any_eq_true]
  refine exists_congr fun rest => and_congr_left fun _ => ?_
  rw [List.isPrefixOf?_eq_some_iff_append_eq, eq_comm]

instance (keyword t : Text) : Decidable (Announces keyword t) :=
  decidable_of_iff _ (announces_iff keyword t).symm

theorem isPrefixOf?_append (keyword rest : Text) :
    keyword.isPrefixOf? (keyword ++ rest) = some rest :=
  List.isPrefixOf?_eq_some_iff_append_eq.2 rfl

theorem semicolon_not_mem_blanks {blanks : Text} (hblanks : ∀ c ∈ blanks, isBlank c = true) :
    ';' ∉ blanks :=
  not_mem_blanks (by decide) hblanks

/-- What stands behind a name ends the name. -/
theorem takeWhile_semicolon {front rest : Text} (hfront : ';' ∉ front)
    (hrest : rest = [] ∨ rest.head? = some ';') :
    (front ++ rest).takeWhile (· ≠ ';') = front := by
  have hall : ∀ c ∈ front, decide (c ≠ ';') = true := by
    intro c hc
    have hne : c ≠ ';' := fun he => hfront (he ▸ hc)
    simpa using hne
  rw [List.takeWhile_append_of_pos hall]
  rcases hrest with rfl | hhead
  · simp
  · obtain ⟨tail, rfl⟩ := List.head?_eq_some_iff.1 hhead
    simp

/-- **A declared name is read back**, whatever the blanks around it and the text behind it. -/
theorem declaredName?_append {keyword gap name blanks rest : Text} (hgap : gap ≠ [])
    (hgapBlank : ∀ c ∈ gap, isBlank c = true) (hne : name ≠ []) (hname : Bare name)
    (hsemicolon : ';' ∉ name) (hblanks : ∀ c ∈ blanks, isBlank c = true)
    (hrest : rest = [] ∨ rest.head? = some ';') :
    declaredName? keyword (keyword ++ (gap ++ name ++ blanks ++ rest)) = some name := by
  have hstarts : startsBlank (gap ++ name ++ blanks ++ rest) = true := by
    rw [List.append_assoc, List.append_assoc, startsBlank_blanks_append hgapBlank hgap]
  have hfront : ';' ∉ gap ++ name ++ blanks := by
    simp [semicolon_not_mem_blanks hgapBlank, semicolon_not_mem_blanks hblanks, hsemicolon]
  rw [declaredName?, isPrefixOf?_append]
  simp only [hstarts, if_true]
  rw [takeWhile_semicolon hfront hrest, trimmed?_append hgapBlank hne hname hblanks]

theorem declaredName?_eq_none {keyword line : Text} (h : ¬ Announces keyword line) :
    declaredName? keyword line = none := by
  unfold declaredName?
  split
  · rfl
  · next rest hrest =>
      have hline := List.isPrefixOf?_eq_some_iff_append_eq.1 hrest
      exact if_neg fun hstarts => h ⟨rest, hline.symm, hstarts⟩

/-! ## The modifier of an import -/

theorem withoutModifier?_append {gap name : Text} (hgap : gap ≠ [])
    (hgapBlank : ∀ c ∈ gap, isBlank c = true) (hne : name ≠ []) (hname : Bare name) :
    withoutModifier? (staticModifier ++ gap ++ name) = some name := by
  have hstarts : startsBlank (gap ++ name) = true := startsBlank_blanks_append hgapBlank hgap name
  have htrim : trim (gap ++ name) = name := by
    have h : trim (gap ++ name ++ []) = name := trim_append hgapBlank hne hname (by simp)
    rwa [List.append_nil] at h
  rw [withoutModifier?, List.append_assoc, isPrefixOf?_append]
  simp only [hstarts, if_true]
  rw [trimmed?, htrim, if_neg hne]

theorem withoutModifier?_eq_self {name : Text} (h : ¬ Announces staticModifier name) :
    withoutModifier? name = some name := by
  unfold withoutModifier?
  split
  · rfl
  · next rest hrest =>
      have hname := List.isPrefixOf?_eq_some_iff_append_eq.1 hrest
      exact if_neg fun hstarts => h ⟨rest, hname.symm, hstarts⟩

/-! ## File names -/

/-- A file name of one component gives back what stands before its last dot. -/
theorem stem_append {name extension : Text} (hne : name ≠ []) (hslash : '/' ∉ name)
    (hextension : extension ≠ []) (hdot : '.' ∉ extension) (hslash' : '/' ∉ extension) :
    stem (name ++ '.' :: extension) = name := by
  have hnoSlash : '/' ∉ name ++ '.' :: extension := by simp [hslash, hslash']
  have hlast : lastComponent? (name ++ '.' :: extension) = some (name ++ '.' :: extension) := by
    rw [lastComponent?, List.splitOn_eq_singleton hnoSlash]
    obtain ⟨c, rest, rfl⟩ := List.exists_cons_of_ne_nil hne
    simp
  have hdots : name ++ '.' :: extension ≠ ['.', '.'] := by
    intro he
    obtain ⟨c, rest, rfl⟩ := List.exists_cons_of_ne_nil hne
    obtain ⟨d, rest', rfl⟩ := List.exists_cons_of_ne_nil hextension
    have hlength := congrArg List.length he
    simp at hlength
    omega
  rw [stem, hlast]
  simp only [if_neg hdots]
  rw [withoutExtension, Dependencies.beforeLast?_append name hdot]
  cases name with
  | nil => exact absurd rfl hne
  | cons c rest => rfl

end PackageAtlas.SourceText
