import PackageAtlas.Record

set_option autoImplicit false

/-! # The paths of records

A package is its segments between dots, so the path of a record tells its package and its class
(`Record.package_eq_of_path_eq`, `Record.className_eq_of_path_eq`). Two paths are `Comparable` if
one of them runs through the end of the other; a namespace has room for only one of two records
with such paths. -/

namespace PackageAtlas

/-! ## Comparable paths -/

/-- One of the two paths is a beginning of the other, or they are the same. -/
def Comparable (p q : List Text) : Prop :=
  p <+: q ∨ q <+: p

instance (p q : List Text) : Decidable (Comparable p q) :=
  inferInstanceAs (Decidable (p <+: q ∨ q <+: p))

theorem Comparable.symm {p q : List Text} (h : Comparable p q) : Comparable q p :=
  Or.symm h

theorem comparable_self (p : List Text) : Comparable p p :=
  Or.inl (List.prefix_refl p)

theorem comparable_nil (p : List Text) : Comparable [] p :=
  Or.inl p.nil_prefix

@[simp] theorem comparable_cons_cons (k k' : Text) (p q : List Text) :
    Comparable (k :: p) (k' :: q) ↔ k = k' ∧ Comparable p q := by
  unfold Comparable
  rw [List.cons_prefix_cons, List.cons_prefix_cons, eq_comm (a := k') (b := k), ← and_or_left]

namespace Record

/-! ## Segments -/

/-- The pieces between the occurrences of an element are without it. -/
theorem not_mem_of_mem_splitOn {α : Type} [DecidableEq α] (x : α) (l : List α) :
    ∀ piece ∈ l.splitOn x, x ∉ piece := by
  induction l with
  | nil => simp
  | cons y rest ih =>
      rw [List.splitOn_cons_eq_if_modifyHead]
      split
      · simpa using ih
      · next hy =>
          have hne : x ≠ y := fun he => hy (by simp [he])
          cases hs : rest.splitOn x with
          | nil => simp
          | cons first others =>
              rw [hs] at ih
              intro piece hp
              rcases List.mem_cons.1 hp with rfl | hp
              · simp [hne, ih first (List.mem_cons_self ..)]
              · exact ih piece (List.mem_cons_of_mem _ hp)

/-- The pieces are made of elements of the list. -/
theorem mem_of_mem_splitOn {α : Type} [DecidableEq α] (x : α) (l : List α) :
    ∀ piece ∈ l.splitOn x, ∀ y ∈ piece, y ∈ l := by
  induction l with
  | nil => simp
  | cons z rest ih =>
      rw [List.splitOn_cons_eq_if_modifyHead]
      split
      · intro piece hp y hy
        rcases List.mem_cons.1 hp with rfl | hp
        · exact absurd hy List.not_mem_nil
        · exact List.mem_cons_of_mem _ (ih piece hp y hy)
      · cases hs : rest.splitOn x with
        | nil => simp
        | cons first others =>
            rw [hs] at ih
            intro piece hp y hy
            rcases List.mem_cons.1 hp with rfl | hp
            · rcases List.mem_cons.1 hy with rfl | hy
              · exact List.mem_cons_self ..
              · exact List.mem_cons_of_mem _ (ih first (List.mem_cons_self ..) y hy)
            · exact List.mem_cons_of_mem _ (ih piece (List.mem_cons_of_mem _ hp) y hy)

theorem dot_not_mem_segment (record : Record) : ∀ segment ∈ record.segments, '.' ∉ segment :=
  not_mem_of_mem_splitOn '.' record.package

theorem mem_package_of_mem_segment (record : Record) :
    ∀ segment ∈ record.segments, ∀ c ∈ segment, c ∈ record.package :=
  mem_of_mem_splitOn '.' record.package

theorem segments_ne_nil (record : Record) : record.segments ≠ [] :=
  List.splitOn_ne_nil '.' record.package

theorem intercalate_segments (record : Record) :
    ['.'].intercalate record.segments = record.package :=
  List.intercalate_splitOn '.'

/-! ## Paths -/

/-- The keys have no characters that neither the package nor the name has. -/
theorem not_mem_of_mem_path {record : Record} {c : Char} (hpackage : c ∉ record.package)
    (hname : c ∉ record.className) : ∀ key ∈ record.path, c ∉ key := by
  intro key hkey hc
  rcases List.mem_append.1 hkey with hkey | hkey
  · exact hpackage (record.mem_package_of_mem_segment key hkey c hc)
  · exact hname (List.mem_singleton.1 hkey ▸ hc)

theorem path_ne_nil (record : Record) : record.path ≠ [] := by
  simp [path]

theorem getLast?_path (record : Record) : record.path.getLast? = some record.className := by
  simp [path]

theorem className_eq_of_path_eq {a b : Record} (h : a.path = b.path) :
    a.className = b.className := by
  have hlast := congrArg List.getLast? h
  rw [getLast?_path, getLast?_path] at hlast
  exact Option.some.inj hlast

theorem segments_eq_of_path_eq {a b : Record} (h : a.path = b.path) : a.segments = b.segments := by
  have hinit := congrArg List.dropLast h
  simpa [path] using hinit

theorem package_eq_of_path_eq {a b : Record} (h : a.path = b.path) : a.package = b.package := by
  rw [← intercalate_segments a, ← intercalate_segments b, segments_eq_of_path_eq h]

theorem path_eq_iff (a b : Record) :
    a.path = b.path ↔ (a.package, a.className) = (b.package, b.className) := by
  constructor
  · intro h
    rw [package_eq_of_path_eq h, className_eq_of_path_eq h]
  · intro h
    obtain ⟨hpackage, hname⟩ := Prod.mk.inj h
    rw [path, path, segments, segments, hpackage, hname]

theorem qualifiedName_eq_of_path_eq {a b : Record} (h : a.path = b.path) :
    a.qualifiedName = b.qualifiedName := by
  rw [qualifiedName, qualifiedName, package_eq_of_path_eq h, className_eq_of_path_eq h]

/-- A class stands on the way of a package if and only if its path is a proper beginning. -/
theorem path_prefix_segments_iff (a b : Record) :
    a.path <+: b.segments ↔ a.path <+: b.path ∧ a.path ≠ b.path := by
  have hlast : a.path <+: b.path ↔ a.path = b.path ∨ a.path <+: b.segments :=
    List.prefix_concat_iff
  rw [hlast]
  constructor
  · intro h
    refine ⟨Or.inr h, fun he => ?_⟩
    have hlen := h.length_le
    rw [he, path, List.length_append, List.length_singleton] at hlen
    omega
  · rintro ⟨he | h, hne⟩
    · exact absurd he hne
    · exact h

end Record

end PackageAtlas
