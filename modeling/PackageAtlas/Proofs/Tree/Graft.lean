import PackageAtlas.Proofs.Tree.Bindings

set_option autoImplicit false

/-! # Grafting

`Tree.graft` puts a tree at a path and opens the packages that lead there, as an insertion into a
namespace does, but without numbered nodes. What it does to the bindings is said by
`mem_bindings_graft`: the new binding comes in, those with comparable paths go, all others stay. -/

namespace PackageAtlas.Tree

/-- The entries of the package under `segment`; none if a class or nothing is there. -/
def entriesAt (segment : Text) (es : List (Text × Tree)) : List (Text × Tree) :=
  ((Table.get? segment es).map entries).getD []

/-- The entries with `tree` under `key` in the package at the end of `segments`. -/
def graft : List Text → Text → Tree → List (Text × Tree) → List (Text × Tree)
  | [], key, tree, es => Table.put key tree es
  | segment :: rest, key, tree, es =>
    Table.put segment (.package (graft rest key tree (entriesAt segment es))) es

/-! ## Grafting keeps trees proper -/

theorem graft_ne_nil (segments : List Text) (key : Text) (tree : Tree) (es : List (Text × Tree)) :
    graft segments key tree es ≠ [] := by
  cases segments <;> exact Table.put_ne_nil _ _ _

theorem ProperEntries.put {key : Text} {tree : Tree} {es : List (Text × Tree)}
    (h : ProperEntries es) (ht : tree.Proper) : ProperEntries (Table.put key tree es) := by
  refine (properEntries_iff _).2 ⟨Table.sorted_put key tree h.sorted, fun entry hentry => ?_⟩
  rcases (Table.mem_put h.sorted entry).1 hentry with rfl | ⟨hmem, -⟩
  · exact ht
  · exact h.proper hmem

theorem ProperEntries.entriesAt {es : List (Text × Tree)} (h : ProperEntries es) (segment : Text) :
    ProperEntries (entriesAt segment es) := by
  unfold Tree.entriesAt
  cases hget : Table.get? segment es with
  | none => exact (properEntries_iff _).2 ⟨List.Pairwise.nil, by simp⟩
  | some tree => exact properEntries_entries (h.proper (Table.mem_of_get? hget))

theorem ProperEntries.graft {tree : Tree} (ht : tree.Proper) (segments : List Text) (key : Text) :
    ∀ {es : List (Text × Tree)}, ProperEntries es → ProperEntries (graft segments key tree es) := by
  induction segments with
  | nil => exact fun h => h.put ht
  | cons segment rest ih =>
      intro es h
      have hinner := ih (h.entriesAt segment)
      exact h.put ((proper_package _).2 ⟨graft_ne_nil _ _ _ _, hinner⟩)

/-! ## What grafting does to the bindings -/

theorem mem_bindings_put {key : Text} {tree : Tree} {es : List (Text × Tree)}
    (hs : Table.Sorted es) (b : List Text × Record) :
    b ∈ bindingsOfEntries (Table.put key tree es) ↔
      (∃ inner ∈ tree.bindings, b = under key inner)
        ∨ b ∈ bindingsOfEntries es ∧ b.1.head? ≠ some key := by
  rw [mem_bindingsOfEntries, mem_bindingsOfEntries]
  constructor
  · rintro ⟨entry, hentry, inner, hinner, rfl⟩
    rcases (Table.mem_put hs entry).1 hentry with rfl | ⟨hmem, hne⟩
    · exact Or.inl ⟨inner, hinner, rfl⟩
    · exact Or.inr ⟨⟨entry, hmem, inner, hinner, rfl⟩, by simpa [under] using hne⟩
  · rintro (⟨inner, hinner, rfl⟩ | ⟨⟨entry, hmem, inner, hinner, rfl⟩, hne⟩)
    · exact ⟨(key, tree), (Table.mem_put hs _).2 (Or.inl rfl), inner, hinner, rfl⟩
    · have hkey : entry.1 ≠ key := by simpa [under] using hne
      exact ⟨entry, (Table.mem_put hs entry).2 (Or.inr ⟨hmem, hkey⟩), inner, hinner, rfl⟩

/-- The bindings of the package under `segment` are, seen from above, those that begin with
`segment` and go on: a class that stands there itself has no entries. -/
theorem under_mem_iff_mem_entriesAt {segment : Text} {es : List (Text × Tree)}
    (hs : Table.Sorted es) {inner : List Text × Record} (hne : inner.1 ≠ []) :
    under segment inner ∈ bindingsOfEntries es ↔
      inner ∈ bindingsOfEntries (entriesAt segment es) := by
  have hmem : under segment inner ∈ bindingsOfEntries es ↔
      ∃ tree, Table.get? segment es = some tree ∧ inner ∈ tree.bindings := by
    rw [mem_bindingsOfEntries]
    constructor
    · rintro ⟨⟨key, tree⟩, hentry, other, hother, heq⟩
      simp only [under, Prod.mk.injEq, List.cons.injEq] at heq
      obtain ⟨⟨rfl, hpath⟩, hrecord⟩ := heq
      obtain rfl : inner = other := Prod.ext hpath hrecord
      exact ⟨tree, (Table.get?_eq_some_iff_mem hs).2 hentry, hother⟩
    · rintro ⟨tree, hget, hinner⟩
      exact ⟨(segment, tree), Table.mem_of_get? hget, inner, hinner, rfl⟩
  rw [hmem, entriesAt]
  cases Table.get? segment es with
  | none => simp
  | some tree =>
      cases tree with
      | package es' => simp [entries]
      | cls record =>
          have hcls : inner ≠ ([], record) := fun he => hne (by rw [he])
          simp [entries, hcls]

/-- **After grafting a class, the bindings are the new one and the old ones whose paths are not
comparable with its path.** -/
theorem mem_bindings_graft (segments : List Text) (key : Text) (record : Record)
    (b : List Text × Record) : ∀ {es : List (Text × Tree)}, ProperEntries es →
    (b ∈ bindingsOfEntries (graft segments key (.cls record) es) ↔
      b = (segments ++ [key], record)
        ∨ b ∈ bindingsOfEntries es ∧ ¬ Comparable b.1 (segments ++ [key])) := by
  induction segments generalizing b with
  | nil =>
      intro es h
      rw [graft, mem_bindings_put h.sorted, bindings_cls]
      have hcomp : b ∈ bindingsOfEntries es →
          (b.1.head? ≠ some key ↔ ¬ Comparable b.1 ([] ++ [key])) := by
        intro hb
        obtain ⟨k, q, hkq⟩ := List.exists_cons_of_ne_nil (path_ne_nil_of_mem hb)
        simp [hkq, (comparable_nil q).symm]
      simp only [List.mem_singleton, exists_eq_left, under, List.nil_append]
      exact or_congr_right (and_congr_right hcomp)
  | cons segment rest ih =>
      intro es h
      rw [graft, mem_bindings_put h.sorted]
      simp only [bindings_package]
      constructor
      · rintro (⟨inner, hinner, rfl⟩ | ⟨hb, hne⟩)
        · rcases (ih inner (h.entriesAt segment)).1 hinner with rfl | ⟨hmem, hcomp⟩
          · exact Or.inl rfl
          · refine Or.inr ⟨?_, fun hc => hcomp ((comparable_cons_cons ..).1 hc).2⟩
            exact (under_mem_iff_mem_entriesAt h.sorted (path_ne_nil_of_mem hmem)).2 hmem
        · refine Or.inr ⟨hb, fun hc => hne ?_⟩
          obtain ⟨k, q, hkq⟩ := List.exists_cons_of_ne_nil (path_ne_nil_of_mem hb)
          rw [hkq, List.cons_append, comparable_cons_cons] at hc
          rw [hkq, hc.1, List.head?_cons]
      · rintro (rfl | ⟨hb, hcomp⟩)
        · exact Or.inl ⟨_, (ih _ (h.entriesAt segment)).2 (Or.inl rfl), rfl⟩
        · -- an old binding lies in the package that is entered, or under another key
          obtain ⟨k, q, hkq⟩ := List.exists_cons_of_ne_nil (path_ne_nil_of_mem hb)
          by_cases hk : k = segment
          · subst hk
            have hunder : b = under k (q, b.2) := Prod.ext hkq rfl
            rw [hkq, List.cons_append, comparable_cons_cons] at hcomp
            have hinner : ¬ Comparable q (rest ++ [key]) := fun hc => hcomp ⟨rfl, hc⟩
            -- a class at `segment` itself would be comparable
            have hq : q ≠ [] := fun he => hinner (he ▸ comparable_nil _)
            rw [hunder, under_mem_iff_mem_entriesAt h.sorted hq] at hb
            exact Or.inl ⟨(q, b.2), (ih _ (h.entriesAt k)).2 (Or.inr ⟨hb, hinner⟩), hunder⟩
          · exact Or.inr ⟨hb, by rw [hkq]; simpa using hk⟩

/-! ## Grafting twice -/

theorem entriesAt_put_package (segment : Text) (inner es : List (Text × Tree)) :
    entriesAt segment (Table.put segment (.package inner) es) = inner := by
  rw [entriesAt, Table.get?_put_self]
  rfl

/-- A tree grafted at the beginning of the path of an earlier one replaces it. -/
theorem graft_graft_extension (segments : List Text) (key : Text) (more : List Text) (key' : Text)
    (tree tree' : Tree) : ∀ es : List (Text × Tree),
    graft segments key tree (graft (segments ++ key :: more) key' tree' es)
      = graft segments key tree es := by
  induction segments with
  | nil => exact fun es => Table.put_put ..
  | cons segment rest ih =>
      intro es
      rw [List.cons_append, graft, graft, graft, entriesAt_put_package, Table.put_put, ih]

/-- A tree grafted further on from a class replaces it by the packages that lead there. -/
theorem graft_extension_graft (segments : List Text) (key : Text) (more : List Text) (key' : Text)
    (tree' : Tree) (record : Record) : ∀ es : List (Text × Tree),
    graft (segments ++ key :: more) key' tree' (graft segments key (.cls record) es)
      = graft segments key (.package (graft more key' tree' [])) es := by
  induction segments with
  | nil =>
      intro es
      have hempty : entriesAt key (Table.put key (.cls record) es) = [] := by
        rw [entriesAt, Table.get?_put_self]
        rfl
      rw [List.nil_append, graft, graft, graft, hempty, Table.put_put]
  | cons segment rest ih =>
      intro es
      rw [List.cons_append, graft, graft, graft, entriesAt_put_package, Table.put_put, ih]

end PackageAtlas.Tree
