import PackageAtlas.Dependencies
import PackageAtlas.Proofs.Table

set_option autoImplicit false

/-! # What is gathered of the imports

The dependencies of a list of records are described by two questions: which packages have an entry
(`isSome_get?_ofTargets`), and which targets an entry holds (`mem_targetsOf_ofTargets`). The answers
say nothing about the order of the records, and tables in order are determined by them, so neither
do the dependencies (`ofRecords_perm`). `mem_edges_ofRecords` goes back from an edge to the import
it comes from, which points into the package of a class if it is the full name of that class
(`containingPackage_qualifiedName`). -/

namespace PackageAtlas

theorem KeySet.mem_foldl_add {t : Text} (ts : List Text) :
    ∀ set : KeySet Text, t ∈ ts.foldl (fun s target => KeySet.add target s) set
      ↔ t ∈ ts ∨ t ∈ set := by
  induction ts with
  | nil => simp
  | cons target rest ih =>
      intro set
      rw [List.foldl_cons, ih, KeySet.mem_add, List.mem_cons, ← or_assoc, or_comm (a := t ∈ rest)]

theorem KeySet.sorted_foldl_add (ts : List Text) :
    ∀ {set : KeySet Text}, set.Pairwise (· < ·) →
      (ts.foldl (fun s target => KeySet.add target s) set).Pairwise (· < ·) := by
  induction ts with
  | nil => exact fun h => h
  | cons target rest ih => exact fun h => ih (KeySet.sorted_add target h)

namespace Dependencies

/-- The targets of a package; none if it has no entry. -/
def targetsOf (dependencies : Dependencies) (package : Text) : KeySet Text :=
  (Table.get? package dependencies).getD []

/-! ## One more package -/

theorem get?_addTargets (dependencies : Dependencies) (package : Text) (targets : List Text)
    (key : Text) : Table.get? key (addTargets dependencies package targets)
      = if key = package then
          some (targets.foldl (fun s target => KeySet.add target s)
            (targetsOf dependencies package))
        else Table.get? key dependencies :=
  Table.get?_put ..

theorem mem_targetsOf_addTargets (dependencies : Dependencies) (package : Text)
    (targets : List Text) (key t : Text) :
    t ∈ targetsOf (addTargets dependencies package targets) key
      ↔ (package = key ∧ t ∈ targets) ∨ t ∈ targetsOf dependencies key := by
  rw [targetsOf, get?_addTargets]
  by_cases hk : key = package
  · subst hk
    rw [if_pos rfl, Option.getD_some, KeySet.mem_foldl_add]
    simp
  · rw [if_neg hk, ← targetsOf]
    simp [Ne.symm hk]

/-! ## In order -/

/-- The packages are in order, and so are the targets of each. -/
structure Ordered (dependencies : Dependencies) : Prop where
  packages : Table.Sorted dependencies
  targets : ∀ package, (targetsOf dependencies package).Pairwise (· < ·)

theorem ordered_nil : Ordered [] :=
  ⟨List.Pairwise.nil, fun _ => List.Pairwise.nil⟩

theorem Ordered.addTargets {dependencies : Dependencies} (h : Ordered dependencies)
    (package : Text) (targets : List Text) : Ordered (addTargets dependencies package targets) := by
  refine ⟨Table.sorted_put _ _ h.packages, fun key => ?_⟩
  rw [targetsOf, get?_addTargets]
  split
  · exact KeySet.sorted_foldl_add targets (h.targets package)
  · exact h.targets key

/-- Dependencies in order are determined by their packages and the targets of these. -/
theorem Ordered.ext {dependencies others : Dependencies} (h : Ordered dependencies)
    (ho : Ordered others)
    (hpackages : ∀ key, (Table.get? key dependencies).isSome ↔ (Table.get? key others).isSome)
    (htargets : ∀ key t, t ∈ targetsOf dependencies key ↔ t ∈ targetsOf others key) :
    dependencies = others := by
  refine Table.ext_get? h.packages ho.packages fun key => ?_
  have hsame : targetsOf dependencies key = targetsOf others key :=
    (h.targets key).eq_of_mem_iff (ho.targets key) (htargets key)
  -- a package without targets has an entry all the same, so the targets alone do not decide
  have hsome := hpackages key
  unfold targetsOf at hsame
  cases hd : Table.get? key dependencies with
  | none =>
      rw [hd] at hsome
      exact (Option.not_isSome_iff_eq_none.1 fun hs => nomatch hsome.2 hs).symm
  | some set =>
      obtain ⟨set', hs'⟩ := Option.isSome_iff_exists.1 (hsome.1 (by rw [hd]; rfl))
      rw [hd, hs'] at hsame
      rw [hs']
      exact congrArg some hsame

/-! ## All packages -/

theorem isSome_get?_foldl (key : Text) (pairs : List (Text × List Text)) :
    ∀ dependencies : Dependencies,
      (Table.get? key (pairs.foldl (fun d pair => addTargets d pair.1 pair.2) dependencies)).isSome
        ↔ (∃ pair ∈ pairs, pair.1 = key) ∨ (Table.get? key dependencies).isSome := by
  induction pairs with
  | nil => simp
  | cons pair rest ih =>
      intro dependencies
      rw [List.foldl_cons, ih, get?_addTargets]
      by_cases hk : key = pair.1
      · simp [hk]
      · simp [hk, Ne.symm hk]

theorem mem_targetsOf_foldl (key t : Text) (pairs : List (Text × List Text)) :
    ∀ dependencies : Dependencies,
      t ∈ targetsOf (pairs.foldl (fun d pair => addTargets d pair.1 pair.2) dependencies) key
        ↔ (∃ pair ∈ pairs, pair.1 = key ∧ t ∈ pair.2) ∨ t ∈ targetsOf dependencies key := by
  induction pairs with
  | nil => simp
  | cons pair rest ih =>
      intro dependencies
      rw [List.foldl_cons, ih, mem_targetsOf_addTargets]
      simp only [List.mem_cons, exists_eq_or_imp]
      exact or_left_comm.trans or_assoc.symm

theorem Ordered.foldl (pairs : List (Text × List Text)) :
    ∀ {dependencies : Dependencies}, Ordered dependencies →
      Ordered
        (pairs.foldl (fun d pair => Dependencies.addTargets d pair.1 pair.2) dependencies) := by
  induction pairs with
  | nil => exact fun h => h
  | cons pair rest ih => exact fun h => ih (h.addTargets pair.1 pair.2)

/-- A package has an entry if it comes up. -/
theorem isSome_get?_ofTargets (key : Text) (pairs : List (Text × List Text)) :
    (Table.get? key (ofTargets pairs)).isSome ↔ ∃ pair ∈ pairs, pair.1 = key := by
  rw [ofTargets, isSome_get?_foldl]
  simp [Table.get?]

/-- The targets of a package are all that come up with it. -/
theorem mem_targetsOf_ofTargets (key t : Text) (pairs : List (Text × List Text)) :
    t ∈ targetsOf (ofTargets pairs) key ↔ ∃ pair ∈ pairs, pair.1 = key ∧ t ∈ pair.2 := by
  rw [ofTargets, mem_targetsOf_foldl]
  simp [targetsOf, Table.get?]

theorem ordered_ofTargets (pairs : List (Text × List Text)) : Ordered (ofTargets pairs) :=
  ordered_nil.foldl pairs

/-! ## Edges -/

theorem mem_edges {dependencies : Dependencies} (h : Table.Sorted dependencies)
    (source target : Text) :
    (source, target) ∈ edges dependencies ↔ target ∈ targetsOf dependencies source := by
  simp only [edges, List.mem_flatMap, List.mem_map, Prod.mk.injEq, targetsOf]
  constructor
  · rintro ⟨entry, hentry, _, htarget, rfl, rfl⟩
    rw [(Table.get?_eq_some_iff_mem h).2 hentry]
    exact htarget
  · intro htarget
    cases hget : Table.get? source dependencies with
    | none => simp [hget] at htarget
    | some set =>
        rw [hget] at htarget
        exact ⟨(source, set), Table.mem_of_get? hget, target, htarget, rfl, rfl⟩

theorem isIgnored_eq_false_iff (ignored : List Text) (name : Text) :
    isIgnored ignored name = false ↔ ∀ start ∈ ignored, ¬ start <+: name := by
  simp [isIgnored, ← List.isPrefixOf_iff_prefix]

/-- An edge comes from an import that is not ignored, in a class of its source. -/
theorem mem_edges_ofRecords (ignored : List Text) (records : List Record) (source target : Text) :
    (source, target) ∈ edges (ofRecords ignored records) ↔
      ∃ record ∈ records, record.package = source ∧ ∃ name ∈ record.dependencies,
        (∀ start ∈ ignored, ¬ start <+: name) ∧ containingPackage name = target := by
  rw [ofRecords, mem_edges (ordered_ofTargets _).packages, mem_targetsOf_ofTargets]
  simp only [List.mem_map, exists_exists_and_eq_and, targets, List.mem_filter, Bool.not_eq_true',
    isIgnored_eq_false_iff, and_assoc]

theorem beforeLast?_eq_none {α : Type} [DecidableEq α] {x : α} {l : List α} (h : x ∉ l) :
    beforeLast? x l = none := by
  induction l with
  | nil => rfl
  | cons y rest ih =>
      obtain ⟨hy, hrest⟩ := List.ne_and_not_mem_of_not_mem_cons h
      rw [beforeLast?, ih hrest]
      exact if_neg (Ne.symm hy)

theorem beforeLast?_append {α : Type} [DecidableEq α] {x : α} (before : List α) {after : List α}
    (h : x ∉ after) : beforeLast? x (before ++ x :: after) = some before := by
  induction before with
  | nil =>
      rw [List.nil_append, beforeLast?, beforeLast?_eq_none h]
      exact if_pos rfl
  | cons y rest ih => rw [List.cons_append, beforeLast?, ih]

/-- The full name of a class points into its package, unless its own name has a dot. -/
theorem containingPackage_qualifiedName {record : Record} (h : '.' ∉ record.className) :
    containingPackage record.qualifiedName = record.package := by
  rw [containingPackage, Record.qualifiedName, beforeLast?_append _ h, Option.getD_some]

/-! ## The order of the records -/

/-- **The order of the records does not matter for the dependencies.** -/
theorem ofRecords_perm (ignored : List Text) {shuffled records : List Record}
    (h : shuffled.Perm records) : ofRecords ignored shuffled = ofRecords ignored records := by
  have hpairs := h.map fun record => (record.package, targets ignored record)
  unfold ofRecords
  refine (ordered_ofTargets _).ext (ordered_ofTargets _) (fun key => ?_) fun key t => ?_
  · rw [isSome_get?_ofTargets, isSome_get?_ofTargets]
    exact exists_congr fun pair => and_congr_left fun _ => hpairs.mem_iff
  · rw [mem_targetsOf_ofTargets, mem_targetsOf_ofTargets]
    exact exists_congr fun pair => and_congr_left fun _ => hpairs.mem_iff

end Dependencies

end PackageAtlas
