import Mathlib.Data.List.Dedup
import Mathlib.Data.List.Infix
import Mathlib.Data.List.Pairwise
import PackageAtlas.Proofs.Namespace.Displacement
import PackageAtlas.Proofs.Namespace.Survivors
import PackageAtlas.Proofs.Namespace.WellBuilt
import PackageAtlas.Proofs.Tree.Nodes

set_option autoImplicit false

/-! # What can be looked up in a namespace

Which nodes a path leads to is determined by the classes of the namespace: the class at the end of
its own path (`Valid.follow_class_iff`), and a package at every shorter path on the way to one
(`Valid.follow_package_iff`). So the nodes are counted by the beginnings of the paths of classes
(`Valid.len_eq`). `lookup_ofRecords` says all this of paths written with dots, in every namespace of
records. -/

namespace PackageAtlas.Namespace

open PackageAtlas.Tree

variable {ns : Namespace}

/-! ## Nodes at the end of a path -/

/-- Of two classes with comparable paths only one fits into a namespace. -/
theorem Valid.eq_of_comparable (h : Valid ns) {a b : Record} (ha : a ∈ ns.leaves)
    (hb : b ∈ ns.leaves) (hcomp : Comparable a.path b.path) : a = b := by
  have hsymm : Std.Symm fun a b : Record => ¬ Comparable a.path b.path :=
    ⟨fun _ _ hab hba => hab hba.symm⟩
  by_contra hne
  exact (h.leaves_strict.imp And.right).forall ha hb hne hcomp

theorem at?_tree (h : Valid ns) (path : List Text) :
    at? path ns.tree = (ns.follow root path).map ns.subtree := by
  rw [tree_eq_subtree, at?_subtree h.sound path h.sound.home_lt_size]

/-- A path leads to a class if and only if it is the path of its record. -/
theorem Valid.follow_class_iff (h : Valid ns) (path : List Text) (record : Record) :
    (∃ id, ns.follow root path = some id ∧ ns.node? id = some (.cls record)) ↔
      record ∈ ns.leaves ∧ record.path = path := by
  constructor
  · rintro ⟨id, hfollow, hid⟩
    have hmem := mem_bindings_of_follow h.sound hfollow hid
    obtain rfl : path = record.path := h.located _ hmem
    exact ⟨(h.mem_leaves_iff record).2 hmem, rfl⟩
  · rintro ⟨hmem, rfl⟩
    have hb := (h.mem_leaves_iff record).1 hmem
    rw [bindings_tree h.sound] at hb
    have hat := at?_of_mem_bindingsOfEntries h.proper hb
    rw [← tree_eq_package h.sound, at?_tree h, Option.map_eq_some_iff] at hat
    obtain ⟨id, hfollow, hsubtree⟩ := hat
    obtain ⟨node, hnode⟩ := exists_node?_of_lt_size
      (lt_size_of_follow h.sound h.sound.home_lt_size hfollow)
    cases node with
    | package es =>
        rw [subtree_package h.sound hnode] at hsubtree
        cases hsubtree
    | cls old =>
        rw [subtree_cls hnode] at hsubtree
        obtain rfl := Tree.cls.inj hsubtree
        exact ⟨id, hfollow, hnode⟩

/-- A path leads somewhere if and only if it goes on to a class. -/
theorem Valid.follow_iff (h : Valid ns) {path : List Text} (hne : path ≠ []) :
    (∃ id, ns.follow root path = some id) ↔ ∃ record ∈ ns.leaves, path <+: record.path := by
  constructor
  · rintro ⟨id, hfollow⟩
    obtain ⟨record, hmem⟩ := List.exists_mem_of_ne_nil _ (h.leaves_subtree_ne_nil hne hfollow)
    obtain ⟨node, hnode⟩ := exists_node?_of_lt_size
      (lt_size_of_follow h.sound h.sound.home_lt_size hfollow)
    cases node with
    | package es =>
        obtain ⟨hleaf, hstart, -⟩ := h.mem_leaves_of_subtree hfollow hnode hmem
        exact ⟨record, hleaf, hstart⟩
    | cls old =>
        obtain ⟨hleaf, rfl⟩ := (h.follow_class_iff path old).1 ⟨id, hfollow, hnode⟩
        exact ⟨old, hleaf, List.prefix_rfl⟩
  · rintro ⟨record, hmem, rest, hrest⟩
    obtain ⟨id, hfollow, -⟩ := (h.follow_class_iff record.path record).2 ⟨hmem, rfl⟩
    rw [← hrest, follow_append, Option.bind_eq_some_iff] at hfollow
    obtain ⟨mid, hmid, -⟩ := hfollow
    exact ⟨mid, hmid⟩

/-- A path leads to a package if and only if it stops short of a class. -/
theorem Valid.follow_package_iff (h : Valid ns) {path : List Text} (hne : path ≠ []) :
    (∃ id es, ns.follow root path = some id ∧ ns.node? id = some (.package es)) ↔
      ∃ record ∈ ns.leaves, path <+: record.path ∧ path ≠ record.path := by
  constructor
  · rintro ⟨id, es, hfollow, hid⟩
    obtain ⟨record, hmem⟩ := List.exists_mem_of_ne_nil _ (h.leaves_subtree_ne_nil hne hfollow)
    exact ⟨record, h.mem_leaves_of_subtree hfollow hid hmem⟩
  · rintro ⟨record, hmem, hstart, hproper⟩
    obtain ⟨id, hfollow⟩ := (h.follow_iff hne).2 ⟨record, hmem, hstart⟩
    obtain ⟨node, hnode⟩ := exists_node?_of_lt_size
      (lt_size_of_follow h.sound h.sound.home_lt_size hfollow)
    cases node with
    | package es => exact ⟨id, es, hfollow, hnode⟩
    | cls old =>
        -- no class stands on the way to another
        obtain ⟨hold, rfl⟩ := (h.follow_class_iff path old).1 ⟨id, hfollow, hnode⟩
        have hsame : old = record := h.eq_of_comparable hold hmem (Or.inl hstart)
        exact absurd (congrArg Record.path hsame) hproper

/-! ## Entries of a package -/

/-- The keys in a package are those with which its path goes on to a class. -/
theorem Valid.exists_entry_iff (h : Valid ns) {path : List Text} {id : NodeId}
    (hfollow : ns.follow root path = some id) (key : Text) :
    (∃ child, (key, child) ∈ ns.entries id) ↔
      ∃ record ∈ ns.leaves, path ++ [key] <+: record.path := by
  rw [← h.follow_iff (List.concat_ne_nil key path)]
  refine exists_congr fun child => ?_
  rw [follow_concat_eq_some_iff h.sound, hfollow]
  simp

/-- An entry of a package is a class if and only if the path of that class ends with its key. -/
theorem Valid.entry_class_iff (h : Valid ns) {path : List Text} {id child : NodeId} {key : Text}
    (hfollow : ns.follow root path = some id) (hmem : (key, child) ∈ ns.entries id)
    (record : Record) : ns.node? child = some (.cls record) ↔
      record ∈ ns.leaves ∧ record.path = path ++ [key] := by
  have hchild : ns.follow root (path ++ [key]) = some child :=
    (follow_concat_eq_some_iff h.sound).2 ⟨id, hfollow, hmem⟩
  rw [← h.follow_class_iff]
  simp [hchild]

/-! ## The number of nodes -/

/-- Paths below the root lead to the nodes of the tree. -/
theorem Valid.mem_paths_iff (h : Valid ns) (path : List Text) :
    path ∈ (nodesOfEntries ns.tree.entries).map Prod.fst ↔
      path ≠ [] ∧ ∃ record ∈ ns.leaves, path <+: record.path := by
  have hnode : path ∈ (nodesOfEntries ns.tree.entries).map Prod.fst ↔
      ∃ inner, path ≠ [] ∧ at? path ns.tree = some inner := by
    rw [List.mem_map, tree_eq_package h.sound]
    constructor
    · rintro ⟨⟨_, inner⟩, hmem, rfl⟩
      exact ⟨inner, (mem_nodesOfEntries_iff_at? h.proper _ _).1 hmem⟩
    · rintro ⟨inner, hinner⟩
      exact ⟨(path, inner), (mem_nodesOfEntries_iff_at? h.proper _ _).2 hinner, rfl⟩
  rw [hnode, exists_and_left]
  refine and_congr_right fun hne => ?_
  rw [← h.follow_iff hne, at?_tree h]
  cases ns.follow root path <;> simp

/-- **There are as many nodes below the root as paths of classes have beginnings.** -/
theorem Valid.len_eq (h : Valid ns) : ns.len = 1 +
    (ns.leaves.flatMap fun record => record.path.inits.filter (· ≠ [])).dedup.length := by
  have hperm : ((nodesOfEntries ns.tree.entries).map Prod.fst).Perm
      (ns.leaves.flatMap fun record => record.path.inits.filter (· ≠ [])).dedup := by
    refine (List.perm_ext_iff_of_nodup (nodup_paths_of_proper h.proper) (List.nodup_dedup _)).2 ?_
    intro path
    rw [h.mem_paths_iff, List.mem_dedup, List.mem_flatMap]
    simp only [List.mem_filter, List.mem_inits, decide_eq_true_eq]
    tauto
  rw [← hperm.length_eq, List.length_map, len, tree_eq_package h.sound, size_eq_length_nodes,
    nodes_package, List.length_cons, Nat.add_comm, Tree.entries]

/-! ## Namespaces of records -/

theorem isEmpty_ofRecords (records : List Record) :
    (ofRecords records).isEmpty = true ↔ records = [] := by
  rw [isEmpty, List.isEmpty_iff]
  constructor
  · intro hempty
    rcases List.eq_nil_or_concat' records with rfl | ⟨before, last, rfl⟩
    · rfl
    · -- nothing came after the last record, so a path leads to it
      have hlast : last ∈ survivors (before ++ [last]) :=
        (mem_survivors last _).2 ⟨before, [], rfl, by simp⟩
      have h := valid_ofRecords (before ++ [last])
      obtain ⟨key, rest, hpath⟩ := List.exists_cons_of_ne_nil last.path_ne_nil
      have hstart : [] ++ [key] <+: last.path := ⟨rest, hpath.symm⟩
      have hroot : (ofRecords (before ++ [last])).follow root [] = some root := rfl
      obtain ⟨child, hmem⟩ := (h.exists_entry_iff hroot key).2
        ⟨last, (mem_leaves_ofRecords last _).2 hlast, hstart⟩
      rw [hempty] at hmem
      exact absurd hmem List.not_mem_nil
  · rintro rfl
    rfl

/-- **Look-ups agree with the classes of a namespace.** A path written with dots leads to the class
whose path it is, which then has no dot in its name; or to a package, if it stops short of a class,
and the entries there are what the paths of classes go on with; or nowhere. There are as many nodes
as the paths of classes have beginnings, and the namespace is empty only without records. -/
theorem lookup_ofRecords (records : List Record) (query : Text) :
    let ns := ofRecords records
    let path := query.splitOn '.'
    (∀ record, (∃ id, ns.lookup query = some id ∧ ns.node? id = some (.cls record)) ↔
        record ∈ ns.leaves ∧ record.path = path) ∧
      (∀ id record, ns.lookup query = some id → ns.node? id = some (.cls record) →
        '.' ∉ record.className) ∧
      ((∃ id es, ns.lookup query = some id ∧ ns.node? id = some (.package es)) ↔
        ∃ record ∈ ns.leaves, path <+: record.path ∧ path ≠ record.path) ∧
      (∀ id es, ns.lookup query = some id → ns.node? id = some (.package es) →
        (∀ key, (∃ child, (key, child) ∈ es) ↔
          ∃ record ∈ ns.leaves, path ++ [key] <+: record.path) ∧
        ∀ key child, (key, child) ∈ es → ∀ record, ns.node? child = some (.cls record) ↔
          record ∈ ns.leaves ∧ record.path = path ++ [key]) ∧
      (ns.lookup query = none ↔ ∀ record ∈ ns.leaves, ¬ path <+: record.path) ∧
      ns.len = 1 +
        (ns.leaves.flatMap fun record => record.path.inits.filter (· ≠ [])).dedup.length ∧
      (ns.isEmpty = true ↔ records = []) := by
  intro ns path
  have h : Valid ns := valid_ofRecords records
  have hne : path ≠ [] := List.splitOn_ne_nil '.' query
  refine ⟨h.follow_class_iff path, ?_, h.follow_package_iff hne, ?_, ?_, h.len_eq,
    isEmpty_ofRecords records⟩
  · intro id record hfollow hid
    obtain ⟨-, hpath⟩ := (h.follow_class_iff path record).1 ⟨id, hfollow, hid⟩
    have hlast : record.className ∈ path := hpath ▸ List.mem_concat_self
    exact Record.not_mem_of_mem_splitOn '.' query record.className hlast
  · intro id es hfollow hid
    obtain rfl : ns.entries id = es := entries_of_node? hid
    exact ⟨h.exists_entry_iff hfollow, fun _ _ hmem => h.entry_class_iff hfollow hmem⟩
  · have hnone : ns.lookup query = none ↔ ¬ ∃ id, ns.follow root path = some id := by
      rw [Option.eq_none_iff_forall_ne_some, not_exists]
      rfl
    rw [hnone, h.follow_iff hne]
    simp

-- the class `b.c` is there, but the path to it cannot be written with dots
example : (ofRecords [⟨"a".toList, "b.c".toList, []⟩]).lookup "a.b.c".toList = none := by
  decide

end PackageAtlas.Namespace
