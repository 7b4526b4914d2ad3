import Mathlib.Algebra.GroupWithZero.Nat
import PackageAtlas.Proofs.Namespace.Checked
import PackageAtlas.Proofs.Namespace.Reachable

set_option autoImplicit false

/-! # Every namespace of records is well built

`Namespace.WellBuilt` gathers what holds of the nodes of a namespace after any run of insertions,
also of the nodes that no path leads to any more. `ofRecords_wellBuilt` says that it does hold, that
there are not more nodes than the records have keys, that no further insertion meets a number
without a node, and that the recursions over the nodes end. -/

namespace PackageAtlas.Namespace

/-- What holds of the nodes of a namespace, whether a path leads to them or not. -/
structure WellBuilt (ns : Namespace) : Prop where
  /-- Node 0 is a package. -/
  root_package : ∃ es, ns.node? root = some (.package es)
  /-- The number of an entry has a node. -/
  child_lt_size : ∀ {parent key child}, (key, child) ∈ ns.entries parent → child < ns.nodes.size
  /-- An entry has a greater number than its package. -/
  parent_lt_child : ∀ {parent key child}, (key, child) ∈ ns.entries parent → parent < child
  /-- A node is an entry of one package at most, and under one key. -/
  entry_unique : ∀ {parent parent' key key' child}, (key, child) ∈ ns.entries parent →
    (key', child) ∈ ns.entries parent' → parent = parent' ∧ key = key'
  /-- The root is no entry. -/
  child_ne_root : ∀ {parent key child}, (key, child) ∈ ns.entries parent → child ≠ root
  /-- A class stands under its name. -/
  class_key : ∀ {parent key child record}, (key, child) ∈ ns.entries parent →
    ns.node? child = some (.cls record) → key = record.className
  /-- A package stands under a key without a dot. -/
  package_key : ∀ {parent key child es}, (key, child) ∈ ns.entries parent →
    ns.node? child = some (.package es) → '.' ∉ key
  /-- The path that leads to a class is the path of its record. -/
  class_path : ∀ {path id record}, ns.follow root path = some id →
    ns.node? id = some (.cls record) → path = record.path
  /-- Every package but the root has an entry. -/
  inhabited : ∀ {id es}, id ≠ root → ns.node? id = some (.package es) → es ≠ []

variable {ns : Namespace}

/-- A class that a path leads to is bound to that path in the tree. -/
theorem mem_bindings_of_follow (h : SoundUpTo ns root) {path : List Text} {id : NodeId}
    {record : Record} (hfollow : ns.follow root path = some id)
    (hid : ns.node? id = some (.cls record)) : (path, record) ∈ ns.tree.bindings := by
  have hat : Tree.at? path ns.tree = some (.cls record) := by
    rw [tree_eq_subtree, at?_subtree h path h.home_lt_size, hfollow, Option.map_some,
      subtree_cls hid]
  have hself : (([], record) : List Text × Record) ∈ (Tree.cls record).bindings := by simp
  simpa using Tree.mem_bindings_of_at? hat hself

theorem Valid.wellBuilt (h : Valid ns) : WellBuilt ns where
  root_package := h.sound.root_package
  child_lt_size := h.sound.child_lt_size
  parent_lt_child := h.sound.parent_lt_child
  entry_unique := h.sound.entry_unique
  child_ne_root := fun hmem => Nat.ne_zero_of_lt (h.sound.parent_lt_child hmem)
  class_key := fun hmem hid => h.sound.fits hmem hid
  package_key := fun hmem hid => h.sound.fits hmem hid
  class_path := fun hfollow hid => h.located _ (mem_bindings_of_follow h.sound hfollow hid)
  inhabited := by
    intro id es hroot hid hes
    subst hes
    exact hroot ((h.sound.inhabited hid).elim (fun he => he) fun he => he)

/-! ## The number of nodes -/

theorem size_insertAll_le (records : List Record) : ∀ ns : Namespace,
    (insertAll records ns).1.nodes.size
      ≤ ns.nodes.size + (records.map fun record => record.segments.length + 1).sum := by
  induction records with
  | nil => exact fun ns => Nat.le_refl _
  | cons record rest ih =>
      intro ns
      have hone := size_insertFrom_le record.segments record ns root
      rw [← insert_eq_insertFrom] at hone
      have hrest := ih (ns.insert record).1
      rw [List.map_cons, List.sum_cons]
      simp only [insertAll]
      omega

/-! ## Recursion over the nodes -/

/-- Going from a package to its entries comes to an end. -/
theorem wellFounded_entries (h : SoundUpTo ns root) :
    WellFounded fun child parent : NodeId => ∃ key, (key, child) ∈ ns.entries parent := by
  refine Subrelation.wf (r := InvImage (· < ·) fun id => ns.nodes.size - id) ?_
    (InvImage.wf _ Nat.lt_wfRel.wf)
  rintro child parent ⟨key, hmem⟩
  exact Nat.sub_lt_sub_left (Nat.lt_trans (h.parent_lt_child hmem) (h.child_lt_size hmem))
    (h.parent_lt_child hmem)

/-- **After any run of insertions the nodes are well built**, there are no more of them than keys
were needed, no insertion meets a number without a node of the right kind, and the tree below a node
is found by a recursion over its entries that ends. -/
theorem ofRecords_wellBuilt (records : List Record) :
    WellBuilt (ofRecords records) ∧
      (ofRecords records).nodes.size
        ≤ 1 + (records.map fun record => record.segments.length + 1).sum ∧
      (∀ record, (ofRecords records).insert? record = some ((ofRecords records).insert record)) ∧
      (WellFounded fun child parent : NodeId =>
        ∃ key, (key, child) ∈ (ofRecords records).entries parent) ∧
      (∀ id record, (ofRecords records).node? id = some (.cls record) →
        (ofRecords records).subtree id = .cls record) ∧
      (∀ id es, (ofRecords records).node? id = some (.package es) →
        (ofRecords records).subtree id
          = .package (es.map fun entry => (entry.1, (ofRecords records).subtree entry.2))) ∧
      (ofRecords records).tree = (ofRecords records).subtree root := by
  have h := valid_ofRecords records
  exact ⟨h.wellBuilt, size_insertAll_le records empty, insert?_eq_some h.sound,
    wellFounded_entries h.sound, fun _ _ => subtree_cls, fun _ _ => subtree_package h.sound,
    tree_eq_subtree _⟩

end PackageAtlas.Namespace
