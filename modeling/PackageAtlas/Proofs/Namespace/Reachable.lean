import PackageAtlas.Proofs.Namespace.Subtree

set_option autoImplicit false

/-! # Namespaces that insertions lead to

`Namespace.Valid` is the invariant of whole insertions: the nodes are sound, the tree is proper, and
every class hangs at its own path. It holds of the empty namespace and is kept by `insert`, so it
holds of every namespace of records (`valid_ofRecords`). -/

namespace PackageAtlas.Namespace

open PackageAtlas.Tree

/-- What holds of a namespace between two insertions. -/
structure Valid (ns : Namespace) : Prop where
  /-- No package but the root may be empty. -/
  sound : SoundUpTo ns root
  /-- The tree has its entries in order and no empty package. -/
  proper : ProperEntries ns.tree.entries
  /-- The keys that lead to a class are the path of its record. -/
  located : ∀ b ∈ ns.tree.bindings, b.1 = b.2.path

variable {ns : Namespace}

theorem tree_eq_package (h : SoundUpTo ns root) : ns.tree = .package ns.tree.entries := by
  obtain ⟨es, hes⟩ := h.root_package
  rw [tree_eq_subtree, subtree_package h hes, Tree.entries]

theorem bindings_tree (h : SoundUpTo ns root) :
    ns.tree.bindings = bindingsOfEntries ns.tree.entries := by
  rw [tree_eq_package h, bindings_package, Tree.entries]

theorem leaves_eq_bindings (ns : Namespace) : ns.leaves = ns.tree.bindings.map Prod.snd :=
  leaves_eq ns.tree

/-! ## One insertion -/

/-- The bindings after an insertion: the new one, and those whose paths are not comparable. -/
theorem Valid.mem_bindings_insert (h : Valid ns) (record : Record) (b : List Text × Record) :
    b ∈ (ns.insert record).1.tree.bindings ↔
      b = (record.path, record) ∨ b ∈ ns.tree.bindings ∧ ¬ Comparable b.1 record.path := by
  rw [tree_insert h.sound, bindings_package, bindings_tree h.sound]
  exact mem_bindings_graft record.segments record.className record b h.proper

theorem Valid.insert (h : Valid ns) (record : Record) : Valid (ns.insert record).1 where
  sound := h.sound.insert record
  proper := by
    rw [tree_insert h.sound, Tree.entries]
    exact h.proper.graft (proper_cls record) _ _
  located := by
    intro b hb
    rcases (h.mem_bindings_insert record b).1 hb with rfl | ⟨hold, -⟩
    · rfl
    · exact h.located b hold

theorem tree_empty : empty.tree = .package [] := by
  have hroot : empty.node? root = some (.package []) := rfl
  rw [tree_eq_subtree, subtree_package soundUpTo_empty hroot, List.map_nil]

theorem valid_empty : Valid empty where
  sound := soundUpTo_empty
  proper := by
    rw [tree_empty, Tree.entries]
    exact (properEntries_iff []).2 ⟨List.Pairwise.nil, by simp⟩
  located := by simp [tree_empty]

/-! ## Runs of insertions -/

theorem Valid.insertAll (records : List Record) :
    ∀ {ns : Namespace}, Valid ns → Valid (insertAll records ns).1 := by
  induction records with
  | nil => exact fun h => h
  | cons record rest ih => exact fun h => ih (h.insert record)

/-- **Every namespace of records is valid.** -/
theorem valid_ofRecords (records : List Record) : Valid (ofRecords records) :=
  valid_empty.insertAll records

theorem insertAll_append (records more : List Record) :
    ∀ ns : Namespace, (insertAll (records ++ more) ns).1
      = (insertAll more (insertAll records ns).1).1 := by
  induction records with
  | nil => exact fun _ => rfl
  | cons record rest ih => exact fun ns => ih _

theorem ofRecords_append (records more : List Record) :
    ofRecords (records ++ more) = (insertAll more (ofRecords records)).1 :=
  insertAll_append records more empty

/-! ## The classes of a valid namespace -/

theorem Valid.mem_leaves_iff (h : Valid ns) (record : Record) :
    record ∈ ns.leaves ↔ (record.path, record) ∈ ns.tree.bindings := by
  rw [leaves_eq_bindings, List.mem_map]
  constructor
  · rintro ⟨b, hb, rfl⟩
    rwa [← h.located b hb]
  · exact fun hmem => ⟨_, hmem, rfl⟩

/-- The classes come in the order of their paths, and no two paths are comparable. -/
theorem Valid.leaves_strict (h : Valid ns) :
    ns.leaves.Pairwise fun a b => a.path < b.path ∧ ¬ Comparable a.path b.path := by
  have hstrict := h.proper.strict
  rw [← bindings_tree h.sound] at hstrict
  rw [leaves_eq_bindings, List.pairwise_map]
  refine hstrict.imp_of_mem fun {a b} ha hb hab => ?_
  rw [← h.located a ha, ← h.located b hb]
  exact hab

theorem Valid.leaves_nodup (h : Valid ns) : ns.leaves.Nodup := by
  refine h.leaves_strict.imp fun {a b} hab he => ?_
  subst he
  exact hab.2 (comparable_self a.path)

end PackageAtlas.Namespace
