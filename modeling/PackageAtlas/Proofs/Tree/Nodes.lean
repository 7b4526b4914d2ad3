import PackageAtlas.Proofs.Tree.Bindings

set_option autoImplicit false

/-! # The nodes of a tree

`Tree.nodes` lists the nodes of a tree, packages and classes alike, with the keys that lead to them;
a package comes before its entries. In a proper tree these are the ends of all descents
(`mem_nodesOfEntries_iff_at?`), no two of them lie at the same keys (`nodup_paths_of_proper`), and
the classes among them are the bindings (`filter_isClass_nodes`). -/

namespace PackageAtlas.Tree

/-- Whether a tree is a class. -/
def isClass : Tree → Bool
  | .package _ => false
  | .cls _ => true

/-- A node seen from the package one step above, where it lies under `key`. -/
def nodeUnder (key : Text) (node : List Text × Tree) : List Text × Tree :=
  (key :: node.1, node.2)

mutual

/-- The nodes of a tree with the keys that lead to them, in the order of the entries. -/
def nodes : Tree → List (List Text × Tree)
  | .package entries => ([], .package entries) :: nodesOfEntries entries
  | .cls record => [([], .cls record)]

/-- The nodes below a package with the keys that lead to them. -/
def nodesOfEntries : List (Text × Tree) → List (List Text × Tree)
  | [] => []
  | (key, tree) :: rest => tree.nodes.map (nodeUnder key) ++ nodesOfEntries rest

end

@[simp] theorem nodesOfEntries_nil : nodesOfEntries [] = [] := by
  rw [nodesOfEntries]

@[simp] theorem nodesOfEntries_cons (key : Text) (tree : Tree) (rest : List (Text × Tree)) :
    nodesOfEntries ((key, tree) :: rest)
      = tree.nodes.map (nodeUnder key) ++ nodesOfEntries rest := by
  rw [nodesOfEntries]

@[simp] theorem nodes_package (entries : List (Text × Tree)) :
    (Tree.package entries).nodes = ([], .package entries) :: nodesOfEntries entries := by
  rw [nodes]

@[simp] theorem nodes_cls (record : Record) : (Tree.cls record).nodes = [([], .cls record)] := by
  rw [nodes]

/-! ## Nodes and descents -/

theorem mem_nodesOfEntries (node : List Text × Tree) (entries : List (Text × Tree)) :
    node ∈ nodesOfEntries entries ↔
      ∃ entry ∈ entries, ∃ inner ∈ entry.2.nodes, node = nodeUnder entry.1 inner := by
  induction entries with
  | nil => simp
  | cons entry rest ih =>
      obtain ⟨key, tree⟩ := entry
      simp only [nodesOfEntries_cons, List.mem_append, List.mem_map, ih, List.mem_cons,
        exists_eq_or_imp, eq_comm (a := node)]

theorem mem_nodesOfEntries_of_sorted {entries : List (Text × Tree)} (hs : Table.Sorted entries)
    (h : ∀ entry ∈ entries, ∀ path inner,
      (path, inner) ∈ entry.2.nodes ↔ at? path entry.2 = some inner)
    (path : List Text) (inner : Tree) : (path, inner) ∈ nodesOfEntries entries ↔
      path ≠ [] ∧ at? path (.package entries) = some inner := by
  rw [mem_nodesOfEntries]
  constructor
  · rintro ⟨⟨key, tree⟩, hentry, ⟨rest, found⟩, hfound, heq⟩
    obtain ⟨rfl, rfl⟩ := Prod.mk.inj heq
    refine ⟨List.cons_ne_nil _ _, ?_⟩
    rw [at?, Tree.entries, (Table.get?_eq_some_iff_mem hs).2 hentry]
    exact (h _ hentry rest inner).1 hfound
  · rintro ⟨hne, hat⟩
    obtain ⟨key, rest, rfl⟩ := List.exists_cons_of_ne_nil hne
    obtain ⟨tree, hget, hrest⟩ := Option.bind_eq_some_iff.1 hat
    have hentry := Table.mem_of_get? hget
    exact ⟨(key, tree), hentry, (rest, inner), (h _ hentry rest inner).2 hrest, rfl⟩

theorem mem_nodes_iff_at? {tree : Tree} (h : tree.Proper) :
    ∀ path inner, (path, inner) ∈ tree.nodes ↔ at? path tree = some inner := by
  induction tree using entry_induction with
  | cls record =>
      intro path inner
      cases path with
      | nil => simp [at?, eq_comm]
      | cons key rest => simp [at?, entries, Table.get?]
  | package entries ih =>
      intro path inner
      obtain ⟨-, hproper⟩ := (proper_package entries).1 h
      have hbelow := mem_nodesOfEntries_of_sorted hproper.sorted
        (fun e he => ih e he (hproper.proper he)) path inner
      rw [nodes_package, List.mem_cons, hbelow]
      cases path with
      | nil => simp [at?, eq_comm]
      | cons key rest => simp

/-- **The nodes below a package are the ends of all descents from it.** -/
theorem mem_nodesOfEntries_iff_at? {entries : List (Text × Tree)} (h : ProperEntries entries)
    (path : List Text) (inner : Tree) : (path, inner) ∈ nodesOfEntries entries ↔
      path ≠ [] ∧ at? path (.package entries) = some inner :=
  mem_nodesOfEntries_of_sorted h.sorted (fun _ he => mem_nodes_iff_at? (h.proper he)) path inner

/-- No package is empty, so from every node a path goes on to a class. -/
theorem exists_binding_of_mem_nodesOfEntries {entries : List (Text × Tree)}
    (h : ProperEntries entries) {node : List Text × Tree} (hnode : node ∈ nodesOfEntries entries) :
    ∃ b ∈ bindingsOfEntries entries, node.1 <+: b.1 := by
  obtain ⟨hne, hat⟩ := (mem_nodesOfEntries_iff_at? h node.1 node.2).1 hnode
  obtain ⟨key, rest, hpath⟩ := List.exists_cons_of_ne_nil hne
  have hproper : ProperEntries (Tree.package entries).entries := h
  have hinner : node.2.Proper := proper_of_at? hproper (hpath ▸ hat)
  obtain ⟨b, hb⟩ := List.exists_mem_of_ne_nil _ (bindings_ne_nil hinner)
  have hmem := mem_bindings_of_at? hat hb
  rw [bindings_package] at hmem
  exact ⟨_, hmem, List.prefix_append node.1 b.1⟩

/-! ## One node at each path -/

theorem nodup_paths_of_sorted {entries : List (Text × Tree)} (hs : Table.Sorted entries)
    (h : ∀ entry ∈ entries, (entry.2.nodes.map Prod.fst).Nodup) :
    ((nodesOfEntries entries).map Prod.fst).Nodup := by
  induction entries with
  | nil => simp
  | cons entry rest ih =>
      obtain ⟨key, tree⟩ := entry
      obtain ⟨hhead, hrest⟩ := List.pairwise_cons.1 hs
      have hfst : Prod.fst ∘ nodeUnder key = (key :: ·) ∘ Prod.fst := rfl
      rw [nodesOfEntries_cons, List.map_append, List.map_map, hfst, ← List.map_map]
      refine List.nodup_append.2 ⟨?_, ih hrest fun e he => h e (List.mem_cons_of_mem _ he), ?_⟩
      · exact (h _ (List.mem_cons_self ..)).map fun _ _ hpq => (List.cons.inj hpq).2
      · intro p hp q hq hpq
        obtain ⟨p', -, rfl⟩ := List.mem_map.1 hp
        obtain ⟨node, hnode, rfl⟩ := List.mem_map.1 hq
        obtain ⟨other, hother, inner, -, rfl⟩ := (mem_nodesOfEntries node rest).1 hnode
        have hkey : key = other.1 := (List.cons.inj hpq).1
        exact List.lt_irrefl key (hkey ▸ hhead other hother)

theorem nodup_paths {tree : Tree} (h : tree.Proper) : (tree.nodes.map Prod.fst).Nodup := by
  induction tree using entry_induction with
  | cls record => simp
  | package entries ih =>
      obtain ⟨-, hproper⟩ := (proper_package entries).1 h
      have hbelow := nodup_paths_of_sorted hproper.sorted fun e he => ih e he (hproper.proper he)
      rw [nodes_package, List.map_cons, List.nodup_cons]
      refine ⟨fun hmem => ?_, hbelow⟩
      obtain ⟨node, hnode, hpath⟩ := List.mem_map.1 hmem
      exact ((mem_nodesOfEntries_iff_at? hproper node.1 node.2).1 hnode).1 hpath

theorem nodup_paths_of_proper {entries : List (Text × Tree)} (h : ProperEntries entries) :
    ((nodesOfEntries entries).map Prod.fst).Nodup :=
  nodup_paths_of_sorted h.sorted fun _ he => nodup_paths (h.proper he)

/-! ## The classes among the nodes -/

theorem filter_isClass_nodesOfEntries_of {entries : List (Text × Tree)}
    (h : ∀ entry ∈ entries, entry.2.nodes.filter (fun node => node.2.isClass)
      = entry.2.bindings.map fun b => (b.1, .cls b.2)) :
    (nodesOfEntries entries).filter (fun node => node.2.isClass)
      = (bindingsOfEntries entries).map fun b => (b.1, .cls b.2) := by
  induction entries with
  | nil => simp
  | cons entry rest ih =>
      obtain ⟨key, tree⟩ := entry
      have hkey : (fun node : List Text × Tree => node.2.isClass) ∘ nodeUnder key
          = fun node => node.2.isClass := rfl
      rw [nodesOfEntries_cons, bindingsOfEntries_cons, List.filter_append, List.map_append,
        ih fun e he => h e (List.mem_cons_of_mem _ he), List.filter_map, hkey,
        h _ (List.mem_cons_self ..), List.map_map, List.map_map]
      rfl

theorem filter_isClass_nodes (tree : Tree) :
    tree.nodes.filter (fun node => node.2.isClass)
      = tree.bindings.map fun b => (b.1, .cls b.2) := by
  induction tree using entry_induction with
  | cls record => simp [isClass]
  | package entries ih =>
      rw [nodes_package, bindings_package, ← filter_isClass_nodesOfEntries_of ih]
      exact List.filter_cons_of_neg (by simp [isClass])

/-- **The classes among the nodes are the bindings.** -/
theorem filter_isClass_nodesOfEntries (entries : List (Text × Tree)) :
    (nodesOfEntries entries).filter (fun node => node.2.isClass)
      = (bindingsOfEntries entries).map fun b => (b.1, .cls b.2) :=
  filter_isClass_nodesOfEntries_of fun entry _ => filter_isClass_nodes entry.2

/-- A binding is a class at the end of its path. -/
theorem at?_of_mem_bindingsOfEntries {entries : List (Text × Tree)} (h : ProperEntries entries)
    {b : List Text × Record} (hb : b ∈ bindingsOfEntries entries) :
    at? b.1 (.package entries) = some (.cls b.2) := by
  have hclass : (b.1, Tree.cls b.2) ∈
      (nodesOfEntries entries).filter fun node => node.2.isClass := by
    rw [filter_isClass_nodesOfEntries]
    exact List.mem_map_of_mem hb
  exact ((mem_nodesOfEntries_iff_at? h ..).1 (List.mem_of_mem_filter hclass)).2

/-! ## How many nodes there are -/

theorem sizeOfEntries_eq_of {entries : List (Text × Tree)}
    (h : ∀ entry ∈ entries, entry.2.size = entry.2.nodes.length) :
    sizeOfEntries entries = (nodesOfEntries entries).length := by
  induction entries with
  | nil => rw [sizeOfEntries, nodesOfEntries_nil, List.length_nil]
  | cons entry rest ih =>
      obtain ⟨key, tree⟩ := entry
      rw [sizeOfEntries, h _ (List.mem_cons_self ..),
        ih fun e he => h e (List.mem_cons_of_mem _ he), nodesOfEntries_cons, List.length_append,
        List.length_map]

theorem size_eq_length_nodes (tree : Tree) : tree.size = tree.nodes.length := by
  induction tree using entry_induction with
  | cls record => rw [size, nodes_cls, List.length_singleton]
  | package entries ih =>
      rw [size, sizeOfEntries_eq_of ih, nodes_package, List.length_cons, Nat.add_comm]

end PackageAtlas.Tree
