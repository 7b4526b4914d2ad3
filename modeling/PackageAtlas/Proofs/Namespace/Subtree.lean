import PackageAtlas.Proofs.Namespace.Arena
import PackageAtlas.Proofs.Tree.Displacement

set_option autoImplicit false

/-! # From numbered nodes to trees

`Namespace.subtree` is the tree below a node. In a sound namespace it follows the entries of the
node without any bound on the depth (`subtree_package`), its descents are those of the namespace
(`at?_subtree`), and an insertion is a graft: `subtree_insertFrom` is the simulation, by induction
on the segments still to go, and `tree_insert` its outcome at the root. -/

namespace PackageAtlas.Namespace

open PackageAtlas.Tree

/-- The tree below the node `id`. -/
def subtree (ns : Namespace) (id : NodeId) : Tree :=
  ns.treeAt ns.nodes.size id

theorem tree_eq_subtree (ns : Namespace) : ns.tree = ns.subtree root :=
  rfl

variable {ns : Namespace} {home : NodeId}

/-! ## Trees by recursion over the nodes -/

/-- A depth that reaches the last node is as good as any other. -/
theorem treeAt_eq_treeAt (h : SoundUpTo ns home) (depth : Nat) : ∀ (depth' id : Nat),
    id < ns.nodes.size → ns.nodes.size ≤ id + depth → ns.nodes.size ≤ id + depth' →
    ns.treeAt depth id = ns.treeAt depth' id := by
  induction depth with
  | zero =>
      intro depth' id hid hdepth
      omega
  | succ depth ih =>
      intro depth' id hid hdepth hdepth'
      cases depth' with
      | zero => omega
      | succ depth' =>
          rw [treeAt, treeAt]
          obtain ⟨node, hnode⟩ : ∃ node, ns.node? id = some node := exists_node?_of_lt_size hid
          rw [hnode]
          cases node with
          | cls record => rfl
          | package es =>
              refine congrArg Tree.package (List.map_congr_left fun entry hentry => ?_)
              have hmem : entry ∈ ns.entries id := (entries_of_node? hnode).symm ▸ hentry
              have hlt : id < entry.2 := h.parent_lt_child hmem
              have hsize : entry.2 < ns.nodes.size := h.child_lt_size hmem
              rw [ih depth' entry.2 hsize (by omega) (by omega)]

theorem subtree_cls {id : NodeId} {record : Record} (hid : ns.node? id = some (.cls record)) :
    ns.subtree id = .cls record := by
  obtain ⟨n, hn⟩ := Nat.exists_eq_add_of_lt (lt_size_of_node? hid)
  rw [subtree, hn, treeAt, hid]

/-- The tree of a package holds the trees of its entries. -/
theorem subtree_package (h : SoundUpTo ns home) {id : Nat} {es : Table Text NodeId}
    (hid : ns.node? id = some (.package es)) :
    ns.subtree id = .package (es.map fun entry => (entry.1, ns.subtree entry.2)) := by
  obtain ⟨n, hn⟩ := Nat.exists_eq_add_of_lt (lt_size_of_node? hid)
  have hstep : ns.subtree id = .package (es.map fun entry =>
      (entry.1, ns.treeAt (id + n) entry.2)) := by
    rw [subtree, hn, treeAt, hid]
  rw [hstep]
  refine congrArg Tree.package (List.map_congr_left fun entry hentry => ?_)
  have hmem : entry ∈ ns.entries id := (entries_of_node? hid).symm ▸ hentry
  have hlt : id < entry.2 := h.parent_lt_child hmem
  have hsize : entry.2 < ns.nodes.size := h.child_lt_size hmem
  have hdepth : ns.nodes.size ≤ entry.2 + (id + n) := by omega
  rw [subtree, treeAt_eq_treeAt h (id + n) ns.nodes.size entry.2 hsize hdepth
    (Nat.le_add_left _ _)]

theorem entries_subtree (h : SoundUpTo ns home) {id : NodeId} (hid : id < ns.nodes.size) :
    (ns.subtree id).entries
      = (ns.entries id).map fun entry => (entry.1, ns.subtree entry.2) := by
  obtain ⟨node, hnode⟩ := exists_node?_of_lt_size hid
  cases node with
  | cls record =>
      have hes : ns.entries id = [] := by simp only [entries, hnode]
      rw [subtree_cls hnode, hes]
      rfl
  | package es => rw [subtree_package h hnode, entries_of_node? hnode, Tree.entries]

theorem get?_entries_subtree (h : SoundUpTo ns home) {id : NodeId} (hid : id < ns.nodes.size)
    (key : Text) :
    Table.get? key (ns.subtree id).entries = (ns.child? id key).map ns.subtree := by
  rw [entries_subtree h hid, Table.get?_map, child?]

/-- **Descending in a tree is following a path in the namespace.** -/
theorem at?_subtree (h : SoundUpTo ns home) (path : List Text) :
    ∀ {id : NodeId}, id < ns.nodes.size →
      at? path (ns.subtree id) = (ns.follow id path).map ns.subtree := by
  induction path with
  | nil => exact fun _ => rfl
  | cons key rest ih =>
      intro id hid
      rw [at?, follow, get?_entries_subtree h hid]
      cases hchild : ns.child? id key with
      | none => rfl
      | some child => exact ih (h.child_lt_size (h.child?_eq_some_iff.1 hchild))

/-- The tree below a node depends only on the nodes that paths from it lead to. -/
theorem subtree_congr {ns' : Namespace} {home' : NodeId} (h : SoundUpTo ns home)
    (h' : SoundUpTo ns' home') (bound : Nat) : ∀ (id : Nat), id < ns.nodes.size →
    ns.nodes.size ≤ id + bound →
    (∀ path found, ns.follow id path = some found → ns'.node? found = ns.node? found) →
    ns'.subtree id = ns.subtree id := by
  -- entries have greater numbers, so fewer are left above them
  induction bound with
  | zero =>
      intro id hid hbound
      omega
  | succ bound ih =>
      intro id hid hbound hsame
      obtain ⟨node, hnode⟩ : ∃ node, ns.node? id = some node := exists_node?_of_lt_size hid
      have hnode' : ns'.node? id = some node := (hsame [] id rfl).trans hnode
      cases node with
      | cls record => rw [subtree_cls hnode, subtree_cls hnode']
      | package es =>
          rw [subtree_package h hnode, subtree_package h' hnode']
          refine congrArg Tree.package (List.map_congr_left fun entry hentry => ?_)
          have hmem : entry ∈ ns.entries id := (entries_of_node? hnode).symm ▸ hentry
          have hlt : (id : Nat) < entry.2 := h.parent_lt_child hmem
          have hsize : (entry.2 : Nat) < ns.nodes.size := h.child_lt_size hmem
          rw [ih entry.2 hsize (by omega) fun path found hfollow =>
            hsame (entry.1 :: path) found
              ((follow_cons_eq_some_iff h).2 ⟨entry.2, hmem, hfollow⟩)]

/-! ## An insertion is a graft -/

/-- The trees of the entries of `home` stay if no node but `home` and new ones change. -/
theorem subtree_entry_eq {ns' : Namespace} {home' : NodeId} (h : SoundUpTo ns home)
    (h' : SoundUpTo ns' home')
    (hsame : ∀ {id : NodeId}, id < ns.nodes.size → id ≠ home → ns'.node? id = ns.node? id)
    {entry : Text × NodeId} (hmem : entry ∈ ns.entries home) :
    ns'.subtree entry.2 = ns.subtree entry.2 := by
  have hsize := h.child_lt_size hmem
  refine subtree_congr h h' ns.nodes.size entry.2 hsize (Nat.le_add_left _ _) ?_
  intro path found hfollow
  have hlt : home < found := Nat.lt_of_lt_of_le (h.parent_lt_child hmem) (le_of_follow h hfollow)
  exact hsame (lt_size_of_follow h hsize hfollow) (Nat.ne_of_gt hlt)

/-- A new node under `key` is put among the trees of the entries. -/
theorem subtree_of_put {ns' : Namespace} {home' : NodeId} (h : SoundUpTo ns home)
    (h' : SoundUpTo ns' home') {key : Text}
    (hhome : ns'.node? home = some (.package (Table.put key ns.nodes.size (ns.entries home))))
    (hsame : ∀ {id : NodeId}, id < ns.nodes.size → id ≠ home → ns'.node? id = ns.node? id) :
    ns'.subtree home
      = .package (Table.put key (ns'.subtree ns.nodes.size) (ns.subtree home).entries) := by
  rw [subtree_package h' hhome, Table.map_put, entries_subtree h h.home_lt_size]
  refine congrArg (fun es => Tree.package (Table.put key _ es)) ?_
  exact List.map_congr_left fun entry hmem =>
    congrArg (Prod.mk entry.1) (subtree_entry_eq h h' hsame hmem)

theorem entriesAt_subtree (h : SoundUpTo ns home) {key : Text} {id : NodeId}
    (hmem : (key, id) ∈ ns.entries home) :
    entriesAt key (ns.subtree home).entries = (ns.subtree id).entries := by
  rw [entriesAt, get?_entries_subtree h h.home_lt_size, h.child?_eq_some_iff.2 hmem]
  rfl

/-- The subtrees of two entries have no node in common, so one stays while the other is filled. -/
theorem subtree_sibling_eq (h : SoundUpTo ns home) {segments : List Text} (record : Record)
    (hdot : ∀ segment ∈ segments, '.' ∉ segment) {key : Text} {id : NodeId} {es : Table Text NodeId}
    (hmem : (key, id) ∈ ns.entries home) (hid : ns.node? id = some (.package es))
    {entry : Text × NodeId} (hentry : entry ∈ ns.entries home) (hne : entry.1 ≠ key) :
    (ns.insertFrom id segments record).1.subtree entry.2 = ns.subtree entry.2 := by
  have hdesc := h.descend hmem hid
  have hsize := h.child_lt_size hentry
  refine subtree_congr h (hdesc.insertFrom record hdot) ns.nodes.size entry.2 hsize
    (Nat.le_add_left _ _) fun path found hfollow => ?_
  refine (node?_insertFrom segments record hdesc hdot
    (lt_size_of_follow h hsize hfollow)).resolve_right ?_
  rintro ⟨path', -, hfollow'⟩
  have hleft : ns.follow home (entry.1 :: path) = some found :=
    (follow_cons_eq_some_iff h).2 ⟨entry.2, hentry, hfollow⟩
  have hright : ns.follow home (key :: path') = some found :=
    (follow_cons_eq_some_iff h).2 ⟨id, hmem, hfollow'⟩
  exact hne (List.cons.inj (follow_injective h hleft hright)).1

/-- **The simulation**: an insertion from `home` on grafts the record into the tree of `home`. -/
theorem subtree_insertFrom (segments : List Text) (record : Record) :
    ∀ {ns : Namespace} {home : NodeId}, SoundUpTo ns home →
      (∀ segment ∈ segments, '.' ∉ segment) →
      (ns.insertFrom home segments record).1.subtree home
        = .package (graft segments record.className (.cls record) (ns.subtree home).entries) := by
  induction segments with
  | nil =>
      intro ns home h _
      have hlt := h.home_lt_size
      rw [insertFrom_nil, subtree_of_put h (h.attach_cls record)
        (node?_attach_parent ns home _ _ hlt) (node?_attach_of_lt ns home _ _ hlt),
        subtree_cls (node?_attach_new ns home _ _ hlt), graft]
  | cons segment rest ih =>
      intro ns home h hdot
      have hlt := h.home_lt_size
      obtain ⟨hsegment, hrest⟩ := List.forall_mem_cons.1 hdot
      -- a package made on the way begins empty
      have hnew : entriesAt segment (ns.subtree home).entries = [] →
          ((ns.attach home segment (.package [])).insertFrom ns.nodes.size rest
            record).1.subtree home = .package (graft (segment :: rest) record.className
              (.cls record) (ns.subtree home).entries) := by
        intro hempty
        have hsound := h.attach_package hsegment
        have hhome := (node?_insertFrom_of_lt record hsound hrest hlt).trans
          (node?_attach_parent ns home segment _ hlt)
        rw [subtree_of_put h (hsound.insertFrom record hrest) hhome fun hid hne =>
            (node?_insertFrom_of_lt record hsound hrest hid).trans
              (node?_attach_of_lt ns home _ _ hlt hid hne),
          ih hsound hrest, subtree_package hsound (node?_attach_new ns home segment _ hlt),
          graft, hempty]
        rfl
      rcases h.openPackage_cases record.package segment with
        ⟨id, es, hmem, hid, hstep⟩ | ⟨hnone, hstep⟩ | ⟨id, old, hmem, hid, hstep⟩
      · -- nothing is put into `home`, but the tree of one of its entries grows
        rw [insertFrom_cons hstep]
        have hdesc := h.descend hmem hid
        have hhome := (node?_insertFrom_of_lt record hdesc hrest (h.parent_lt_child hmem)).trans
          (node?_of_mem_entries hmem)
        rw [subtree_package (hdesc.insertFrom record hrest) hhome,
          Table.map_eq_put ns.subtree _ (h.sorted home) hmem fun entry hentry hne =>
            subtree_sibling_eq h record hrest hmem hid hentry hne,
          ih hdesc hrest, graft, entriesAt_subtree h hmem, entries_subtree h hlt]
      · rw [insertFrom_cons hstep]
        refine hnew ?_
        rw [entriesAt, get?_entries_subtree h hlt, hnone]
        rfl
      · rw [insertFrom_cons hstep]
        refine hnew ?_
        rw [entriesAt_subtree h hmem, subtree_cls hid]
        rfl

/-- The warnings of an insertion can be read off the tree. -/
theorem warnings_insertFrom (segments : List Text) (record : Record) :
    ∀ {ns : Namespace} {home : NodeId}, SoundUpTo ns home →
      (∀ segment ∈ segments, '.' ∉ segment) →
      (ns.insertFrom home segments record).2
        = Tree.warnings record.package segments record.className (ns.subtree home).entries := by
  induction segments with
  | nil =>
      intro ns home h _
      rw [insertFrom_nil, Tree.warnings, get?_entries_subtree h h.home_lt_size, displacedAt]
      cases hchild : ns.child? home record.className with
      | none => rfl
      | some id =>
          obtain ⟨node, hnode⟩ :=
            exists_node?_of_lt_size (h.child_lt_size (h.child?_eq_some_iff.1 hchild))
          rw [Option.bind_some, hnode, Option.map_some]
          cases node with
          | cls old => rw [subtree_cls hnode]
          | package es => rw [subtree_package h hnode]
  | cons segment rest ih =>
      intro ns home h hdot
      have hlt := h.home_lt_size
      obtain ⟨hsegment, hrest⟩ := List.forall_mem_cons.1 hdot
      -- nothing is in the way below a package that was just made
      have hnew : ((ns.attach home segment (.package [])).insertFrom ns.nodes.size rest
          record).2 = [] := by
        have hsound := h.attach_package hsegment
        rw [ih hsound hrest, subtree_package hsound (node?_attach_new ns home segment _ hlt)]
        exact warnings_of_empty _ _ _
      rw [Tree.warnings, get?_entries_subtree h hlt]
      rcases h.openPackage_cases record.package segment with
        ⟨id, es, hmem, hid, hstep⟩ | ⟨hnone, hstep⟩ | ⟨id, old, hmem, hid, hstep⟩
      · rw [insertFrom_cons hstep, h.child?_eq_some_iff.2 hmem, ih (h.descend hmem hid) hrest,
          Option.map_some, subtree_package h hid]
        rfl
      · rw [insertFrom_cons hstep, hnone, hnew]
        rfl
      · rw [insertFrom_cons hstep, h.child?_eq_some_iff.2 hmem, hnew, Option.map_some,
          subtree_cls hid]
        rfl

/-! ## Whole insertions -/

theorem tree_insert (h : SoundUpTo ns root) (record : Record) :
    (ns.insert record).1.tree = .package
      (graft record.segments record.className (.cls record) ns.tree.entries) := by
  rw [tree_eq_subtree, tree_eq_subtree, insert_eq_insertFrom]
  exact subtree_insertFrom record.segments record h record.dot_not_mem_segment

theorem warnings_insert (h : SoundUpTo ns root) (record : Record) :
    (ns.insert record).2
      = Tree.warnings record.package record.segments record.className ns.tree.entries := by
  rw [tree_eq_subtree, insert_eq_insertFrom]
  exact warnings_insertFrom record.segments record h record.dot_not_mem_segment

end PackageAtlas.Namespace
