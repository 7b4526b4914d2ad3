import PackageAtlas.Proofs.Namespace.Reachable

set_option autoImplicit false

/-! # Numbers that are held while a namespace grows

A number looked up in a namespace can be kept and used after more records were inserted.
`Namespace.Extends` is what every insertion does to the nodes that were there before: it removes
none, leaves the classes alone, and makes none of them the entry of another. So a path that leads to
an old node led there before (`Extends.follow`), a node that no path leads to stays as it is, and
`held_number_persists` says what this means for a number held over any run of insertions. -/

namespace PackageAtlas.Namespace

variable {ns ns' ns'' : Namespace} {home home' : NodeId}

/-- A path leads from the root to the node. -/
def Attached (ns : Namespace) (id : NodeId) : Prop :=
  ∃ path, ns.follow root path = some id

/-! ## What every insertion does to old nodes -/

/-- `ns'` has all nodes of `ns` under their numbers, and no entry that leads to one of them but the
entries it had in `ns`. -/
structure Extends (ns ns' : Namespace) : Prop where
  /-- Numbers in use stay in use. -/
  size_le : ns.nodes.size ≤ ns'.nodes.size
  /-- Classes stay as they are. -/
  class_stays : ∀ {id record}, ns.node? id = some (.cls record) →
    ns'.node? id = some (.cls record)
  /-- An old node is an entry only where it was one. -/
  old_entry : ∀ {parent key child}, (key, child) ∈ ns'.entries parent → child < ns.nodes.size →
    (key, child) ∈ ns.entries parent

theorem Extends.refl (ns : Namespace) : Extends ns ns where
  size_le := Nat.le_refl _
  class_stays := fun h => h
  old_entry := fun h _ => h

theorem Extends.trans (h : Extends ns ns') (h' : Extends ns' ns'') : Extends ns ns'' where
  size_le := Nat.le_trans h.size_le h'.size_le
  class_stays := fun hid => h'.class_stays (h.class_stays hid)
  old_entry := fun hmem hlt =>
    h.old_entry (h'.old_entry hmem (Nat.lt_of_lt_of_le hlt h.size_le)) hlt

theorem SoundUpTo.extends_attach (h : SoundUpTo ns home) (key : Text) {node : Node}
    (hnode : ∀ es, node = .package es → es = []) : Extends ns (ns.attach home key node) where
  size_le := by
    rw [size_attach]
    exact Nat.le_succ _
  class_stays := by
    intro id record hid
    -- only `home` is written, and it is a package
    have hne : id ≠ home := by
      rintro rfl
      obtain ⟨es, hes⟩ := h.home_package
      rw [hes] at hid
      cases hid
    rw [node?_attach_of_lt ns home key node h.home_lt_size (lt_size_of_node? hid) hne, hid]
  old_entry := by
    intro parent k child hmem hlt
    rcases mem_entries_attach h hnode hmem with ⟨-, -, rfl⟩ | hold
    · exact absurd hlt (Nat.lt_irrefl _)
    · exact hold

theorem SoundUpTo.extends_openPackage (h : SoundUpTo ns home) (package segment : Text) :
    Extends ns (ns.openPackage package home segment).1 := by
  have hempty : ∀ es, Node.package [] = .package es → es = [] :=
    fun _ he => (Node.package.inj he).symm
  rcases h.openPackage_cases package segment with
    ⟨id, es, -, -, hstep⟩ | ⟨-, hstep⟩ | ⟨id, old, -, -, hstep⟩
  · rw [hstep]
    exact Extends.refl ns
  · rw [hstep]
    exact h.extends_attach segment hempty
  · rw [hstep]
    exact h.extends_attach segment hempty

theorem SoundUpTo.extends_insertFrom {segments : List Text} (record : Record)
    (hdot : ∀ segment ∈ segments, '.' ∉ segment) :
    ∀ {ns : Namespace} {home : NodeId}, SoundUpTo ns home →
      Extends ns (ns.insertFrom home segments record).1 := by
  induction segments with
  | nil =>
      intro ns home h
      rw [insertFrom_nil]
      exact h.extends_attach record.className nofun
  | cons segment rest ih =>
      intro ns home h
      obtain ⟨hsegment, hrest⟩ := List.forall_mem_cons.1 hdot
      rw [insertFrom_cons rfl]
      exact (h.extends_openPackage record.package segment).trans
        (ih hrest (h.openPackage record.package hsegment))

theorem SoundUpTo.extends_insert (h : SoundUpTo ns root) (record : Record) :
    Extends ns (ns.insert record).1 := by
  rw [insert_eq_insertFrom]
  exact h.extends_insertFrom record record.dot_not_mem_segment

theorem SoundUpTo.insertAll (records : List Record) :
    ∀ {ns : Namespace}, SoundUpTo ns root → SoundUpTo (insertAll records ns).1 root := by
  induction records with
  | nil => exact fun h => h
  | cons record rest ih => exact fun h => ih (h.insert record)

theorem SoundUpTo.extends_insertAll (records : List Record) :
    ∀ {ns : Namespace}, SoundUpTo ns root → Extends ns (Namespace.insertAll records ns).1 := by
  induction records with
  | nil => exact fun _ => Extends.refl _
  | cons record rest ih => exact fun h => (h.extends_insert record).trans (ih (h.insert record))

/-! ## Paths to old nodes -/

/-- **A path to an old node is an old path.** -/
theorem Extends.follow (hext : Extends ns ns') (h : SoundUpTo ns home) (h' : SoundUpTo ns' home')
    (path : List Text) : ∀ {id found : NodeId}, found < ns.nodes.size →
      ns'.follow id path = some found → ns.follow id path = some found := by
  induction path with
  | nil => exact fun _ hfollow => hfollow
  | cons key rest ih =>
      intro id found hfound hfollow
      obtain ⟨child, hmem, hrest⟩ := (follow_cons_eq_some_iff h').1 hfollow
      -- numbers grow along a path, so the next node on it is old too
      have hchild : child < ns.nodes.size := Nat.lt_of_le_of_lt (le_of_follow h' hrest) hfound
      exact (follow_cons_eq_some_iff h).2 ⟨child, hext.old_entry hmem hchild, ih hfound hrest⟩

theorem Extends.attached (hext : Extends ns ns') (h : SoundUpTo ns home)
    (h' : SoundUpTo ns' home') {id : NodeId} (hid : id < ns.nodes.size) (hat : ns'.Attached id) :
    ns.Attached id := by
  obtain ⟨path, hfollow⟩ := hat
  exact ⟨path, hext.follow h h' path hid hfollow⟩

/-! ## Nodes that no path leads to -/

/-- Below a node that no path leads to there are only such nodes. -/
theorem not_attached_of_follow (h : SoundUpTo ns home) {id : NodeId} (hid : ¬ ns.Attached id) :
    ∀ {path : List Text} {found : NodeId}, ns.follow id path = some found →
      ¬ ns.Attached found := by
  intro path
  induction path using List.reverseRecOn with
  | nil =>
      intro found hfollow
      exact Option.some.inj hfollow ▸ hid
  | append_singleton path key ih =>
      intro found hfollow
      obtain ⟨mid, hmid, hmem⟩ := (follow_concat_eq_some_iff h).1 hfollow
      rintro ⟨other, hother⟩
      rcases List.eq_nil_or_concat' other with rfl | ⟨other, key', rfl⟩
      · -- the root is nobody's entry
        obtain rfl : root = found := Option.some.inj hother
        exact Nat.not_lt_zero _ (h.parent_lt_child hmem)
      · -- the last step to a node can only come from its own package
        obtain ⟨mid', hmid', hmem'⟩ := (follow_concat_eq_some_iff h).1 hother
        obtain ⟨rfl, -⟩ := h.entry_unique hmem hmem'
        exact ih hmid ⟨other, hmid'⟩

theorem node?_insert_of_not_attached (h : SoundUpTo ns root) (record : Record) {id : NodeId}
    (hid : id < ns.nodes.size) (hat : ¬ ns.Attached id) :
    (ns.insert record).1.node? id = ns.node? id := by
  rw [insert_eq_insertFrom]
  refine (node?_insertFrom _ record h record.dot_not_mem_segment hid).resolve_right ?_
  rintro ⟨path, -, hfollow⟩
  exact hat ⟨path, hfollow⟩

/-- **No run of insertions touches a node that no path leads to.** -/
theorem node?_insertAll_of_not_attached (records : List Record) :
    ∀ {ns : Namespace}, SoundUpTo ns root → ∀ {id : NodeId}, id < ns.nodes.size →
      ¬ ns.Attached id → (insertAll records ns).1.node? id = ns.node? id := by
  induction records with
  | nil => exact fun _ _ _ _ => rfl
  | cons record rest ih =>
      intro ns h id hid hat
      have hext := h.extends_insert record
      have h' := h.insert record
      have hat' : ¬ (ns.insert record).1.Attached id := fun hnew =>
        hat (hext.attached h h' hid hnew)
      rw [insertAll, ih h' (Nat.lt_of_lt_of_le hid hext.size_le) hat',
        node?_insert_of_not_attached h record hid hat]

/-- Nor is the tree below it touched. -/
theorem subtree_insertAll_of_not_attached (records : List Record) (h : SoundUpTo ns root)
    {id : NodeId} (hid : id < ns.nodes.size) (hat : ¬ ns.Attached id) :
    (insertAll records ns).1.subtree id = ns.subtree id :=
  subtree_congr h (h.insertAll records) ns.nodes.size id hid (Nat.le_add_left _ _)
    fun _ _ hfollow => node?_insertAll_of_not_attached records h
      (lt_size_of_follow h hid hfollow) (not_attached_of_follow h hat hfollow)

/-! ## What one insertion writes -/

/-- **An insertion writes only packages that its record runs through.** -/
theorem of_node?_insert_ne (h : SoundUpTo ns root) {record : Record} {id : NodeId}
    (hid : id < ns.nodes.size) (hne : (ns.insert record).1.node? id ≠ ns.node? id) :
    (∃ es, ns.node? id = some (.package es)) ∧
      ∃ path, path <+: record.segments ∧ ns.follow root path = some id := by
  obtain ⟨node, hnode⟩ := exists_node?_of_lt_size hid
  constructor
  · cases node with
    | package es => exact ⟨es, hnode⟩
    | cls old => exact absurd ((h.extends_insert record).class_stays hnode) (hnode ▸ hne)
  · rw [insert_eq_insertFrom] at hne
    exact (node?_insertFrom _ record h record.dot_not_mem_segment hid).resolve_left hne

/-! ## Numbers held over a run -/

/-- **A held number keeps its meaning.** Take any number in use in a namespace of records, and
insert any further records. The number is still in use, and names the same class if it named one.
If no path led to its node, neither the node nor anything below it has changed, and there is still
no path to any of these. If a path leads to it now, the same path led to it before. And one
insertion changes its node only if this is a package on the way of the new record's own package. -/
theorem held_number_persists (records further : List Record) {id : NodeId}
    (hid : id < (ofRecords records).nodes.size) :
    let ns := ofRecords records
    let later := (insertAll further ns).1
    id < later.nodes.size ∧
      (∀ record, ns.node? id = some (.cls record) → later.node? id = some (.cls record)) ∧
      (¬ ns.Attached id → later.node? id = ns.node? id ∧ ¬ later.Attached id ∧
        later.subtree id = ns.subtree id ∧
        ∀ path found, ns.follow id path = some found →
          later.node? found = ns.node? found ∧ ¬ later.Attached found) ∧
      (∀ path, later.follow root path = some id → ns.follow root path = some id) ∧
      ∀ record, (ns.insert record).1.node? id ≠ ns.node? id →
        (∃ es, ns.node? id = some (.package es)) ∧
          ∃ path, path <+: record.segments ∧ ns.follow root path = some id := by
  intro ns later
  have h : SoundUpTo ns root := (valid_ofRecords records).sound
  have h' : SoundUpTo later root := h.insertAll further
  have hext : Extends ns later := h.extends_insertAll further
  refine ⟨Nat.lt_of_lt_of_le hid hext.size_le, fun record => hext.class_stays, fun hat => ?_,
    fun path => hext.follow h h' path hid, fun record => of_node?_insert_ne h hid⟩
  refine ⟨node?_insertAll_of_not_attached further h hid hat, fun hnew => hat ?_,
    subtree_insertAll_of_not_attached further h hid hat, fun path found hfollow => ?_⟩
  · exact hext.attached h h' hid hnew
  · have hfound := lt_size_of_follow h hid hfollow
    have hbelow := not_attached_of_follow h hat hfollow
    exact ⟨node?_insertAll_of_not_attached further h hfound hbelow,
      fun hnew => hbelow (hext.attached h h' hfound hnew)⟩

/-- The package `a.b`, displaced by the class `a.b`, keeps its number and its class while another
package `a.b` takes that place. -/
theorem held_number_persists_displaced :
    let ns := ofRecords [⟨"a.b".toList, "C".toList, []⟩, ⟨"a".toList, "b".toList, []⟩]
    let later := (insertAll [⟨"a.b".toList, "D".toList, []⟩] ns).1
    2 < ns.nodes.size ∧ ¬ ns.Attached 2 ∧ ¬ later.Attached 2 ∧
      later.node? 2 = some (.package [("C".toList, 3)]) ∧ later.lookup "a.b".toList = some 5 := by
  intro ns later
  have hid : 2 < ns.nodes.size := by decide
  have hat : ¬ ns.Attached 2 := by
    rintro ⟨path, hfollow⟩
    rcases List.eq_nil_or_concat' path with rfl | ⟨path, key, rfl⟩
    · cases hfollow
    · have h : SoundUpTo ns root := (valid_ofRecords _).sound
      obtain ⟨mid, -, hmem⟩ := (follow_concat_eq_some_iff h).1 hfollow
      have hnone : ∀ parent < 2, ∀ entry ∈ ns.entries parent, entry.2 ≠ 2 := by decide
      exact hnone mid (h.parent_lt_child hmem) _ hmem rfl
  obtain ⟨-, -, hdetached, -, -⟩ :=
    held_number_persists [⟨"a.b".toList, "C".toList, []⟩, ⟨"a".toList, "b".toList, []⟩]
      [⟨"a.b".toList, "D".toList, []⟩] hid
  obtain ⟨hnode, hlater, -, -⟩ := hdetached hat
  exact ⟨hid, hat, hlater, hnode.trans (by decide), by decide⟩

end PackageAtlas.Namespace
