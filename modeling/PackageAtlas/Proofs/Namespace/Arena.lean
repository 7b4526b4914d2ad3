import Mathlib.Data.List.Induction
import PackageAtlas.Namespace
import PackageAtlas.Proofs.RecordPath
import PackageAtlas.Proofs.Table

set_option autoImplicit false

/-! # The numbered nodes of a namespace

`Namespace.SoundUpTo ns home` is what holds of the nodes of a namespace while the package `home` is
being filled: it alone, and the root, may be empty. Every change that an insertion makes is one
`attach`, and `SoundUpTo.attach` says that it keeps the invariant. `Namespace.insertFrom` is an
insertion seen from any package on its way, which is what the inductions go over. -/

namespace PackageAtlas

/-- Whether `node` may stand under `key`: a class under its name, a package under a segment. -/
def Node.Fits (key : Text) : Node → Prop
  | .package _ => '.' ∉ key
  | .cls record => key = record.className

namespace Namespace

/-! ## Reading nodes -/

theorem lt_size_of_node? {ns : Namespace} {id : NodeId} {node : Node}
    (h : ns.node? id = some node) : id < ns.nodes.size := by
  unfold node? at h
  exact (Array.getElem?_eq_some_iff.1 h).1

theorem exists_node?_of_lt_size {ns : Namespace} {id : NodeId} (h : id < ns.nodes.size) :
    ∃ node, ns.node? id = some node :=
  ⟨ns.nodes[id], Array.getElem?_eq_getElem h⟩

theorem entries_of_node? {ns : Namespace} {id : NodeId} {es : Table Text NodeId}
    (h : ns.node? id = some (.package es)) : ns.entries id = es := by
  simp only [entries, h]

/-- Only a package has entries. -/
theorem node?_of_mem_entries {ns : Namespace} {id : NodeId} {entry : Text × NodeId}
    (h : entry ∈ ns.entries id) : ns.node? id = some (.package (ns.entries id)) := by
  unfold entries at h ⊢
  split at h
  · next es hnode => rw [hnode]
  · simp at h

/-! ## Attaching a node -/

section Attach

variable (ns : Namespace) (parent : NodeId) (key : Text) (node : Node)

@[simp] theorem size_attach : (ns.attach parent key node).nodes.size = ns.nodes.size + 1 := by
  simp [attach]

theorem node?_attach (h : parent < ns.nodes.size) (id : NodeId) :
    (ns.attach parent key node).node? id
      = if id = parent then some (.package (Table.put key ns.nodes.size (ns.entries parent)))
        else if id = ns.nodes.size then some node else ns.node? id := by
  simp only [attach, node?, Array.getElem?_setIfInBounds, Array.getElem?_push, Array.size_push,
    eq_comm (a := parent)]
  split
  · rw [if_pos (Nat.lt_succ_of_lt h)]
  · rfl

theorem node?_attach_of_lt (h : parent < ns.nodes.size) {id : NodeId} (hid : id < ns.nodes.size)
    (hne : id ≠ parent) : (ns.attach parent key node).node? id = ns.node? id := by
  rw [node?_attach ns parent key node h, if_neg hne, if_neg (Nat.ne_of_lt hid)]

theorem node?_attach_new (h : parent < ns.nodes.size) :
    (ns.attach parent key node).node? ns.nodes.size = some node := by
  rw [node?_attach ns parent key node h, if_neg (Nat.ne_of_gt h), if_pos rfl]

theorem node?_attach_parent (h : parent < ns.nodes.size) :
    (ns.attach parent key node).node? parent
      = some (.package (Table.put key ns.nodes.size (ns.entries parent))) := by
  rw [node?_attach ns parent key node h, if_pos rfl]

end Attach

/-- A new node without entries of its own changes the entries of its package only. -/
theorem entries_attach (ns : Namespace) {parent : NodeId} (key : Text) {node : Node}
    (h : parent < ns.nodes.size) (hnode : ∀ es, node = .package es → es = []) (id : NodeId) :
    (ns.attach parent key node).entries id
      = if id = parent then Table.put key ns.nodes.size (ns.entries parent)
        else ns.entries id := by
  unfold entries
  rw [node?_attach ns parent key node h]
  by_cases hp : id = parent
  · simp only [if_pos hp]
    rfl
  · by_cases hs : id = ns.nodes.size
    · have hold : ns.node? id = none := by
        rw [node?, hs]
        exact Array.getElem?_eq_none (Nat.le_refl _)
      simp only [if_neg hp, if_pos hs, hold]
      cases node with
      | cls record => rfl
      | package es => exact hnode es rfl
    · simp only [if_neg hp, if_neg hs]

/-! ## The invariant -/

/-- The nodes are sound, though the package `home` may still be empty. -/
structure SoundUpTo (ns : Namespace) (home : NodeId) : Prop where
  /-- The root is a package. -/
  root_package : ∃ es, ns.node? root = some (.package es)
  /-- So is `home`. -/
  home_package : ∃ es, ns.node? home = some (.package es)
  /-- Entries have greater numbers than their package, whether a path leads to it or not. -/
  parent_lt_child : ∀ {parent key child}, (key, child) ∈ ns.entries parent → parent < child
  /-- Every number in use has a node. -/
  child_lt_size : ∀ {parent key child}, (key, child) ∈ ns.entries parent → child < ns.nodes.size
  /-- No node is an entry twice. -/
  entry_unique : ∀ {parent parent' key key' child}, (key, child) ∈ ns.entries parent →
    (key', child) ∈ ns.entries parent' → parent = parent' ∧ key = key'
  /-- Classes stand under their names and packages under keys without a dot. -/
  fits : ∀ {parent key child node}, (key, child) ∈ ns.entries parent →
    ns.node? child = some node → node.Fits key
  /-- Entries are in the order of their keys. -/
  sorted : ∀ id, Table.Sorted (ns.entries id)
  /-- No package is empty but the root and `home`. -/
  inhabited : ∀ {id}, ns.node? id = some (.package []) → id = root ∨ id = home

variable {ns : Namespace} {home : NodeId}

theorem SoundUpTo.home_lt_size (h : SoundUpTo ns home) : home < ns.nodes.size := by
  obtain ⟨es, hes⟩ := h.home_package
  exact lt_size_of_node? hes

theorem SoundUpTo.child?_eq_some_iff (h : SoundUpTo ns home) {parent child : NodeId} {key : Text} :
    ns.child? parent key = some child ↔ (key, child) ∈ ns.entries parent :=
  Table.get?_eq_some_iff_mem (h.sorted parent)

theorem soundUpTo_empty : SoundUpTo empty root := by
  have hentries : ∀ id, empty.entries id = [] := by
    intro id
    unfold entries
    split
    · next es hes =>
        have hid : id < 1 := lt_size_of_node? hes
        obtain rfl : id = 0 := Nat.lt_one_iff.1 hid
        simpa [empty, node?, eq_comm] using hes
    · rfl
  refine ⟨⟨[], rfl⟩, ⟨[], rfl⟩, ?_, ?_, ?_, ?_, fun id => ?_, fun {id} hid => ?_⟩
  · intro parent key child hmem
    simp [hentries] at hmem
  · intro parent key child hmem
    simp [hentries] at hmem
  · intro parent parent' key key' child hmem
    simp [hentries] at hmem
  · intro parent key child node hmem
    simp [hentries] at hmem
  · rw [hentries]
    exact List.Pairwise.nil
  · have hlt : id < 1 := lt_size_of_node? hid
    exact Or.inl (Nat.lt_one_iff.1 hlt)

/-! ## Every attached node keeps the invariant -/

/-- An entry after `attach` is the new node, or was there before. -/
theorem mem_entries_attach (h : SoundUpTo ns home) {key : Text} {node : Node}
    (hnode : ∀ es, node = .package es → es = []) {parent child : NodeId} {k : Text}
    (hmem : (k, child) ∈ (ns.attach home key node).entries parent) :
    (parent = home ∧ k = key ∧ child = ns.nodes.size) ∨ (k, child) ∈ ns.entries parent := by
  rw [entries_attach ns key h.home_lt_size hnode] at hmem
  split at hmem
  · next hp =>
      rcases (Table.mem_put (h.sorted home) _).1 hmem with heq | ⟨hold, -⟩
      · obtain ⟨hk, hc⟩ := Prod.mk.inj heq
        exact Or.inl ⟨hp, hk, hc⟩
      · exact Or.inr (hp ▸ hold)
  · exact Or.inr hmem

/-- **One step of every insertion.** A class closes the package being filled, a new package is the
next one to be filled. -/
theorem SoundUpTo.attach (h : SoundUpTo ns home) {key : Text} {node : Node} {next : NodeId}
    (hfits : node.Fits key) (hnode : ∀ es, node = .package es → es = [] ∧ next = ns.nodes.size)
    (hcls : ∀ record, node = .cls record → next = root) :
    SoundUpTo (ns.attach home key node) next := by
  have hlt := h.home_lt_size
  have hempty : ∀ es, node = .package es → es = [] := fun es he => (hnode es he).1
  have hold : ∀ {id es}, ns.node? id = some (.package es) →
      ∃ es', (ns.attach home key node).node? id = some (.package es') := by
    intro id es hid
    by_cases hp : id = home
    · subst hp
      exact ⟨_, node?_attach_parent ns _ key node hlt⟩
    · exact ⟨es, by rw [node?_attach_of_lt ns home key node hlt (lt_size_of_node? hid) hp, hid]⟩
  have hroot : ∃ es, (ns.attach home key node).node? root = some (.package es) := by
    obtain ⟨es, hes⟩ := h.root_package
    exact hold hes
  refine ⟨hroot, ?_, ?_, ?_, ?_, ?_, fun id => ?_, fun {id} hid => ?_⟩
  · cases node with
    | cls record => exact hcls record rfl ▸ hroot
    | package es => exact (hnode es rfl).2 ▸ ⟨es, node?_attach_new ns home key _ hlt⟩
  · intro parent k child hmem
    rcases mem_entries_attach h hempty hmem with ⟨rfl, -, rfl⟩ | hmem
    · exact hlt
    · exact h.parent_lt_child hmem
  · intro parent k child hmem
    rw [size_attach]
    rcases mem_entries_attach h hempty hmem with ⟨-, -, rfl⟩ | hmem
    · exact Nat.lt_succ_self _
    · exact Nat.lt_succ_of_lt (h.child_lt_size hmem)
  · intro parent parent' k k' child hmem hmem'
    rcases mem_entries_attach h hempty hmem with ⟨rfl, rfl, rfl⟩ | hmem
    · rcases mem_entries_attach h hempty hmem' with ⟨rfl, rfl, -⟩ | hmem'
      · exact ⟨rfl, rfl⟩
      · exact absurd (h.child_lt_size hmem') (Nat.lt_irrefl _)
    · rcases mem_entries_attach h hempty hmem' with ⟨-, -, rfl⟩ | hmem'
      · exact absurd (h.child_lt_size hmem) (Nat.lt_irrefl _)
      · exact h.entry_unique hmem hmem'
  · intro parent k child found hmem hfound
    rcases mem_entries_attach h hempty hmem with ⟨rfl, rfl, rfl⟩ | hwas
    · rw [node?_attach_new ns _ _ node hlt] at hfound
      exact Option.some.inj hfound ▸ hfits
    · -- an old entry is judged by its old node, which only `home` has changed
      by_cases hp : child = home
      · subst hp
        obtain ⟨es, hes⟩ := h.home_package
        rw [node?_attach_parent ns _ key node hlt] at hfound
        -- a package fits a key whatever its entries are
        obtain rfl := Option.some.inj hfound
        have hdot : '.' ∉ k := h.fits hwas hes
        exact hdot
      · rw [node?_attach_of_lt ns home key node hlt (h.child_lt_size hwas) hp] at hfound
        exact h.fits hwas hfound
  · rw [entries_attach ns key hlt hempty]
    split
    · exact Table.sorted_put _ _ (h.sorted home)
    · exact h.sorted id
  · -- `home` has an entry now, so it is the new node that may be empty
    rw [node?_attach ns home key node hlt] at hid
    split at hid
    · next hp =>
        have hes := Node.package.inj (Option.some.inj hid)
        exact absurd hes (Table.put_ne_nil _ _ _)
    · next hp =>
        split at hid
        · next hs =>
            obtain rfl := Option.some.inj hid
            exact Or.inr (hs.trans (hnode [] rfl).2.symm)
        · exact Or.inl ((h.inhabited hid).resolve_right hp)

theorem SoundUpTo.attach_package (h : SoundUpTo ns home) {key : Text} (hkey : '.' ∉ key) :
    SoundUpTo (ns.attach home key (.package [])) ns.nodes.size :=
  h.attach hkey (fun _ he => ⟨(Node.package.inj he).symm, rfl⟩) nofun

theorem SoundUpTo.attach_cls (h : SoundUpTo ns home) (record : Record) :
    SoundUpTo (ns.attach home record.className (.cls record)) root :=
  h.attach rfl nofun fun _ _ => rfl

/-- A package that is entered is not empty, so the one below it may be filled next. -/
theorem SoundUpTo.descend (h : SoundUpTo ns home) {key : Text} {id : NodeId}
    {es : Table Text NodeId} (hmem : (key, id) ∈ ns.entries home)
    (hid : ns.node? id = some (.package es)) : SoundUpTo ns id where
  root_package := h.root_package
  home_package := ⟨es, hid⟩
  parent_lt_child := h.parent_lt_child
  child_lt_size := h.child_lt_size
  entry_unique := h.entry_unique
  fits := h.fits
  sorted := h.sorted
  inhabited := fun {other} hother => by
    refine Or.inl ((h.inhabited hother).resolve_right fun hhome => ?_)
    rw [← hhome, entries_of_node? hother] at hmem
    exact List.not_mem_nil hmem

/-! ## Insertions from a package on the way -/

/-- What opening a package can do: it is there already, or it is made, where nothing or a class
stood. -/
theorem SoundUpTo.openPackage_cases (h : SoundUpTo ns home) (package segment : Text) :
    (∃ id es, (segment, id) ∈ ns.entries home ∧ ns.node? id = some (.package es)
        ∧ ns.openPackage package home segment = (ns, id, []))
      ∨ (ns.child? home segment = none ∧ ns.openPackage package home segment
          = (ns.attach home segment (.package []), ns.nodes.size, []))
      ∨ ∃ id record, (segment, id) ∈ ns.entries home ∧ ns.node? id = some (.cls record)
          ∧ ns.openPackage package home segment = (ns.attach home segment (.package []),
              ns.nodes.size, [.classOnTheWay segment package]) := by
  cases hchild : ns.child? home segment with
  | none => exact Or.inr (Or.inl ⟨rfl, by simp only [openPackage, hchild]⟩)
  | some id =>
      have hmem := h.child?_eq_some_iff.1 hchild
      obtain ⟨node, hnode⟩ := exists_node?_of_lt_size (h.child_lt_size hmem)
      cases node with
      | package es => exact Or.inl ⟨id, es, hmem, hnode, by simp only [openPackage, hchild, hnode]⟩
      | cls record =>
          exact Or.inr (Or.inr ⟨id, record, hmem, hnode, by simp only [openPackage, hchild, hnode]⟩)

/-- The package that was opened is the next one to be filled. -/
theorem SoundUpTo.openPackage (h : SoundUpTo ns home) (package : Text) {segment : Text}
    (hsegment : '.' ∉ segment) : SoundUpTo (ns.openPackage package home segment).1
      (ns.openPackage package home segment).2.1 := by
  rcases h.openPackage_cases package segment with
    ⟨id, es, hmem, hid, hstep⟩ | ⟨-, hstep⟩ | ⟨id, old, -, -, hstep⟩
  · rw [hstep]
    exact h.descend hmem hid
  · rw [hstep]
    exact h.attach_package hsegment
  · rw [hstep]
    exact h.attach_package hsegment

/-- The insertion of a record from the package `parent` on, when only `segments` are left. -/
def insertFrom (ns : Namespace) (parent : NodeId) (segments : List Text) (record : Record) :
    Namespace × List Warning :=
  let home := openPath record.package segments ns parent
  (home.1.attach home.2.1 record.className (.cls record),
    home.2.2 ++ home.1.displacedAt home.2.1 record.className)

theorem insert_eq_insertFrom (ns : Namespace) (record : Record) :
    ns.insert record = ns.insertFrom root record.segments record :=
  rfl

theorem insertFrom_nil (ns : Namespace) (parent : NodeId) (record : Record) :
    ns.insertFrom parent [] record
      = (ns.attach parent record.className (.cls record), ns.displacedAt parent record.className) :=
  rfl

theorem insertFrom_cons {parent : NodeId} {segment : Text} {record : Record}
    {step : Namespace × NodeId × List Warning}
    (hstep : ns.openPackage record.package parent segment = step) (rest : List Text) :
    ns.insertFrom parent (segment :: rest) record
      = ((step.1.insertFrom step.2.1 rest record).1,
        step.2.2 ++ (step.1.insertFrom step.2.1 rest record).2) := by
  subst hstep
  simp only [insertFrom, openPath, List.append_assoc]

/-- The invariant after a whole insertion, from any package on its way. -/
theorem SoundUpTo.insertFrom {segments : List Text} (record : Record)
    (hdot : ∀ segment ∈ segments, '.' ∉ segment) :
    ∀ {ns : Namespace} {home : NodeId}, SoundUpTo ns home →
      SoundUpTo (ns.insertFrom home segments record).1 root := by
  induction segments with
  | nil => exact fun h => h.attach_cls record
  | cons segment rest ih =>
      intro ns home h
      obtain ⟨hsegment, hrest⟩ := List.forall_mem_cons.1 hdot
      rw [insertFrom_cons rfl]
      exact ih hrest (h.openPackage record.package hsegment)

/-- **An insertion keeps the invariant.** -/
theorem SoundUpTo.insert (h : SoundUpTo ns root) (record : Record) :
    SoundUpTo (ns.insert record).1 root := by
  rw [insert_eq_insertFrom]
  exact h.insertFrom record record.dot_not_mem_segment

/-! ## How many nodes there are -/

theorem size_openPackage_le (ns : Namespace) (package : Text) (parent : NodeId) (segment : Text) :
    (ns.openPackage package parent segment).1.nodes.size ≤ ns.nodes.size + 1 := by
  unfold openPackage
  split
  · simp
  · split <;> simp

theorem size_insertFrom_le (segments : List Text) (record : Record) :
    ∀ (ns : Namespace) (parent : NodeId),
      (ns.insertFrom parent segments record).1.nodes.size
        ≤ ns.nodes.size + (segments.length + 1) := by
  induction segments with
  | nil =>
      intro ns parent
      simp [insertFrom_nil]
  | cons segment rest ih =>
      intro ns parent
      rw [insertFrom_cons rfl, List.length_cons]
      have hstep := size_openPackage_le ns record.package parent segment
      have hrest := ih (ns.openPackage record.package parent segment).1
        (ns.openPackage record.package parent segment).2.1
      simp only at hrest ⊢
      omega

/-! ## The paths of nodes -/

theorem follow_cons_eq_some_iff (h : SoundUpTo ns home) {id found : NodeId} {key : Text}
    {rest : List Text} : ns.follow id (key :: rest) = some found ↔
      ∃ child, (key, child) ∈ ns.entries id ∧ ns.follow child rest = some found := by
  rw [follow, Option.bind_eq_some_iff]
  exact exists_congr fun child => and_congr_left fun _ => h.child?_eq_some_iff

theorem follow_append (ns : Namespace) (p q : List Text) (id : NodeId) :
    ns.follow id (p ++ q) = (ns.follow id p).bind fun mid => ns.follow mid q := by
  induction p generalizing id with
  | nil => rfl
  | cons key rest ih =>
      rw [List.cons_append, follow, follow, Option.bind_assoc]
      exact congrArg _ (funext ih)

theorem le_of_follow (h : SoundUpTo ns home) {path : List Text} {id found : NodeId}
    (hfollow : ns.follow id path = some found) : id ≤ found := by
  induction path generalizing id with
  | nil => exact Nat.le_of_eq (Option.some.inj hfollow)
  | cons key rest ih =>
      obtain ⟨child, hmem, hrest⟩ := (follow_cons_eq_some_iff h).1 hfollow
      exact Nat.le_trans (Nat.le_of_lt (h.parent_lt_child hmem)) (ih hrest)

theorem lt_size_of_follow (h : SoundUpTo ns home) {path : List Text} {id found : NodeId}
    (hid : id < ns.nodes.size) (hfollow : ns.follow id path = some found) :
    found < ns.nodes.size := by
  induction path generalizing id with
  | nil => exact Option.some.inj hfollow ▸ hid
  | cons key rest ih =>
      obtain ⟨child, hmem, hrest⟩ := (follow_cons_eq_some_iff h).1 hfollow
      exact ih (h.child_lt_size hmem) hrest

/-- The last step of a path. -/
theorem follow_concat_eq_some_iff (h : SoundUpTo ns home) {path : List Text} {key : Text}
    {id found : NodeId} : ns.follow id (path ++ [key]) = some found ↔
      ∃ mid, ns.follow id path = some mid ∧ (key, found) ∈ ns.entries mid := by
  rw [follow_append, Option.bind_eq_some_iff]
  refine exists_congr fun mid => and_congr_right fun _ => ?_
  rw [follow_cons_eq_some_iff h]
  simp [follow]

theorem not_mem_entries_of_follow (h : SoundUpTo ns home) {path : List Text} {key : Text}
    {id found : NodeId} (hfollow : ns.follow id path = some found) :
    (key, id) ∉ ns.entries found := fun hmem =>
  Nat.not_lt_of_le (le_of_follow h hfollow) (h.parent_lt_child hmem)

/-- **Two paths that begin at one node never meet again.** -/
theorem follow_injective (h : SoundUpTo ns home) {id : NodeId} {p : List Text} :
    ∀ {found : NodeId} {q : List Text}, ns.follow id p = some found →
      ns.follow id q = some found → p = q := by
  -- from the end of the paths, as a node tells its package and its key
  induction p using List.reverseRecOn with
  | nil =>
      intro found q hp hq
      obtain rfl : id = found := Option.some.inj hp
      rcases List.eq_nil_or_concat' q with rfl | ⟨q', key, rfl⟩
      · rfl
      · obtain ⟨mid, hmid, hmem⟩ := (follow_concat_eq_some_iff h).1 hq
        exact absurd hmem (not_mem_entries_of_follow h hmid)
  | append_singleton p' key ih =>
      intro found q hp hq
      obtain ⟨mid, hmid, hmem⟩ := (follow_concat_eq_some_iff h).1 hp
      rcases List.eq_nil_or_concat' q with rfl | ⟨q', key', rfl⟩
      · obtain rfl : id = found := Option.some.inj hq
        exact absurd hmem (not_mem_entries_of_follow h hmid)
      · obtain ⟨mid', hmid', hmem'⟩ := (follow_concat_eq_some_iff h).1 hq
        obtain ⟨rfl, rfl⟩ := h.entry_unique hmem hmem'
        rw [ih hmid hmid']

/-! ## What an insertion leaves alone -/

/-- **An insertion changes old nodes on its way only.** -/
theorem node?_insertFrom (segments : List Text) (record : Record) :
    ∀ {ns : Namespace} {home : NodeId}, SoundUpTo ns home →
      (∀ segment ∈ segments, '.' ∉ segment) → ∀ {id : NodeId}, id < ns.nodes.size →
      (ns.insertFrom home segments record).1.node? id = ns.node? id
        ∨ ∃ path, path <+: segments ∧ ns.follow home path = some id := by
  induction segments with
  | nil =>
      intro ns home h _ id hid
      by_cases hp : id = home
      · exact Or.inr ⟨[], List.prefix_rfl, congrArg some hp.symm⟩
      · exact Or.inl (node?_attach_of_lt ns home _ _ h.home_lt_size hid hp)
  | cons segment rest ih =>
      intro ns home h hdot id hid
      obtain ⟨hsegment, hrest⟩ := List.forall_mem_cons.1 hdot
      -- behind a package made on the way there are new nodes only
      have hnew : ((ns.attach home segment (.package [])).insertFrom ns.nodes.size rest
          record).1.node? id = ns.node? id
            ∨ ∃ path, path <+: segment :: rest ∧ ns.follow home path = some id := by
        by_cases hp : id = home
        · exact Or.inr ⟨[], List.nil_prefix, congrArg some hp.symm⟩
        · have hsound := h.attach_package hsegment
          have hlt : id < (ns.attach home segment (.package [])).nodes.size := by
            rw [size_attach]
            exact Nat.lt_succ_of_lt hid
          rcases ih hsound hrest hlt with hsame | ⟨path, -, hfollow⟩
          · rw [hsame]
            exact Or.inl (node?_attach_of_lt ns home _ _ h.home_lt_size hid hp)
          · exact absurd (le_of_follow hsound hfollow) (Nat.not_le_of_lt hid)
      rcases h.openPackage_cases record.package segment with
        ⟨child, es, hmem, hchild, hstep⟩ | ⟨-, hstep⟩ | ⟨child, old, -, -, hstep⟩
      · rw [insertFrom_cons hstep]
        rcases ih (h.descend hmem hchild) hrest hid with hsame | ⟨path, hstart, hfollow⟩
        · exact Or.inl hsame
        · exact Or.inr ⟨segment :: path, (List.cons_prefix_cons).2 ⟨rfl, hstart⟩,
            (follow_cons_eq_some_iff h).2 ⟨child, hmem, hfollow⟩⟩
      · rw [insertFrom_cons hstep]
        exact hnew
      · rw [insertFrom_cons hstep]
        exact hnew

/-- A package with a smaller number than `home` is not on the way. -/
theorem node?_insertFrom_of_lt {segments : List Text} (record : Record)
    (h : SoundUpTo ns home) (hdot : ∀ segment ∈ segments, '.' ∉ segment) {id : NodeId}
    (hid : id < home) : (ns.insertFrom home segments record).1.node? id = ns.node? id := by
  have hsize := Nat.lt_trans hid h.home_lt_size
  refine (node?_insertFrom segments record h hdot hsize).resolve_right ?_
  rintro ⟨path, -, hfollow⟩
  exact Nat.not_lt_of_le (le_of_follow h hfollow) hid

end Namespace

end PackageAtlas
