import PackageAtlas.Proofs.Namespace.Reachable

set_option autoImplicit false

/-! # No record is lost without a warning

`Namespace.Displacement` names what an insertion can find in its way, with the records it costs and
the warning it gives. `Valid.displacement` says that one of the cases applies, and
`insert_displaces` spells out, for every namespace of records, which one and with what words. -/

namespace PackageAtlas.Namespace

open PackageAtlas.Tree

variable {ns : Namespace}

/-! ## Classes below a node -/

/-- A class in the tree below a package is one of the namespace, further on from the package. -/
theorem Valid.mem_leaves_of_subtree (h : Valid ns) {path : List Text} {id : NodeId}
    {es : Table Text NodeId} {old : Record} (hfollow : ns.follow root path = some id)
    (hid : ns.node? id = some (.package es)) (hmem : old ∈ (ns.subtree id).leaves) :
    old ∈ ns.leaves ∧ path <+: old.path ∧ path ≠ old.path := by
  rw [leaves_eq, List.mem_map] at hmem
  obtain ⟨b, hb, rfl⟩ := hmem
  have hat : at? path ns.tree = some (ns.subtree id) := by
    rw [tree_eq_subtree, at?_subtree h.sound path h.sound.home_lt_size, hfollow, Option.map_some]
  have hbinding := mem_bindings_of_at? hat hb
  have hpath : path ++ b.1 = b.2.path := h.located _ hbinding
  rw [subtree_package h.sound hid, bindings_package] at hb
  refine ⟨(h.mem_leaves_iff b.2).2 (hpath ▸ hbinding), hpath ▸ List.prefix_append path b.1, ?_⟩
  intro he
  rw [← hpath] at he
  exact path_ne_nil_of_mem hb (List.self_eq_append_right.1 he)

/-- A package that a path leads to has a class below it. -/
theorem Valid.leaves_subtree_ne_nil (h : Valid ns) {path : List Text} {id : NodeId}
    (hpath : path ≠ []) (hfollow : ns.follow root path = some id) :
    (ns.subtree id).leaves ≠ [] := by
  have hat : at? path ns.tree = some (ns.subtree id) := by
    rw [tree_eq_subtree, at?_subtree h.sound path h.sound.home_lt_size, hfollow, Option.map_some]
  obtain ⟨key, rest, rfl⟩ := List.exists_cons_of_ne_nil hpath
  have hproper := proper_of_at? h.proper hat
  rw [leaves_eq]
  simpa using bindings_ne_nil hproper

/-! ## What is in the way -/

/-- What an insertion finds in its way: the classes it displaces and the warnings it gives. -/
inductive Displacement (ns : Namespace) (record : Record) : List Record → List Warning → Prop
  /-- Nothing is in the way. -/
  | nothing : Displacement ns record [] []
  /-- A class stands where a package is needed. -/
  | classOnTheWay (old : Record) (hpath : old.path <+: record.segments) :
      Displacement ns record [old] [.classOnTheWay old.className record.package]
  /-- A class stands at the same path. -/
  | classAtKey (old : Record) (hpath : old.path = record.path) :
      Displacement ns record [old] [.classAtKey record.className record.qualifiedName]
  /-- A package stands under the key of the class. -/
  | packageAtKey (id : NodeId) (es : Table Text NodeId)
      (hfollow : ns.follow root record.path = some id)
      (hid : ns.node? id = some (.package es)) :
      Displacement ns record (ns.subtree id).leaves [.packageAtKey record.className]

/-- The classes of `ns` whose paths are comparable with that of `record`. -/
def lost (ns : Namespace) (record : Record) : List Record :=
  ns.leaves.filter fun old => Comparable old.path record.path

theorem mem_lost {record old : Record} :
    old ∈ ns.lost record ↔ old ∈ ns.leaves ∧ Comparable old.path record.path := by
  simp [lost]

theorem Valid.lost_eq (h : Valid ns) (record : Record) :
    ns.lost record = (displaced record.path ns.tree.bindings).map Prod.snd := by
  rw [lost, leaves_eq_bindings, List.filter_map, displaced]
  refine congrArg _ (List.filter_congr fun b hb => ?_)
  rw [Function.comp_apply, ← h.located b hb]

/-- **Every insertion into a valid namespace is one of the four cases.** -/
theorem Valid.displacement (h : Valid ns) (record : Record) :
    Displacement ns record (ns.lost record) (ns.insert record).2 := by
  have hobstacle := displaced_cases record.package record.segments record.className h.proper
  rw [← bindings_tree h.sound, ← warnings_insert h.sound] at hobstacle
  have hlocated : ∀ b ∈ displaced record.path ns.tree.bindings, b.1 = b.2.path := fun b hb =>
    h.located b (mem_displaced.1 hb).1
  rw [h.lost_eq, Record.path]
  rw [Record.path] at hlocated
  generalize displaced (record.segments ++ [record.className]) ns.tree.bindings = bs at *
  generalize (ns.insert record).2 = ws at *
  cases hobstacle with
  | nothing => exact .nothing
  | classOnTheWay front segment old hfront =>
      have hpath : front ++ [segment] = old.path := hlocated _ (List.mem_singleton_self _)
      have hname : segment = old.className := by
        have hlast := old.getLast?_path
        rw [← hpath, List.getLast?_concat] at hlast
        exact Option.some.inj hlast
      rw [hname]
      exact .classOnTheWay old (hpath ▸ hfront)
  | classAtKey old =>
      have hpath : record.path = old.path := hlocated _ (List.mem_singleton_self _)
      rw [← Record.qualifiedName_eq_of_path_eq hpath]
      exact .classAtKey old hpath.symm
  | packageAtKey inner hat =>
      rw [← tree_eq_package h.sound, tree_eq_subtree,
        at?_subtree h.sound _ h.sound.home_lt_size, Option.map_eq_some_iff] at hat
      obtain ⟨id, hfollow, hsubtree⟩ := hat
      obtain ⟨node, hid⟩ := exists_node?_of_lt_size
        (lt_size_of_follow h.sound h.sound.home_lt_size hfollow)
      -- the tree there is a package, so the node is one
      cases node with
      | cls old =>
          rw [subtree_cls hid] at hsubtree
          cases hsubtree
      | package es =>
          have hleaves : ((bindingsOfEntries inner).map fun b =>
              (record.segments ++ record.className :: b.1, b.2)).map Prod.snd
                = (ns.subtree id).leaves := by
            rw [hsubtree, leaves_eq, bindings_package, List.map_map]
            rfl
          rw [hleaves]
          exact .packageAtKey id es hfollow hid

/-- The classes after an insertion are the new one and those that are not lost. -/
theorem Valid.leaves_insert_perm (h : Valid ns) (record : Record) :
    (ns.insert record).1.leaves.Perm
      (record :: ns.leaves.filter fun old => ¬ Comparable old.path record.path) := by
  have h' := h.insert record
  have hnodup : (record :: ns.leaves.filter fun old => ¬ Comparable old.path record.path).Nodup :=
    List.nodup_cons.2 ⟨by simp [comparable_self], h.leaves_nodup.filter _⟩
  refine (List.perm_ext_iff_of_nodup h'.leaves_nodup hnodup).2 fun old => ?_
  rw [h'.mem_leaves_iff, h.mem_bindings_insert, List.mem_cons, List.mem_filter, h.mem_leaves_iff]
  simp only [Prod.mk.injEq, decide_not, Bool.not_eq_true', decide_eq_false_iff_not]
  refine or_congr_left ⟨And.right, fun he => ?_⟩
  exact ⟨congrArg Record.path he, he⟩

/-! ## The four cases in words -/

section Cases

variable {record old : Record} {gone : List Record} {ws : List Warning}

theorem length_lt_of_prefix_segments (hstart : old.path <+: record.segments) :
    old.path.length < record.path.length := by
  have hle := hstart.length_le
  simp only [Record.path, List.length_append, List.length_singleton] at hle ⊢
  omega

/-- A class whose path is a proper beginning stands on the way, and is all that goes. -/
theorem Displacement.of_prefix (h : Valid ns) (hd : Displacement ns record gone ws)
    (hmem : old ∈ gone) (hstart : old.path <+: record.segments) :
    gone = [old] ∧ ws = [.classOnTheWay old.className record.package] := by
  have hlt := length_lt_of_prefix_segments hstart
  cases hd with
  | nothing => exact absurd hmem List.not_mem_nil
  | classOnTheWay other hpath =>
      obtain rfl := List.mem_singleton.1 hmem
      exact ⟨rfl, rfl⟩
  | classAtKey other hpath =>
      obtain rfl := List.mem_singleton.1 hmem
      exact absurd (congrArg List.length hpath) (Nat.ne_of_lt hlt)
  | packageAtKey id es hfollow hid =>
      obtain ⟨-, hle, -⟩ := h.mem_leaves_of_subtree hfollow hid hmem
      exact absurd hlt (Nat.not_lt_of_le hle.length_le)

/-- A class at the same path is all that goes. -/
theorem Displacement.of_path_eq (h : Valid ns) (hd : Displacement ns record gone ws)
    (hmem : old ∈ gone) (heq : old.path = record.path) :
    gone = [old] ∧ ws = [.classAtKey record.className record.qualifiedName] := by
  cases hd with
  | nothing => exact absurd hmem List.not_mem_nil
  | classOnTheWay other hpath =>
      obtain rfl := List.mem_singleton.1 hmem
      have hlt := length_lt_of_prefix_segments hpath
      exact absurd (congrArg List.length heq) (Nat.ne_of_lt hlt)
  | classAtKey other hpath =>
      obtain rfl := List.mem_singleton.1 hmem
      exact ⟨rfl, rfl⟩
  | packageAtKey id es hfollow hid =>
      obtain ⟨-, -, hne⟩ := h.mem_leaves_of_subtree hfollow hid hmem
      exact absurd heq.symm hne

/-- A class further on from the record's path stands below a package there, which goes whole. -/
theorem Displacement.of_extension (hd : Displacement ns record gone ws) (hmem : old ∈ gone)
    (hstart : record.path <+: old.path) (hne : record.path ≠ old.path) :
    ∃ id, ns.follow root record.path = some id ∧ gone = (ns.subtree id).leaves
      ∧ ws = [.packageAtKey record.className] := by
  cases hd with
  | nothing => exact absurd hmem List.not_mem_nil
  | classOnTheWay other hpath =>
      obtain rfl := List.mem_singleton.1 hmem
      exact absurd (length_lt_of_prefix_segments hpath) (Nat.not_lt_of_le hstart.length_le)
  | classAtKey other hpath =>
      obtain rfl := List.mem_singleton.1 hmem
      exact absurd hpath.symm hne
  | packageAtKey id es hfollow hid => exact ⟨id, hfollow, rfl, rfl⟩

/-- There is one warning if something goes, and none otherwise. -/
theorem Displacement.length_warnings (h : Valid ns) (hd : Displacement ns record gone ws) :
    ws.length = if gone = [] then 0 else 1 := by
  cases hd with
  | nothing => rfl
  | classOnTheWay other hpath => rfl
  | classAtKey other hpath => rfl
  | packageAtKey id es hfollow hid =>
      rw [if_neg (h.leaves_subtree_ne_nil record.path_ne_nil hfollow)]
      rfl

/-- Whatever goes, one of the three things was in the way. -/
theorem Displacement.exists_obstacle (hd : Displacement ns record gone ws) (hne : gone ≠ []) :
    (∃ other ∈ gone, other.path <+: record.segments) ∨ (∃ other ∈ gone, other.path = record.path) ∨
      ∃ id es, ns.follow root record.path = some id ∧ ns.node? id = some (.package es) := by
  cases hd with
  | nothing => exact absurd rfl hne
  | classOnTheWay other hpath => exact Or.inl ⟨other, List.mem_singleton_self _, hpath⟩
  | classAtKey other hpath => exact Or.inr (Or.inl ⟨other, List.mem_singleton_self _, hpath⟩)
  | packageAtKey id es hfollow hid => exact Or.inr (Or.inr ⟨id, es, hfollow, hid⟩)

end Cases

/-- **No record is lost without a warning.** Inserting a record into any namespace of records leaves
all classes but those with comparable paths and adds the record. If there are such classes, exactly
one warning tells of them; which one depends on whether a class stands on the way, a class at the
same path, or a package. -/
theorem insert_displaces (records : List Record) (record : Record) :
    let ns := ofRecords records
    let gone := ns.leaves.filter fun old => Comparable old.path record.path
    let log := (ns.insert record).2.map Warning.entry
    (ns.insert record).1.leaves.Perm
        (record :: ns.leaves.filter fun old => ¬ Comparable old.path record.path) ∧
      log.length = (if gone = [] then 0 else 1) ∧
      (∀ old ∈ ns.leaves, old.path <+: record.path → old.path ≠ record.path →
        gone = [old] ∧ log = [⟨.warn, "package segment ".toList ++ old.className ++ " of ".toList
          ++ record.package ++ " replaced a class leaf".toList⟩]) ∧
      (∀ old ∈ ns.leaves, old.path = record.path →
        gone = [old] ∧ log = [⟨.warn, record.className ++ " replaced existing class ".toList
          ++ record.qualifiedName ++ " under the same key".toList⟩]) ∧
      (∀ id es, ns.follow root record.path = some id → ns.node? id = some (.package es) →
        gone = (ns.subtree id).leaves ∧ gone ≠ [] ∧ log = [⟨.warn, record.className
          ++ " replaced existing package under the same key".toList⟩]) ∧
      (gone ≠ [] → (∃ old ∈ ns.leaves, old.path <+: record.path ∧ old.path ≠ record.path) ∨
        (∃ old ∈ ns.leaves, old.path = record.path) ∨
        ∃ id es, ns.follow root record.path = some id ∧ ns.node? id = some (.package es)) := by
  intro ns gone log
  have h : Valid ns := valid_ofRecords records
  have hd : Displacement ns record gone (ns.insert record).2 := h.displacement record
  have hgone : ∀ {old}, old ∈ ns.leaves → Comparable old.path record.path → old ∈ gone :=
    fun hmem hcomp => mem_lost.2 ⟨hmem, hcomp⟩
  refine ⟨h.leaves_insert_perm record, ?_, ?_, ?_, ?_, ?_⟩
  · rw [List.length_map]
    exact hd.length_warnings h
  · intro old hmem hstart hne
    obtain ⟨hlost, hws⟩ := hd.of_prefix h (hgone hmem (Or.inl hstart))
      ((Record.path_prefix_segments_iff old record).2 ⟨hstart, hne⟩)
    exact ⟨hlost, congrArg (List.map Warning.entry) hws⟩
  · intro old hmem heq
    obtain ⟨hlost, hws⟩ := hd.of_path_eq h (hgone hmem (Or.inl (heq ▸ List.prefix_rfl))) heq
    exact ⟨hlost, congrArg (List.map Warning.entry) hws⟩
  · intro id es hfollow hid
    -- any class below the package tells that the package is what goes
    obtain ⟨old, hold⟩ := List.exists_mem_of_ne_nil _
      (h.leaves_subtree_ne_nil record.path_ne_nil hfollow)
    obtain ⟨hmem, hstart, hne⟩ := h.mem_leaves_of_subtree hfollow hid hold
    obtain ⟨id', hfollow', hlost, hws⟩ := hd.of_extension (hgone hmem (Or.inr hstart)) hstart hne
    obtain rfl : id' = id := Option.some.inj (hfollow'.symm.trans hfollow)
    exact ⟨hlost, List.ne_nil_of_mem (hgone hmem (Or.inr hstart)),
      congrArg (List.map Warning.entry) hws⟩
  · intro hne
    refine (hd.exists_obstacle hne).imp ?_ (Or.imp_left ?_)
    · rintro ⟨old, hmem, hstart⟩
      exact ⟨old, (mem_lost.1 hmem).1, (Record.path_prefix_segments_iff old record).1 hstart⟩
    · rintro ⟨old, hmem, heq⟩
      exact ⟨old, (mem_lost.1 hmem).1, heq⟩

end PackageAtlas.Namespace
