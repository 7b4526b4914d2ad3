import PackageAtlas.Proofs.Diagram.Blocks
import PackageAtlas.Proofs.Namespace.Survivors

set_option autoImplicit false

/-! # When identifiers are distinct

Identifiers do not tell a dot from an underscore. Where names hold no underscores and no package
begins with a dot, this does no harm: the identifier of a node joins the keys that lead to it, and a
namespace has one node at each list of keys, be it a package or a class (`identifiers_nodup`). -/

namespace PackageAtlas.Diagram

open PackageAtlas.Namespace PackageAtlas.Tree

/-- Whether the path of a record can be told from the identifiers on it. -/
structure Legible (record : Record) : Prop where
  package_ne_nil : record.package ≠ []
  no_dot_in_front : record.package.head? ≠ some '.'
  plain : '_' ∉ record.package
  plain_name : '_' ∉ record.className ∧ '.' ∉ record.className

theorem Legible.plain_keys {record : Record} (h : Legible record) :
    ∀ key ∈ record.path, Identifier.Plain key := by
  intro key hkey
  refine ⟨?_, Record.not_mem_of_mem_path h.plain h.plain_name.1 key hkey⟩
  rcases List.mem_append.1 hkey with hsegment | hname
  · exact record.dot_not_mem_segment key hsegment
  · exact List.mem_singleton.1 hname ▸ h.plain_name.2

/-- The first key of the path is not empty. -/
theorem Legible.exists_first {record : Record} (h : Legible record) :
    ∃ first rest, first ≠ [] ∧ record.path = first :: rest := by
  obtain ⟨first, rest, hsegments⟩ := List.exists_cons_of_ne_nil record.segments_ne_nil
  refine ⟨first, rest ++ [record.className], ?_, by rw [Record.path, hsegments, List.cons_append]⟩
  rintro rfl
  exact h.package_ne_nil (Identifier.package_eq_nil_of_segments h.no_dot_in_front hsegments).2

/-- The identifier of a node on the way to a legible record joins the keys that lead to it. -/
theorem identifier_nodeDeclaration {record : Record} (h : Legible record) {keys : List Text}
    (hkeys : keys <+: record.path) (hne : keys ≠ []) (node : Tree) :
    (nodeDeclaration keys node).heading.identifier = Identifier.joined keys := by
  obtain ⟨first, rest, hfirst, hpath⟩ := h.exists_first
  obtain ⟨key, more, rfl⟩ := List.exists_cons_of_ne_nil hne
  obtain rfl : key = first := by
    rw [hpath, List.cons_prefix_cons] at hkeys
    exact hkeys.1
  have hplain : ∀ k ∈ key :: more, Identifier.Plain k := fun k hk =>
    h.plain_keys k (hkeys.subset hk)
  obtain ⟨front, last, hlast⟩ := (List.eq_nil_or_concat' (key :: more)).resolve_left hne
  rw [hlast, nodeDeclaration_concat]
  cases node with
  | cls old =>
      rw [← hlast]
      exact Identifier.ofClass_pathOf hfirst hlast.symm hplain
  | package entries =>
      rw [← hlast]
      refine Eq.trans ?_ (Identifier.ofPackage_pathOf hfirst hplain)
      rw [hlast, Identifier.pathOf_concat]
      rfl

/-- Every node of a namespace is on the way to one of its records. -/
theorem exists_record_of_mem_nodes {records : List Record} {node : List Text × Tree}
    (hnode : node ∈ nodesOfEntries (ofRecords records).tree.entries) :
    ∃ record ∈ records, node.1 <+: record.path := by
  obtain ⟨b, hb, hstart⟩ :=
    exists_binding_of_mem_nodesOfEntries (valid_ofRecords records).proper hnode
  obtain ⟨record, hrecord, rfl⟩ := exists_record_of_mem_bindings hb
  exact ⟨record, hrecord, hstart⟩

/-- The nodes that are declared are those that paths from the root lead to. -/
theorem exists_declaration_iff {ns : Namespace} (h : Valid ns)
    (dependencies : Option Dependencies) (keys : List Text) :
    (∃ declaration ∈ (outlineOf ns dependencies).declarations, declaration.keys = keys)
      ↔ keys ≠ [] ∧ ∃ id, ns.follow root keys = some id := by
  have hat : ∀ path, at? path (.package ns.tree.entries)
      = (ns.follow root path).map ns.subtree := fun path => by
    rw [← tree_eq_package h.sound, tree_eq_subtree, at?_subtree h.sound path h.sound.home_lt_size]
  constructor
  · rintro ⟨declaration, hmem, rfl⟩
    obtain ⟨path, node, hnode, rfl⟩ := (mem_declarations_outlineOf dependencies declaration).1 hmem
    obtain ⟨hne, hfound⟩ := (mem_nodesOfEntries_iff_at? h.proper path node).1 hnode
    rw [hat, Option.map_eq_some_iff] at hfound
    obtain ⟨id, hfollow, -⟩ := hfound
    rw [keys_nodeDeclaration hne]
    exact ⟨hne, id, hfollow⟩
  · rintro ⟨hne, id, hfollow⟩
    have hfound : at? keys (.package ns.tree.entries) = some (ns.subtree id) := by
      rw [hat, hfollow, Option.map_some]
    have hnode := (mem_nodesOfEntries_iff_at? h.proper keys _).2 ⟨hne, hfound⟩
    exact ⟨_, (mem_declarations_outlineOf dependencies _).2 ⟨keys, _, hnode, rfl⟩,
      keys_nodeDeclaration hne _⟩

/-- **No identifier is declared twice**, where names hold no underscores, class names no dots, and
packages neither are empty nor begin with a dot. What is declared is every node of the namespace
other than its root. -/
theorem identifiers_nodup (layout : Layout) (records : List Record)
    (dependencies : Option Dependencies)
    (hpackage : ∀ record ∈ records,
      record.package ≠ [] ∧ record.package.head? ≠ some '.' ∧ '_' ∉ record.package)
    (hname : ∀ record ∈ records, '_' ∉ record.className ∧ '.' ∉ record.className) :
    ∃ outline,
      Outline.read layout.indent (body layout (ofRecords records) dependencies) = some outline ∧
      (outline.declarations.map fun declaration => declaration.heading.identifier).Nodup ∧
      ∀ keys, (∃ declaration ∈ outline.declarations, declaration.keys = keys)
        ↔ keys ≠ [] ∧ ∃ id, (ofRecords records).follow root keys = some id := by
  have h := valid_ofRecords records
  refine ⟨_, read_body h layout dependencies, ?_, exists_declaration_iff h dependencies⟩
  have hlegible : ∀ record ∈ records, Legible record := fun record hrecord =>
    ⟨(hpackage record hrecord).1, (hpackage record hrecord).2.1, (hpackage record hrecord).2.2,
      hname record hrecord⟩
  have hplain : ∀ node ∈ nodesOfEntries (ofRecords records).tree.entries,
      node.1 ≠ [] ∧ (∀ key ∈ node.1, Identifier.Plain key)
        ∧ (nodeDeclaration node.1 node.2).heading.identifier = Identifier.joined node.1 := by
    intro node hnode
    obtain ⟨record, hrecord, hstart⟩ := exists_record_of_mem_nodes hnode
    have hne := ((mem_nodesOfEntries_iff_at? h.proper node.1 node.2).1 hnode).1
    exact ⟨hne, fun key hkey => (hlegible record hrecord).plain_keys key (hstart.subset hkey),
      identifier_nodeDeclaration (hlegible record hrecord) hstart hne node.2⟩
  have hidentifiers : (outlineOf (ofRecords records) dependencies).declarations.map
        (fun declaration => declaration.heading.identifier)
      = ((nodesOfEntries (ofRecords records).tree.entries).map Prod.fst).map Identifier.joined := by
    rw [declarations_outlineOf, List.map_map, List.map_map]
    exact List.map_congr_left fun node hnode => (hplain node hnode).2.2
  rw [hidentifiers]
  refine List.Nodup.map_on ?_ (nodup_paths_of_proper h.proper)
  simp only [List.mem_map]
  rintro - ⟨node, hnode, rfl⟩ - ⟨other, hother, rfl⟩ hjoined
  exact Identifier.joined_injective (hplain node hnode).2.1 (hplain other hother).2.1
    (hplain node hnode).1 (hplain other hother).1 hjoined

/-- The package `a.b` and the class `b` in `a` have one identifier, but only one of them is
there. -/
theorem identifiers_nodup_conflict : ∃ outline,
    Outline.read 2 (body {} (ofRecords [⟨"a.b".toList, "C".toList, []⟩,
      ⟨"a".toList, "b".toList, []⟩]) none) = some outline ∧
    (outline.declarations.map fun declaration => declaration.heading.identifier).Nodup := by
  obtain ⟨outline, hread, hnodup, -⟩ := identifiers_nodup {}
    [⟨"a.b".toList, "C".toList, []⟩, ⟨"a".toList, "b".toList, []⟩] none (by decide) (by decide)
  exact ⟨outline, hread, hnodup⟩

end PackageAtlas.Diagram
