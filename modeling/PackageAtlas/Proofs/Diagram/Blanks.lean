import PackageAtlas.Proofs.Dependencies
import PackageAtlas.Proofs.Diagram.Blocks
import PackageAtlas.Proofs.Namespace.Survivors
import PackageAtlas.Proofs.Trim
import PackageAtlas.Record.SourceText

set_option autoImplicit false

/-! # Blanks in identifiers

An underscore begins every identifier of a body and no dot is in one, whatever the records are. A
blank is kept as it is: a name that was cut from a line has none at its ends but may have some
inside, and then the identifiers made of it have them too. `read_body_identifiers` says of which
records all identifiers are one word each. -/

namespace PackageAtlas.Diagram

open PackageAtlas.Namespace PackageAtlas.Tree

/-- Whether a text is one word: no character of it is a blank. -/
def Unspaced (t : Text) : Prop :=
  ∀ c ∈ t, isBlank c = false

instance (t : Text) : Decidable (Unspaced t) :=
  inferInstanceAs (Decidable (∀ c ∈ t, isBlank c = false))

theorem kept_of_isBlank {c : Char} (h : isBlank c = true) : Identifier.Kept c := by
  constructor <;> rintro rfl <;> revert h <;> decide

theorem unspaced_iff {t : Text} : Unspaced t ↔ ∀ c, isBlank c = true → c ∉ t := by
  refine forall_congr' fun c => ?_
  cases isBlank c <;> simp

/-- Texts that have the same blanks are unspaced together. -/
theorem unspaced_congr {t u : Text} (h : ∀ c, isBlank c = true → (c ∈ t ↔ c ∈ u)) :
    Unspaced t ↔ Unspaced u := by
  rw [unspaced_iff, unspaced_iff]
  exact forall₂_congr fun c hc => not_congr (h c hc)

theorem unspaced_append_iff (t u : Text) : Unspaced (t ++ u) ↔ Unspaced t ∧ Unspaced u :=
  List.forall_mem_append

theorem unspaced_flatten_iff (texts : List Text) :
    Unspaced texts.flatten ↔ ∀ t ∈ texts, Unspaced t :=
  List.forall_mem_flatten

/-! ## Names and their identifiers -/

theorem unspaced_ofPackage_iff (path : Text) :
    Unspaced (Identifier.ofPackage path) ↔ Unspaced path :=
  unspaced_congr fun _ hc => (kept_of_isBlank hc).mem_ofPackage_iff path

theorem unspaced_ofClass_iff (path name : Text) :
    Unspaced (Identifier.ofClass path name) ↔ Unspaced path ∧ Unspaced name := by
  rw [← unspaced_append_iff]
  refine unspaced_congr fun c hc => ?_
  rw [(kept_of_isBlank hc).mem_ofClass_iff, List.mem_append]

theorem unspaced_pathOf_iff (keys : List Text) :
    Unspaced (Identifier.pathOf keys) ↔ ∀ key ∈ keys, Unspaced key := by
  rw [← unspaced_flatten_iff]
  refine unspaced_congr fun c hc => ?_
  rw [(kept_of_isBlank hc).mem_pathOf_iff, List.mem_flatten]

theorem unspaced_path_iff (record : Record) :
    (∀ key ∈ record.path, Unspaced key) ↔ Unspaced record.package ∧ Unspaced record.className := by
  have hpackage : Unspaced record.package ↔ ∀ segment ∈ record.segments, Unspaced segment := by
    rw [← unspaced_flatten_iff]
    refine unspaced_congr fun c hc => ?_
    rw [(kept_of_isBlank hc).mem_package_iff, List.mem_flatten]
  rw [Record.path, List.forall_mem_append, List.forall_mem_singleton, hpackage]

/-! ## What is declared -/

/-- The identifier on the line of a node begins with an underscore, has no dots, and has blanks if a
key that leads to the node has. -/
theorem identifier_entryDeclaration (front : List Text) (key : Text) (node : Tree) :
    (entryDeclaration front key node).heading.identifier.head? = some '_' ∧
      '.' ∉ (entryDeclaration front key node).heading.identifier ∧
      (Unspaced (entryDeclaration front key node).heading.identifier
        ↔ ∀ k ∈ front ++ [key], Unspaced k) := by
  cases node with
  | cls record =>
      refine ⟨Identifier.head?_ofClass .., Identifier.dot_not_mem_ofClass _ _, ?_⟩
      refine (unspaced_ofClass_iff ..).trans ?_
      rw [unspaced_pathOf_iff, List.forall_mem_append, List.forall_mem_singleton]
  | package entries =>
      refine ⟨Identifier.head?_ofPackage _, Identifier.dot_not_mem_ofPackage _, ?_⟩
      refine (unspaced_ofPackage_iff _).trans ?_
      rw [← Identifier.pathOf_concat, unspaced_pathOf_iff]

theorem identifier_nodeDeclaration_form {keys : List Text} (h : keys ≠ []) (node : Tree) :
    (nodeDeclaration keys node).heading.identifier.head? = some '_' ∧
      '.' ∉ (nodeDeclaration keys node).heading.identifier ∧
      (Unspaced (nodeDeclaration keys node).heading.identifier ↔ ∀ key ∈ keys, Unspaced key) := by
  obtain ⟨front, key, rfl⟩ := (List.eq_nil_or_concat' keys).resolve_left h
  rw [nodeDeclaration_concat]
  exact identifier_entryDeclaration front key node

/-- A blank is declared if it is in a package or in the name of a class. -/
theorem unspaced_declarations_iff {ns : Namespace} (h : Valid ns)
    (dependencies : Option Dependencies) :
    (∀ declaration ∈ (outlineOf ns dependencies).declarations,
        Unspaced declaration.heading.identifier)
      ↔ ∀ record ∈ ns.leaves, Unspaced record.package ∧ Unspaced record.className := by
  constructor
  · intro hdeclared record hrecord
    have hbinding : (record.path, record) ∈ bindingsOfEntries ns.tree.entries :=
      bindings_tree h.sound ▸ (h.mem_leaves_iff record).1 hrecord
    have hnode := (mem_nodesOfEntries_iff_at? h.proper record.path (.cls record)).2
      ⟨record.path_ne_nil, at?_of_mem_bindingsOfEntries h.proper hbinding⟩
    have hunspaced := hdeclared _ ((mem_declarations_outlineOf dependencies _).2
      ⟨record.path, .cls record, hnode, rfl⟩)
    rw [← unspaced_path_iff]
    exact (identifier_nodeDeclaration_form record.path_ne_nil _).2.2.1 hunspaced
  · intro hleaves declaration hdeclaration
    obtain ⟨keys, node, hnode, rfl⟩ :=
      (mem_declarations_outlineOf dependencies declaration).1 hdeclaration
    have hne := ((mem_nodesOfEntries_iff_at? h.proper keys node).1 hnode).1
    -- a package is on the way to some class, and its keys are among those of the class
    obtain ⟨b, hb, hstart⟩ := exists_binding_of_mem_nodesOfEntries h.proper hnode
    rw [← bindings_tree h.sound] at hb
    have hpath := h.located b hb
    have hrecord : b.2 ∈ ns.leaves := (h.mem_leaves_iff b.2).2 (hpath ▸ hb)
    refine (identifier_nodeDeclaration_form hne node).2.2.2 fun key hkey => ?_
    exact (unspaced_path_iff b.2).2 (hleaves b.2 hrecord) key (hpath ▸ hstart.subset hkey)

/-! ## All identifiers of a body -/

/-- The identifiers on the lines of a body: those of its packages and classes, and those at both
ends of each edge. -/
def Outline.identifiers (outline : Outline) (dependencies : Dependencies) : List Text :=
  outline.declarations.map (fun declaration => declaration.heading.identifier)
    ++ (Dependencies.edges dependencies).flatMap fun edge =>
        [Identifier.ofPackage edge.1, Identifier.ofPackage edge.2]

theorem Outline.forall_mem_identifiers {p : Text → Prop} (outline : Outline)
    (dependencies : Dependencies) :
    (∀ identifier ∈ outline.identifiers dependencies, p identifier) ↔
      (∀ declaration ∈ outline.declarations, p declaration.heading.identifier) ∧
      ∀ edge ∈ Dependencies.edges dependencies,
        p (Identifier.ofPackage edge.1) ∧ p (Identifier.ofPackage edge.2) := by
  rw [Outline.identifiers, List.forall_mem_append, List.forall_mem_map]
  simp only [List.mem_flatMap, List.mem_cons, List.not_mem_nil, or_false, forall_exists_index,
    and_imp]
  refine and_congr_right' ⟨fun h edge hedge => ?_, fun h t edge hedge ht => ?_⟩
  · exact ⟨h _ edge hedge (Or.inl rfl), h _ edge hedge (Or.inr rfl)⟩
  · rcases ht with rfl | rfl
    · exact (h edge hedge).1
    · exact (h edge hedge).2

/-- **Identifiers have no dots and begin with an underscore; blanks they have as the names have
them.** All identifiers of a body are one word each if and only if no class that is drawn has a
blank in its package or its name, and no import that counts has one in the package it points into or
in that of its class. -/
theorem read_body_identifiers (layout : Layout) (records : List Record) (ignored : List Text) :
    ∃ outline,
      Outline.read layout.indent (body layout (ofRecords records)
        (some (Dependencies.ofRecords ignored records))) = some outline ∧
      outline.edges = edgeLines (Dependencies.ofRecords ignored records) ∧
      (∀ identifier ∈ outline.identifiers (Dependencies.ofRecords ignored records),
        identifier.head? = some '_' ∧ '.' ∉ identifier) ∧
      ((∀ identifier ∈ outline.identifiers (Dependencies.ofRecords ignored records),
          Unspaced identifier) ↔
        (∀ record ∈ (ofRecords records).leaves,
          Unspaced record.package ∧ Unspaced record.className) ∧
        ∀ record ∈ records, ∀ name ∈ record.dependencies, (∀ start ∈ ignored, ¬ start <+: name) →
          Unspaced record.package ∧ Unspaced (Dependencies.containingPackage name)) := by
  have h := valid_ofRecords records
  refine ⟨_, read_body h layout _, rfl, ?_, ?_⟩
  · rw [Outline.forall_mem_identifiers]
    refine ⟨fun declaration hdeclaration => ?_, fun edge _ => ?_⟩
    · obtain ⟨keys, node, hnode, rfl⟩ := (mem_declarations_outlineOf _ declaration).1 hdeclaration
      have hne := ((mem_nodesOfEntries_iff_at? h.proper keys node).1 hnode).1
      have hform := identifier_nodeDeclaration_form hne node
      exact ⟨hform.1, hform.2.1⟩
    · exact ⟨⟨Identifier.head?_ofPackage _, Identifier.dot_not_mem_ofPackage _⟩,
        Identifier.head?_ofPackage _, Identifier.dot_not_mem_ofPackage _⟩
  · rw [Outline.forall_mem_identifiers, unspaced_declarations_iff h]
    refine and_congr_right' ?_
    simp only [unspaced_ofPackage_iff, Prod.forall, Dependencies.mem_edges_ofRecords]
    constructor
    · intro hedges record hrecord name hname hkept
      exact hedges _ _ ⟨record, hrecord, rfl, name, hname, hkept, rfl⟩
    · rintro himports source target ⟨record, hrecord, rfl, name, hname, hkept, rfl⟩
      exact himports record hrecord name hname hkept

/-- A name reaches from its keyword to the semicolon, and gaps inside it are in four identifiers. -/
theorem identifiers_of_gaps :
    ∃ outline,
      Outline.read 2 (body {} (ofRecords [Record.ofLines "Foo.java".toList
          ["package a b;".toList, "import c d.E;".toList]])
        (some (Dependencies.ofRecords [] [Record.ofLines "Foo.java".toList
          ["package a b;".toList, "import c d.E;".toList]]))) = some outline ∧
      outline.identifiers (Dependencies.ofRecords [] [Record.ofLines "Foo.java".toList
          ["package a b;".toList, "import c d.E;".toList]])
        = ["_a b".toList, "_a b_Foo".toList, "_a b".toList, "_c d".toList] ∧
      ¬ Unspaced "_a b".toList := by
  have hrecord : Record.ofLines "Foo.java".toList
      ["package a b;".toList, "import c d.E;".toList]
        = ⟨"a b".toList, "Foo".toList, ["c d.E".toList]⟩ := by decide
  have hdependencies : Dependencies.ofRecords [] [⟨"a b".toList, "Foo".toList, ["c d.E".toList]⟩]
      = [("a b".toList, ["c d".toList])] := by decide
  have hread : (Outline.read 2 (body {} (ofRecords [⟨"a b".toList, "Foo".toList,
        ["c d.E".toList]⟩]) (some [("a b".toList, ["c d".toList])]))).map
          (Outline.identifiers · [("a b".toList, ["c d".toList])])
      = some ["_a b".toList, "_a b_Foo".toList, "_a b".toList, "_c d".toList] := by decide
  obtain ⟨outline, houtline, hidentifiers⟩ := Option.map_eq_some_iff.1 hread
  rw [hrecord, hdependencies]
  exact ⟨outline, houtline, hidentifiers, by decide⟩

end PackageAtlas.Diagram
