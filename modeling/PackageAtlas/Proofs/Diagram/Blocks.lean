import PackageAtlas.Proofs.Diagram.Outline
import PackageAtlas.Proofs.Namespace.Reachable
import PackageAtlas.Proofs.Tree.Nodes
import PackageAtlas.Proofs.Utf8Order

set_option autoImplicit false

/-! # The blocks of a drawing

Whoever reads the body of a namespace line by line finds every node of its tree, each inside the
blocks of the packages that lead to it (`read_body`). The drawing recurses over the entries with the
depth and the path handed down, and the reader has only the blocks that are open: `headings` is what
these are at the end of a list of keys, and the induction carries that they agree. -/

namespace PackageAtlas.Diagram

open PackageAtlas.Namespace PackageAtlas.Tree

/-! ## What stands on the lines -/

/-- The line of the class `key` in the package at the end of `front`. -/
def classHeading (front : List Text) (key : Text) : Heading :=
  ⟨key, Identifier.ofClass (Identifier.pathOf front) key⟩

/-- The line of the package `key` in the package at the end of `front`. -/
def packageHeading (front : List Text) (key : Text) : Heading :=
  ⟨key, Identifier.ofPackage (Identifier.extend (Identifier.pathOf front) key)⟩

/-- The lines of the packages along `keys`, when those along `front` come before them. -/
def headingsFrom (front : List Text) : List Text → List Heading
  | [] => []
  | key :: rest => packageHeading front key :: headingsFrom (front ++ [key]) rest

/-- The lines of the packages along `keys` from the root. -/
def headings (keys : List Text) : List Heading :=
  headingsFrom [] keys

theorem labels_headingsFrom (keys : List Text) :
    ∀ front, (headingsFrom front keys).map Heading.label = keys := by
  induction keys with
  | nil => exact fun _ => rfl
  | cons key rest ih => exact fun _ => congrArg (key :: ·) (ih _)

@[simp] theorem labels_headings (keys : List Text) : (headings keys).map Heading.label = keys :=
  labels_headingsFrom keys []

@[simp] theorem length_headings (keys : List Text) : (headings keys).length = keys.length := by
  rw [← List.length_map Heading.label, labels_headings]

theorem headingsFrom_concat (keys : List Text) (key : Text) :
    ∀ front, headingsFrom front (keys ++ [key])
      = headingsFrom front keys ++ [packageHeading (front ++ keys) key] := by
  induction keys with
  | nil => simp [headingsFrom]
  | cons first rest ih =>
      intro front
      rw [List.cons_append, headingsFrom, headingsFrom, ih, List.append_assoc,
        List.singleton_append, List.cons_append]

theorem headings_concat (keys : List Text) (key : Text) :
    headings (keys ++ [key]) = headings keys ++ [packageHeading keys key] :=
  headingsFrom_concat keys key []

/-- The line of the entry under `key` in the package at the end of `front`. -/
def entryDeclaration (front : List Text) (key : Text) : Tree → Declaration
  | .cls _ => ⟨true, headings front, classHeading front key⟩
  | .package _ => ⟨false, headings front, packageHeading front key⟩

/-- The line of the node at the end of `keys`, which is not the root. -/
def nodeDeclaration (keys : List Text) (node : Tree) : Declaration :=
  entryDeclaration keys.dropLast (keys.getLast?.getD []) node

@[simp] theorem nodeDeclaration_concat (front : List Text) (key : Text) (node : Tree) :
    nodeDeclaration (front ++ [key]) node = entryDeclaration front key node := by
  rw [nodeDeclaration, List.dropLast_concat, List.getLast?_concat, Option.getD_some]

theorem keys_entryDeclaration (front : List Text) (key : Text) (node : Tree) :
    (entryDeclaration front key node).keys = front ++ [key] := by
  cases node <;> simp [entryDeclaration, Declaration.keys, classHeading, packageHeading]

theorem keys_nodeDeclaration {keys : List Text} (h : keys ≠ []) (node : Tree) :
    (nodeDeclaration keys node).keys = keys := by
  obtain ⟨front, key, rfl⟩ := (List.eq_nil_or_concat' keys).resolve_left h
  rw [nodeDeclaration_concat, keys_entryDeclaration]

/-! ## Reading on -/

namespace Outline

theorem readFrom_cons (indent : Nat) (line : Text) (rest : List Text) (outline : Outline) :
    readFrom indent (line :: rest) outline
      = (step indent outline line).bind (readFrom indent rest) :=
  rfl

theorem readFrom_append (indent : Nat) (lines more : List Text) (outline : Outline) :
    readFrom indent (lines ++ more) outline
      = (readFrom indent lines outline).bind (readFrom indent more) :=
  List.foldlM_append

/-- After all lines of the entry under `key` in the package at the end of `front`. -/
def afterEntry (outline : Outline) (front : List Text) (key : Text) (tree : Tree) : Outline :=
  { outline with
    latest := some key, inhabited := true,
    declarations := outline.declarations
      ++ tree.nodes.map fun node => nodeDeclaration (front ++ key :: node.1) node.2 }

/-- After all lines of entries of the package at the end of `front`. -/
def afterEntries (outline : Outline) (front : List Text) (entries : List (Text × Tree)) : Outline :=
  { outline with
    latest := (entries.getLast?.map Prod.fst).or outline.latest,
    inhabited := outline.inhabited || !entries.isEmpty,
    declarations := outline.declarations
      ++ (nodesOfEntries entries).map fun node => nodeDeclaration (front ++ node.1) node.2 }

theorem afterEntries_nil (outline : Outline) (front : List Text) :
    outline.afterEntries front [] = outline := by
  simp [afterEntries]

theorem afterEntries_cons (outline : Outline) (front : List Text) (key : Text) (tree : Tree)
    (rest : List (Text × Tree)) : outline.afterEntries front ((key, tree) :: rest)
      = (outline.afterEntry front key tree).afterEntries front rest := by
  cases h : rest.getLast? <;>
    simp [afterEntries, afterEntry, List.getLast?_cons, h, Function.comp_def, nodeUnder]

/-- Where the open blocks are the packages along `front` and an entry may come. -/
structure Inside (outline : Outline) (front : List Text) : Prop where
  blocks : outline.blocks = headings front
  announced : outline.announced = none

theorem Inside.path {outline : Outline} {front : List Text} (h : outline.Inside front) :
    outline.path = Identifier.pathOf front := by
  rw [Outline.path, h.blocks, labels_headings]

theorem Inside.depth {outline : Outline} {front : List Text} (h : outline.Inside front) :
    outline.blocks.length = front.length := by
  rw [h.blocks, length_headings]

/-- Inside the block of the package `key` in the package at the end of `front`. -/
def within (outline : Outline) (front : List Text) (key : Text) : Outline :=
  (outline.announce (packageHeading front key)).enter (packageHeading front key)

theorem Inside.within {outline : Outline} {front : List Text} (h : outline.Inside front)
    (key : Text) : (outline.within front key).Inside (front ++ [key]) := by
  refine ⟨?_, rfl⟩
  rw [headings_concat, ← h.blocks]
  rfl

/-! ## Entries -/

/-- Entries in order are read one after the other. -/
theorem readFrom_entriesLines_of {indent : Nat} {front : List Text} {entries : List (Text × Tree)}
    (hs : Table.Sorted entries)
    (h : ∀ entry ∈ entries, ∀ outline : Outline, outline.Inside front → outline.Precedes entry.1 →
      readFrom indent
          (entryLines indent front.length (Identifier.pathOf front) entry.1 entry.2) outline
        = some (outline.afterEntry front entry.1 entry.2)) :
    ∀ outline : Outline, outline.Inside front → (∀ entry ∈ entries, outline.Precedes entry.1) →
      readFrom indent (entriesLines indent front.length (Identifier.pathOf front) entries) outline
        = some (outline.afterEntries front entries) := by
  induction entries with
  | nil =>
      intro outline _ _
      rw [entriesLines, afterEntries_nil]
      rfl
  | cons entry rest ih =>
      obtain ⟨key, tree⟩ := entry
      obtain ⟨hhead, hrest⟩ := List.pairwise_cons.1 hs
      intro outline hinside hprecedes
      rw [entriesLines, readFrom_append, h _ (List.mem_cons_self ..) outline hinside
        (hprecedes _ (List.mem_cons_self ..)), Option.bind_some, afterEntries_cons]
      refine ih hrest (fun e he => h e (List.mem_cons_of_mem _ he)) _
        ⟨hinside.blocks, hinside.announced⟩ fun e he before hbefore => ?_
      -- the key just read is the one before, and the table is in order
      obtain rfl : key = before := Option.some.inj hbefore
      exact Utf8.encode_lt_encode (hhead e he)

/-- A block is read from a state with nothing in it yet, and ends where it began. -/
theorem readFrom_entryLines_package {indent : Nat} {front : List Text} {key : Text}
    {entries : List (Text × Tree)} (hne : entries ≠ [])
    (h : ∀ outline : Outline, outline.Inside (front ++ [key]) →
      (∀ entry ∈ entries, outline.Precedes entry.1) →
      readFrom indent (entriesLines indent (front ++ [key]).length
          (Identifier.pathOf (front ++ [key])) entries) outline
        = some (outline.afterEntries (front ++ [key]) entries))
    {outline : Outline} (hinside : outline.Inside front) (hprecedes : outline.Precedes key) :
    readFrom indent
        (entryLines indent front.length (Identifier.pathOf front) key (.package entries)) outline
      = some (outline.afterEntry front key (.package entries)) := by
  have hpackage : step indent outline (packageLine indent front.length
      (Identifier.extend (Identifier.pathOf front) key) key)
        = some (outline.announce (packageHeading front key)) := by
    rw [← hinside.depth, ← hinside.path, step_packageLine hinside.announced hprecedes,
      hinside.path]
    rfl
  have hopen : step indent (outline.announce (packageHeading front key))
      (openLine indent front.length) = some (outline.within front key) := by
    rw [← hinside.depth]
    exact step_openLine rfl
  have hentries := h (outline.within front key) (hinside.within key)
    fun _ _ _ hbefore => nomatch hbefore
  rw [Identifier.pathOf_concat, List.length_append, List.length_singleton] at hentries
  have hclose : step indent ((outline.within front key).afterEntries (front ++ [key]) entries)
      (closeLine indent front.length)
        = some (outline.afterEntry front key (.package entries)) := by
    rw [← hinside.depth, step_closeLine rfl rfl (by simp [afterEntries, hne])]
    simp [within, enter, announce, leave, afterEntries, afterEntry, hinside.blocks,
      hinside.announced, entryDeclaration, packageHeading, hne]
  rw [entryLines, readFrom_cons, hpackage, Option.bind_some, readFrom_cons, hopen,
    Option.bind_some, readFrom_append, hentries, Option.bind_some, readFrom_cons, hclose]
  rfl

/-- **The lines of an entry show its nodes**, each in the blocks of the packages around it. -/
theorem readFrom_entryLines (indent : Nat) {tree : Tree} (h : tree.Proper) :
    ∀ (front : List Text) (key : Text), (∀ b ∈ tree.bindings, front ++ key :: b.1 = b.2.path) →
      ∀ outline : Outline, outline.Inside front → outline.Precedes key →
        readFrom indent (entryLines indent front.length (Identifier.pathOf front) key tree) outline
          = some (outline.afterEntry front key tree) := by
  induction tree using entry_induction with
  | cls record =>
      intro front key hlocated outline hinside hprecedes
      have hpath : front ++ [key] = record.path := hlocated ([], record) (by simp)
      have hkey : key = record.className := by
        have hlast := congrArg List.getLast? hpath
        rw [List.getLast?_concat, Record.getLast?_path] at hlast
        exact Option.some.inj hlast
      rw [entryLines, readFrom_cons, ← hinside.depth, ← hinside.path,
        step_classLine hkey hinside.announced hprecedes, Option.bind_some, hinside.path]
      simp [readFrom, declare, afterEntry, entryDeclaration, classHeading, hinside.blocks]
  | package entries ih =>
      intro front key hlocated outline hinside hprecedes
      obtain ⟨hne, hproper⟩ := (proper_package entries).1 h
      refine readFrom_entryLines_package hne ?_ hinside hprecedes
      refine readFrom_entriesLines_of hproper.sorted fun e he =>
        ih e he (hproper.proper he) (front ++ [key]) e.1 fun b hb => ?_
      have hmem : under e.1 b ∈ bindingsOfEntries entries :=
        (mem_bindingsOfEntries _ entries).2 ⟨e, he, b, hb, rfl⟩
      rw [List.append_assoc, List.singleton_append]
      exact hlocated _ (bindings_package entries ▸ hmem)

/-- The lines of all entries of a package. -/
theorem readFrom_entriesLines (indent : Nat) {entries : List (Text × Tree)}
    (h : ProperEntries entries) (front : List Text)
    (hlocated : ∀ b ∈ bindingsOfEntries entries, front ++ b.1 = b.2.path) :
    ∀ outline : Outline, outline.Inside front → (∀ entry ∈ entries, outline.Precedes entry.1) →
      readFrom indent (entriesLines indent front.length (Identifier.pathOf front) entries) outline
        = some (outline.afterEntries front entries) :=
  readFrom_entriesLines_of h.sorted fun e he =>
    readFrom_entryLines indent (h.proper he) front e.1 fun b hb =>
      hlocated _ ((mem_bindingsOfEntries _ entries).2 ⟨e, he, b, hb, rfl⟩)

/-! ## Dependencies -/

theorem readFrom_edges (indent : Nat) (pairs : List (Text × Text)) :
    ∀ outline : Outline, outline.Inside [] →
      readFrom indent (pairs.map fun pair => edgeLine pair.1 pair.2) outline
        = some { outline with
            edges := outline.edges ++ pairs.map fun pair => edgeLine pair.1 pair.2 } := by
  induction pairs with
  | nil => simp [readFrom]
  | cons pair rest ih =>
      intro outline hinside
      rw [List.map_cons, readFrom_cons, step_edgeLine hinside.announced hinside.blocks,
        Option.bind_some, ih (outline.connect _) ⟨hinside.blocks, hinside.announced⟩,
        List.append_cons]
      rfl

end Outline

/-! ## Whole bodies -/

/-- What a reader knows at the end of the body of a namespace. -/
def outlineOf (ns : Namespace) (dependencies : Option Dependencies) : Outline :=
  { ({} : Outline).afterEntries [] ns.tree.entries with
    edges := (dependencies.map edgeLines).getD [] }

theorem declarations_outlineOf (ns : Namespace) (dependencies : Option Dependencies) :
    (outlineOf ns dependencies).declarations
      = (nodesOfEntries ns.tree.entries).map fun node => nodeDeclaration node.1 node.2 :=
  rfl

theorem mem_declarations_outlineOf {ns : Namespace} (dependencies : Option Dependencies)
    (declaration : Declaration) : declaration ∈ (outlineOf ns dependencies).declarations
      ↔ ∃ keys node, (keys, node) ∈ nodesOfEntries ns.tree.entries
          ∧ nodeDeclaration keys node = declaration := by
  rw [declarations_outlineOf, List.mem_map, Prod.exists]

/-- **A body is read to its end**, and its declarations are the nodes of the tree. -/
theorem read_body {ns : Namespace} (h : Valid ns) (layout : Layout)
    (dependencies : Option Dependencies) :
    Outline.read layout.indent (body layout ns dependencies)
      = some (outlineOf ns dependencies) := by
  have hlocated := h.located
  rw [bindings_tree h.sound] at hlocated
  have htree : Outline.readFrom layout.indent (treeLines layout.indent ns.tree) {}
      = some (({} : Outline).afterEntries [] ns.tree.entries) := by
    rw [tree_eq_package h.sound, treeLines]
    exact Outline.readFrom_entriesLines layout.indent h.proper [] hlocated {} ⟨rfl, rfl⟩
      fun _ _ _ hbefore => nomatch hbefore
  rw [Outline.read, body, Outline.readFrom_append, htree, Option.bind_some]
  cases dependencies with
  | none => rfl
  | some dependencies => exact Outline.readFrom_edges layout.indent _ _ ⟨rfl, rfl⟩

/-- The classes that are declared are the classes of the namespace, in the same order. -/
theorem classes_outlineOf {ns : Namespace} (h : Valid ns) (dependencies : Option Dependencies) :
    (outlineOf ns dependencies).declarations.filter Declaration.isClass
      = ns.leaves.map fun record =>
          entryDeclaration record.segments record.className (.cls record) := by
  have hclass : Declaration.isClass ∘ (fun node : List Text × Tree => nodeDeclaration node.1 node.2)
      = fun node => node.2.isClass := by
    funext ⟨keys, node⟩
    cases node <;> rfl
  rw [declarations_outlineOf, List.filter_map, hclass, filter_isClass_nodesOfEntries,
    leaves_eq_bindings, bindings_tree h.sound, List.map_map, List.map_map]
  refine List.map_congr_left fun b hb => ?_
  have hpath : b.1 = b.2.segments ++ [b.2.className] :=
    h.located b (bindings_tree h.sound ▸ hb)
  simp only [Function.comp_apply, hpath, nodeDeclaration_concat]

/-- **The blocks of a drawing are those of the packages.** A body without dependencies is read from
the first line to the last: all padding is right, every block that is opened is closed and has a
class in it, the entries of a block are in order, and the labels of the open blocks at the line of a
class, with its own label, are the segments of its package and its name. -/
theorem read_body_classes (records : List Record) (layout : Layout) :
    ∃ outline, Outline.read layout.indent (body layout (ofRecords records) none) = some outline ∧
      outline.blocks = [] ∧ outline.announced = none ∧ outline.edges = [] ∧
      ((outline.declarations.filter Declaration.isClass).map fun declaration =>
          (declaration.around.map Heading.label, declaration.heading.label))
        = (ofRecords records).leaves.map fun record => (record.segments, record.className) := by
  have h := valid_ofRecords records
  refine ⟨_, read_body h layout none, rfl, rfl, rfl, ?_⟩
  rw [classes_outlineOf h, List.map_map]
  refine List.map_congr_left fun record _ => ?_
  simp [entryDeclaration, classHeading]

-- a label that looks like the end of another is read as a whole
example : (Outline.read 1 (body ⟨1, none⟩ (ofRecords [⟨"a.b".toList, "C\" as D".toList, []⟩])
    none)).map (fun outline => outline.declarations.map Declaration.keys)
      = some [["a".toList], ["a".toList, "b".toList],
        ["a".toList, "b".toList, "C\" as D".toList]] := by
  decide

end PackageAtlas.Diagram
