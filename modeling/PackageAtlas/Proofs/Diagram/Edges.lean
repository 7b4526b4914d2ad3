import PackageAtlas.Proofs.Dependencies
import PackageAtlas.Proofs.Diagram.Blocks
import PackageAtlas.Proofs.Namespace.Survivors

set_option autoImplicit false

/-! # Edges and the blocks they join

A block has the identifier of the path that the drawing extended key by key, an edge that of a
package's whole name, which was cut from an import. Where no package begins with a dot the two are
one text, so an import of a class that is drawn gives an edge from the block of the importing class
to the block of the imported one (`edge_joins_blocks`). -/

namespace PackageAtlas.Diagram

open PackageAtlas.Namespace

/-- Whether `declaration` is what was read on the line of the class of `record`. -/
def Outline.Shows (outline : Outline) (record : Record) (declaration : Declaration) : Prop :=
  declaration ∈ outline.declarations ∧ declaration.isClass ∧ declaration.keys = record.path

/-- The line of a class is the only one with the keys of its path. -/
theorem shows_outlineOf {ns : Namespace} (h : Valid ns) (dependencies : Option Dependencies)
    {record : Record} (hrecord : record ∈ ns.leaves) (declaration : Declaration) :
    (outlineOf ns dependencies).Shows record declaration
      ↔ declaration = entryDeclaration record.segments record.className (.cls record) := by
  have hkeys : ∀ leaf : Record,
      (entryDeclaration leaf.segments leaf.className (.cls leaf)).keys = leaf.path := fun leaf =>
    keys_entryDeclaration ..
  rw [Outline.Shows, ← and_assoc, ← List.mem_filter, classes_outlineOf h, List.mem_map]
  constructor
  · rintro ⟨⟨leaf, -, rfl⟩, hpath⟩
    rw [hkeys] at hpath
    rw [Record.segments_eq_of_path_eq hpath, Record.className_eq_of_path_eq hpath]
    rfl
  · rintro rfl
    exact ⟨⟨record, hrecord, rfl⟩, hkeys record⟩

/-- The innermost block along `keys` has the identifier of their path. -/
theorem getLast?_headings {keys : List Text} (h : keys ≠ []) :
    (headings keys).getLast?.map Heading.identifier
      = some (Identifier.ofPackage (Identifier.pathOf keys)) := by
  obtain ⟨front, key, rfl⟩ := (List.eq_nil_or_concat' keys).resolve_left h
  rw [headings_concat, List.getLast?_concat, Identifier.pathOf_concat]
  rfl

/-- The block around a class has the identifier of its package. -/
theorem exists_block {record : Record} (h : record.package.head? ≠ some '.') :
    ∃ block,
      (entryDeclaration record.segments record.className (.cls record)).around.getLast?
          = some block ∧
      block.identifier = Identifier.ofPackage record.package := by
  have hlast := getLast?_headings record.segments_ne_nil
  rw [Identifier.pathOf_segments h] at hlast
  exact Option.map_eq_some_iff.1 hlast

/-- An import of a class gives a line with the identifiers of both packages. -/
theorem edgeLine_mem_body (layout : Layout) (ns : Namespace) {ignored : List Text}
    {records : List Record} {importer imported : Record} (himporter : importer ∈ records)
    (himport : imported.qualifiedName ∈ importer.dependencies)
    (hkept : ∀ start ∈ ignored, ¬ start <+: imported.qualifiedName)
    (hname : '.' ∉ imported.className) :
    edgeLine importer.package imported.package
      ∈ body layout ns (some (Dependencies.ofRecords ignored records)) := by
  have hedge := (Dependencies.mem_edges_ofRecords ignored records importer.package
    imported.package).2 ⟨importer, himporter, rfl, imported.qualifiedName, himport, hkept,
      Dependencies.containingPackage_qualifiedName hname⟩
  refine List.mem_append_right _ ?_
  exact List.mem_map.2 ⟨(importer.package, imported.package), hedge, rfl⟩

/-- **An edge joins the blocks it means.** If a class imports another, both are drawn and nothing
ignores the name, there is a line that leads from the identifier of the block directly around the
one to the identifier of the block directly around the other. -/
theorem edge_joins_blocks (layout : Layout) (records : List Record) (ignored : List Text)
    {importer imported : Record} (himporter : importer ∈ (ofRecords records).leaves)
    (himported : imported ∈ (ofRecords records).leaves)
    (himport : imported.qualifiedName ∈ importer.dependencies)
    (hkept : ∀ start ∈ ignored, ¬ start <+: imported.qualifiedName)
    (hname : '.' ∉ imported.className)
    (hsource : importer.package.head? ≠ some '.') (htarget : imported.package.head? ≠ some '.') :
    ∃ outline source target sourceBlock targetBlock,
      Outline.read layout.indent (body layout (ofRecords records)
        (some (Dependencies.ofRecords ignored records))) = some outline ∧
      (∀ declaration, outline.Shows importer declaration ↔ declaration = source) ∧
      (∀ declaration, outline.Shows imported declaration ↔ declaration = target) ∧
      source.around.getLast? = some sourceBlock ∧ target.around.getLast? = some targetBlock ∧
      sourceBlock.identifier ++ " --> ".toList ++ targetBlock.identifier
        ∈ body layout (ofRecords records) (some (Dependencies.ofRecords ignored records)) := by
  have h := valid_ofRecords records
  obtain ⟨sourceBlock, hsourceBlock, hsourceId⟩ := exists_block hsource
  obtain ⟨targetBlock, htargetBlock, htargetId⟩ := exists_block htarget
  refine ⟨_, _, _, sourceBlock, targetBlock, read_body h layout _, shows_outlineOf h _ himporter,
    shows_outlineOf h _ himported, hsourceBlock, htargetBlock, ?_⟩
  rw [hsourceId, htargetId]
  have hrecord := mem_of_mem_survivors ((mem_leaves_ofRecords importer records).1 himporter)
  exact edgeLine_mem_body layout _ hrecord himport hkept hname

/-- The edge from the package `a` to `c.d` joins blocks at different levels of nesting. -/
theorem edge_joins_blocks_levels : ∃ outline source target sourceBlock targetBlock,
    Outline.read 2 (body {} (ofRecords [⟨"a".toList, "B".toList, ["c.d.E".toList]⟩,
        ⟨"c.d".toList, "E".toList, []⟩])
      (some (Dependencies.ofRecords ["java.".toList] [⟨"a".toList, "B".toList, ["c.d.E".toList]⟩,
        ⟨"c.d".toList, "E".toList, []⟩]))) = some outline ∧
    (∀ declaration,
      outline.Shows ⟨"a".toList, "B".toList, ["c.d.E".toList]⟩ declaration ↔ declaration = source) ∧
    (∀ declaration,
      outline.Shows ⟨"c.d".toList, "E".toList, []⟩ declaration ↔ declaration = target) ∧
    source.around.getLast? = some sourceBlock ∧ target.around.getLast? = some targetBlock ∧
    sourceBlock.identifier ++ " --> ".toList ++ targetBlock.identifier
      ∈ body {} (ofRecords [⟨"a".toList, "B".toList, ["c.d.E".toList]⟩,
        ⟨"c.d".toList, "E".toList, []⟩])
      (some (Dependencies.ofRecords ["java.".toList] [⟨"a".toList, "B".toList, ["c.d.E".toList]⟩,
        ⟨"c.d".toList, "E".toList, []⟩])) :=
  edge_joins_blocks {} _ ["java.".toList] (by decide) (by decide) (by decide) (by decide)
    (by decide) (by decide) (by decide)

end PackageAtlas.Diagram
