import PackageAtlas.Proofs.Destination
import PackageAtlas.Proofs.Diagram.Blocks
import PackageAtlas.Proofs.Diagram.Reordering
import PackageAtlas.Proofs.Utf8Decoding

set_option autoImplicit false

/-! # What a document tells

Labels are written as they are and identifiers do not tell names apart, and still a document shows
which classes a namespace holds: its bytes are a text, a text without newlines in its labels falls
into its lines in one way, and its lines are read in one way. Two documents are the same if and only
if the same classes are in the same packages (`written_eq_iff`). -/

namespace PackageAtlas

open PackageAtlas.Namespace PackageAtlas.Tree

/-! ## Texts and lines -/

/-- Ending each line is separating the lines and an empty one after them. -/
theorem Document.flatMap_eq_intercalate (lines : List Text) :
    lines.flatMap (· ++ ['\n']) = ['\n'].intercalate (lines ++ [[]]) := by
  induction lines with
  | nil => simp
  | cons line rest ih =>
      obtain ⟨next, more, hnext⟩ := List.exists_cons_of_ne_nil
        (List.append_ne_nil_of_right_ne_nil rest (List.cons_ne_nil [] []))
      rw [List.flatMap_cons, ih, List.cons_append, hnext, List.intercalate_cons_cons]

theorem Document.splitOn_flatMap {lines : List Text} (h : ∀ line ∈ lines, '\n' ∉ line) :
    (lines.flatMap (· ++ ['\n'])).splitOn '\n' = lines ++ [[]] := by
  rw [Document.flatMap_eq_intercalate]
  refine List.splitOn_intercalate '\n' (fun line hline => ?_) (by simp)
  rcases List.mem_append.1 hline with hline | hline
  · exact h line hline
  · simp [List.mem_singleton.1 hline]

/-- Documents of one layout have the same text only if they have the same body. -/
theorem Document.text_inj (layout : Layout) {body other : List Text}
    (hbody : ∀ line ∈ body, '\n' ∉ line) (hother : ∀ line ∈ other, '\n' ∉ line) :
    Document.text layout body = Document.text layout other ↔ body = other := by
  refine ⟨fun h => ?_, fun h => by rw [h]⟩
  -- the title may hold newlines, but is the same in both
  simp only [Document.text, Document.lines, List.flatMap_append, List.append_assoc] at h
  have hlines := List.append_cancel_right (List.append_cancel_left (List.append_cancel_left h))
  have hsplit := congrArg (List.splitOn '\n') hlines
  rw [Document.splitOn_flatMap hbody, Document.splitOn_flatMap hother] at hsplit
  exact List.append_cancel_right hsplit

/-- A destination with room for any number of bytes takes the whole document. -/
theorem Document.write_unbounded (layout : Layout) (body : List Text) (portion : Nat → Nat) :
    Document.write layout body { portion }
      = ({ written := Utf8.encode (Document.text layout body), portion }, none) := by
  have hroom : ∀ n, Destination.room { portion } n = n := fun _ => rfl
  rw [Document.write_eq, Destination.fill, Destination.report, hroom, if_pos rfl, List.take_length]
  rfl

namespace Diagram

/-! ## Lines without newlines -/

theorem newline_not_mem_declaration {keyword label identifier : Text} (hkeyword : '\n' ∉ keyword)
    (hlabel : '\n' ∉ label) (hidentifier : '\n' ∉ identifier) :
    '\n' ∉ declaration keyword label identifier := by
  simp [declaration, hkeyword, hlabel, hidentifier]

theorem newline_not_mem_pad (indent depth : Nat) : '\n' ∉ pad indent depth := by
  simp [pad]

theorem newline_not_mem_classLine (indent depth : Nat) {path key : Text} {record : Record}
    (hpath : '\n' ∉ path) (hkey : '\n' ∉ key) (hname : '\n' ∉ record.className) :
    '\n' ∉ classLine indent depth path key record := by
  have hidentifier : '\n' ∉ Identifier.ofClass path key := fun hmem => by
    rcases Identifier.mem_ofClass hmem with hc | hc | hc
    · exact absurd hc (by decide)
    · exact hpath hc
    · exact hkey hc
  have hdeclaration : '\n' ∉ declaration "class".toList record.className
      (Identifier.ofClass path key) :=
    newline_not_mem_declaration (by decide) hname hidentifier
  rw [classLine, List.mem_append, not_or]
  exact ⟨newline_not_mem_pad indent depth, hdeclaration⟩

theorem newline_not_mem_packageLine (indent depth : Nat) {path key : Text} (hpath : '\n' ∉ path)
    (hkey : '\n' ∉ key) : '\n' ∉ packageLine indent depth path key := by
  have hidentifier : '\n' ∉ Identifier.ofPackage path := fun hmem =>
    (Identifier.mem_ofPackage hmem).elim (by decide) hpath
  have hdeclaration : '\n' ∉ declaration "package".toList key (Identifier.ofPackage path) :=
    newline_not_mem_declaration (by decide) hkey hidentifier
  rw [packageLine, List.mem_append, not_or]
  exact ⟨newline_not_mem_pad indent depth, hdeclaration⟩

theorem mem_entriesLines (indent depth : Nat) (path line : Text) (entries : List (Text × Tree)) :
    line ∈ entriesLines indent depth path entries
      ↔ ∃ entry ∈ entries, line ∈ entryLines indent depth path entry.1 entry.2 := by
  induction entries with
  | nil => simp [entriesLines]
  | cons entry rest ih =>
      obtain ⟨key, tree⟩ := entry
      simp only [entriesLines, List.mem_append, ih, List.mem_cons, exists_eq_or_imp]

/-- Whether no key of a binding and no name has a newline. -/
def OneLine (b : List Text × Record) : Prop :=
  ∀ key ∈ b.1 ++ [b.2.className], '\n' ∉ key

theorem oneLine_under (key : Text) (b : List Text × Record) :
    OneLine (under key b) ↔ '\n' ∉ key ∧ OneLine b :=
  List.forall_mem_cons

/-- What the bindings of entries say of one of these: it is not empty, so its key is among the keys
of some class. -/
theorem oneLine_of_mem_entries {entries : List (Text × Tree)} (hproper : ProperEntries entries)
    (h : ∀ b ∈ bindingsOfEntries entries, OneLine b) {entry : Text × Tree}
    (hentry : entry ∈ entries) : '\n' ∉ entry.1 ∧ ∀ b ∈ entry.2.bindings, OneLine b := by
  have hinner : ∀ b ∈ entry.2.bindings, '\n' ∉ entry.1 ∧ OneLine b := fun b hb =>
    (oneLine_under entry.1 b).1 (h _ ((mem_bindingsOfEntries _ _).2 ⟨entry, hentry, b, hb, rfl⟩))
  obtain ⟨b, hb⟩ := List.exists_mem_of_ne_nil _ (bindings_ne_nil (hproper.proper hentry))
  exact ⟨(hinner b hb).1, fun b hb => (hinner b hb).2⟩

theorem newline_not_mem_entryLines {indent : Nat} {tree : Tree} (h : tree.Proper) :
    ∀ (depth : Nat) (path key : Text), '\n' ∉ path → '\n' ∉ key → (∀ b ∈ tree.bindings, OneLine b) →
      ∀ line ∈ entryLines indent depth path key tree, '\n' ∉ line := by
  induction tree using entry_induction with
  | cls record =>
      intro depth path key hpath hkey hbindings line hline
      rw [entryLines, List.mem_singleton] at hline
      rw [hline]
      have hname : '\n' ∉ record.className := hbindings ([], record) (by simp) _ (by simp)
      exact newline_not_mem_classLine _ _ hpath hkey hname
  | package entries ih =>
      intro depth path key hpath hkey hbindings line hline
      obtain ⟨-, hproper⟩ := (proper_package entries).1 h
      rw [bindings_package] at hbindings
      have hnext : '\n' ∉ Identifier.extend path key := fun hmem => by
        rcases Identifier.mem_extend hmem with hc | hc | hc
        · exact absurd hc (by decide)
        · exact hpath hc
        · exact hkey hc
      rw [entryLines, List.mem_cons, List.mem_cons, List.mem_append, List.mem_singleton] at hline
      rcases hline with rfl | rfl | hline | rfl
      · exact newline_not_mem_packageLine _ _ hnext hkey
      · simp [openLine, newline_not_mem_pad]
      · obtain ⟨entry, hentry, hline⟩ := (mem_entriesLines ..).1 hline
        obtain ⟨hinner, hbelow⟩ := oneLine_of_mem_entries hproper hbindings hentry
        exact ih entry hentry (hproper.proper hentry) _ _ _ hnext hinner hbelow line hline
      · simp [closeLine, newline_not_mem_pad]

theorem oneLine_path {record : Record}
    (h : '\n' ∉ record.package ∧ '\n' ∉ record.className) : OneLine (record.path, record) := by
  intro key hkey
  rcases List.mem_append.1 hkey with hkey | hkey
  · exact Record.not_mem_of_mem_path h.1 h.2 key hkey
  · exact List.mem_singleton.1 hkey ▸ h.2

theorem newline_not_mem_body (layout : Layout) {records : List Record}
    (h : ∀ record ∈ records, '\n' ∉ record.package ∧ '\n' ∉ record.className) :
    ∀ line ∈ body layout (ofRecords records) none, '\n' ∉ line := by
  have hvalid := valid_ofRecords records
  have hbindings : ∀ b ∈ bindingsOfEntries (ofRecords records).tree.entries, OneLine b := by
    intro b hb
    obtain ⟨record, hrecord, rfl⟩ := exists_record_of_mem_bindings hb
    exact oneLine_path (h record hrecord)
  intro line hline
  rw [body, tree_eq_package hvalid.sound, treeLines, Option.map_none, Option.getD_none,
    List.append_nil] at hline
  obtain ⟨entry, hentry, hline⟩ := (mem_entriesLines ..).1 hline
  obtain ⟨hkey, hbelow⟩ := oneLine_of_mem_entries hvalid.proper hbindings hentry
  exact newline_not_mem_entryLines (hvalid.proper.proper hentry) 0 [] entry.1 List.not_mem_nil hkey
    hbelow line hline

/-! ## Bodies and classes -/

theorem paths_leaves {ns : Namespace} (h : Valid ns) :
    ns.leaves.map Record.path = ns.tree.bindings.map Prod.fst := by
  rw [leaves_eq_bindings, List.map_map]
  exact List.map_congr_left fun b hb => (h.located b hb).symm

/-- The body of a namespace shows the paths of its classes and nothing else. -/
theorem body_eq_iff {ns other : Namespace} (h : Valid ns) (ho : Valid other) (layout : Layout) :
    body layout ns none = body layout other none
      ↔ ns.leaves.map Record.path = other.leaves.map Record.path := by
  constructor
  · intro hbody
    have hread := read_body h layout none
    rw [hbody, read_body ho layout none] at hread
    have hclasses := congrArg (fun outline =>
      (outline.declarations.filter Declaration.isClass).map Declaration.keys)
        (Option.some.inj hread)
    have hkeys : ∀ record : Record, (entryDeclaration record.segments record.className
        (.cls record)).keys = record.path := fun record => keys_entryDeclaration ..
    simpa only [classes_outlineOf h, classes_outlineOf ho, List.map_map, Function.comp_def, hkeys]
      using hclasses.symm
  · intro hpaths
    rw [paths_leaves h, paths_leaves ho] at hpaths
    rw [body, body, treeLines_eq_of_paths_eq h ho hpaths]

/-- Where `f` determines `g` and its values on one list are among those on another, so are the
values of `g`. -/
theorem forall_mem_map {α β : Type} {f : Record → α} {g : Record → β} {records others : List Record}
    (hfg : ∀ a b, f a = f b → g a = g b) (h : ∀ x ∈ records.map f, x ∈ others.map f) :
    ∀ y ∈ records.map g, y ∈ others.map g := by
  intro y hy
  obtain ⟨a, ha, rfl⟩ := List.mem_map.1 hy
  obtain ⟨b, hb, hba⟩ := List.mem_map.1 (h (f a) (List.mem_map_of_mem ha))
  exact List.mem_map.2 ⟨b, hb, hfg b a hba⟩

/-- Classes come in the order of their paths, so it is enough to know which there are. -/
theorem paths_leaves_eq_iff {ns other : Namespace} (h : Valid ns) (ho : Valid other) :
    ns.leaves.map Record.path = other.leaves.map Record.path
      ↔ ∀ pair, pair ∈ ns.leaves.map (fun record => (record.package, record.className))
          ↔ pair ∈ other.leaves.map fun record => (record.package, record.className) := by
  have hpair : ∀ a b : Record, a.path = b.path →
      (a.package, a.className) = (b.package, b.className) := fun a b => (Record.path_eq_iff a b).1
  have hpath : ∀ a b : Record, (a.package, a.className) = (b.package, b.className) →
      a.path = b.path := fun a b => (Record.path_eq_iff a b).2
  constructor
  · intro hpaths pair
    exact ⟨forall_mem_map hpair (fun _ hx => hpaths ▸ hx) pair,
      forall_mem_map hpair (fun _ hx => hpaths ▸ hx) pair⟩
  · intro hpairs
    have hstrict := h.paths_strict
    have hstrict' := ho.paths_strict
    rw [← paths_leaves h] at hstrict
    rw [← paths_leaves ho] at hstrict'
    exact hstrict.eq_of_mem_iff hstrict' fun path =>
      ⟨forall_mem_map hpath (fun pair => (hpairs pair).1) path,
        forall_mem_map hpath (fun pair => (hpairs pair).2) path⟩

/-- **Two documents of one layout are the same if and only if the same classes are in the same
packages**, for names without newlines. -/
theorem written_eq_iff (layout : Layout) (records others : List Record)
    (hrecords : ∀ record ∈ records, '\n' ∉ record.package ∧ '\n' ∉ record.className)
    (hothers : ∀ record ∈ others, '\n' ∉ record.package ∧ '\n' ∉ record.className)
    (portion portion' : Nat → Nat) :
    ∃ written written',
      Document.write layout (body layout (ofRecords records) none) { portion }
        = ({ written, portion }, none) ∧
      Document.write layout (body layout (ofRecords others) none) { portion := portion' }
        = ({ written := written', portion := portion' }, none) ∧
      (written = written' ↔ ∀ pair,
        pair ∈ (ofRecords records).leaves.map (fun record => (record.package, record.className))
          ↔ pair ∈ (ofRecords others).leaves.map
              fun record => (record.package, record.className)) := by
  have h := valid_ofRecords records
  have ho := valid_ofRecords others
  refine ⟨_, _, Document.write_unbounded .., Document.write_unbounded .., ?_⟩
  rw [Utf8.encode_injective.eq_iff, Document.text_inj layout (newline_not_mem_body layout hrecords)
    (newline_not_mem_body layout hothers), body_eq_iff h ho, paths_leaves_eq_iff h ho]

/-- The packages `a.b` and `a_b` have one identifier, and the documents differ all the same. -/
theorem written_ne_of_shared_identifier :
    (Document.write {} (body {} (ofRecords [⟨"a.b".toList, "C".toList, []⟩]) none)
        { portion := id }).1.written
      ≠ (Document.write {} (body {} (ofRecords [⟨"a_b".toList, "C".toList, []⟩]) none)
          { portion := id }).1.written := by
  obtain ⟨written, written', hwrite, hwrite', hiff⟩ := written_eq_iff {}
    [⟨"a.b".toList, "C".toList, []⟩] [⟨"a_b".toList, "C".toList, []⟩] (by decide) (by decide) id id
  rw [hwrite, hwrite']
  intro hwritten
  exact absurd ((hiff.1 hwritten ("a.b".toList, "C".toList)).1 (by decide)) (by decide)

end Diagram

end PackageAtlas
