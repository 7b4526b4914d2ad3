import PackageAtlas.Proofs.Diagram.Blocks
import PackageAtlas.Proofs.Namespace.Survivors

set_option autoImplicit false

/-! # Where blocks and dependencies name a package alike

The path of a block starts anew as long as it is empty, so the dots in front of a package's name are
not in it (`pathOf_splitOn`), while a dependency turns each of them into an underscore. One dot is
made up for by the underscore that identifiers get in front, unless the rest of the name brings its
own; two are not. The names that are left (`Alike`) are those for which the block of a package has
the identifier that dependencies use (`block_identifier_eq_iff`). -/

namespace PackageAtlas

namespace Identifier

/-- Whether a name has no dot in front, is a dot, or has one dot in front and then neither a dot nor
an underscore. -/
def Alike (package : Text) : Prop :=
  package.head? ≠ some '.' ∨ package = ['.'] ∨
    ∃ c rest, package = '.' :: c :: rest ∧ c ≠ '.' ∧ c ≠ '_'

/-- The path along the segments of a name is the name without the dots in front of it. -/
theorem pathOf_splitOn (package : Text) :
    pathOf (package.splitOn '.') = package.dropWhile (· = '.') := by
  induction package with
  | nil => rfl
  | cons c rest ih =>
      by_cases hdot : c = '.'
      · subst hdot
        have hsegments : ('.' :: rest).splitOn '.' = [] :: rest.splitOn '.' :=
          List.splitOn_append_cons_self_of_not_mem List.not_mem_nil rest
        rw [hsegments, List.dropWhile_cons_of_pos (by simp), ← ih]
        rfl
      · have hhead : (c :: rest).head? ≠ some '.' := by simpa using hdot
        have hpath : pathOf (Record.segments ⟨c :: rest, [], []⟩) = c :: rest :=
          pathOf_segments hhead
        rw [List.dropWhile_cons_of_neg (by simpa using hdot)]
        exact hpath

/-! ## One dot in front -/

theorem length_ofPackage_le (path : Text) : (ofPackage path).length ≤ path.length + 1 := by
  have hlength := length_anchored (flat path)
  rw [length_flat] at hlength
  unfold ofPackage
  omega

/-- A dot in front becomes the underscore that an identifier has there. -/
theorem ofPackage_dot_cons (rest : Text) : ofPackage ('.' :: rest) = '_' :: flat rest :=
  rfl

theorem ofPackage_underscore_cons (rest : Text) : ofPackage ('_' :: rest) = '_' :: flat rest :=
  rfl

theorem ofPackage_cons {c : Char} (hdot : c ≠ '.') (hunderscore : c ≠ '_') (rest : Text) :
    ofPackage (c :: rest) = '_' :: flat (c :: rest) := by
  have hflat : flat (c :: rest) = c :: flat rest := congrArg (· :: flat rest) (if_neg hdot)
  rw [ofPackage, anchored, hflat, if_neg (by simpa using hunderscore)]

/-- Behind a first dot, the rest of the name decides. -/
theorem ofPackage_dropWhile_eq_iff (rest : Text) :
    ofPackage (rest.dropWhile (· = '.')) = '_' :: flat rest ↔
      rest = [] ∨ ∃ c more, rest = c :: more ∧ c ≠ '.' ∧ c ≠ '_' := by
  cases rest with
  | nil => exact iff_of_true rfl (Or.inl rfl)
  | cons c more =>
      have hright : (c :: more = [] ∨ ∃ d others, c :: more = d :: others ∧ d ≠ '.' ∧ d ≠ '_')
          ↔ c ≠ '.' ∧ c ≠ '_' := by simp
      rw [hright]
      by_cases hdot : c = '.'
      · -- two dots are more than the one underscore that can be put in front
        subst hdot
        refine iff_of_false (fun heq => ?_) fun h => h.1 rfl
        have hlength := congrArg List.length heq
        rw [List.dropWhile_cons_of_pos (by simp), List.length_cons, length_flat,
          List.length_cons] at hlength
        have hle := length_ofPackage_le (more.dropWhile (· = '.'))
        have hshorter := (List.dropWhile_sublist (l := more) (· = '.')).length_le
        omega
      rw [List.dropWhile_cons_of_neg (by simpa using hdot)]
      by_cases hunderscore : c = '_'
      · -- no underscore is put in front of the name's own
        subst hunderscore
        refine iff_of_false (fun heq => ?_) fun h => h.2 rfl
        have hlength := congrArg List.length heq
        rw [ofPackage_underscore_cons, List.length_cons, List.length_cons, length_flat, length_flat,
          List.length_cons] at hlength
        omega
      · exact iff_of_true (ofPackage_cons hdot hunderscore more) ⟨hdot, hunderscore⟩

theorem ofPackage_pathOf_eq_iff (package : Text) :
    ofPackage (pathOf (package.splitOn '.')) = ofPackage package ↔ Alike package := by
  rw [pathOf_splitOn]
  cases package with
  | nil => exact iff_of_true rfl (Or.inl (by simp))
  | cons c rest =>
      by_cases hdot : c = '.'
      · subst hdot
        rw [List.dropWhile_cons_of_pos (by simp), ofPackage_dot_cons, ofPackage_dropWhile_eq_iff]
        simp [Alike]
      · rw [List.dropWhile_cons_of_neg (by simpa using hdot)]
        exact iff_of_true rfl (Or.inl (by simpa using hdot))

end Identifier

namespace Diagram

open PackageAtlas.Identifier PackageAtlas.Namespace PackageAtlas.Tree

/-- The block of a package has the identifier of the path along its keys. -/
theorem identifier_of_mem_declarations {ns : Namespace} (h : Valid ns)
    {dependencies : Option Dependencies} {declaration : Declaration}
    (hmem : declaration ∈ (outlineOf ns dependencies).declarations)
    (hpackage : declaration.isClass = false) :
    declaration.heading.identifier = ofPackage (pathOf declaration.keys) := by
  obtain ⟨keys, node, hnode, rfl⟩ := (mem_declarations_outlineOf dependencies declaration).1 hmem
  have hne := ((mem_nodesOfEntries_iff_at? h.proper keys node).1 hnode).1
  rw [keys_nodeDeclaration hne]
  obtain ⟨front, key, rfl⟩ := (List.eq_nil_or_concat' keys).resolve_left hne
  rw [nodeDeclaration_concat] at hpackage ⊢
  cases node with
  | cls record => cases hpackage
  | package entries =>
      rw [pathOf_concat]
      rfl

/-- **Blocks and dependencies name a package alike exactly if its name is `Alike`.** In a drawing
the block at the segments of a package has the identifier of the path along them, and the lines of
dependencies have those of whole names; the two are the same for these names and no others. -/
theorem block_identifier_eq_iff (package : Text) :
    (ofPackage ((package.splitOn '.').foldl extend []) = ofPackage package ↔ Alike package) ∧
    ∀ (layout : Layout) (records : List Record) (dependencies : Option Dependencies),
      ∃ outline,
        Outline.read layout.indent (body layout (ofRecords records) dependencies) = some outline ∧
        (∀ declaration ∈ outline.declarations, declaration.isClass = false →
          declaration.keys = package.splitOn '.' →
          declaration.heading.identifier = ofPackage ((package.splitOn '.').foldl extend [])) ∧
        outline.edges = ((dependencies.map Dependencies.edges).getD []).map
          fun edge => ofPackage edge.1 ++ " --> ".toList ++ ofPackage edge.2 := by
  refine ⟨ofPackage_pathOf_eq_iff package, fun layout records dependencies => ?_⟩
  have h := valid_ofRecords records
  refine ⟨_, read_body h layout dependencies, fun declaration hmem hpackage hkeys => ?_, ?_⟩
  · rw [identifier_of_mem_declarations h hmem hpackage, hkeys]
    rfl
  · cases dependencies <;> rfl

/-- The block of the package `._a` is `_a`, but a dependency of it leaves `__a`. -/
theorem block_identifier_eq_iff_underscore :
    let records : List Record := [⟨"._a".toList, "B".toList, ["._a.C".toList]⟩]
    let dependencies := Dependencies.ofRecords [] records
    ∃ outline, Outline.read 2 (body {} (ofRecords records) (some dependencies)) = some outline ∧
      (∃ declaration ∈ outline.declarations, declaration.isClass = false ∧
        declaration.keys = "._a".toList.splitOn '.' ∧
        declaration.heading.identifier ≠ ofPackage "._a".toList) ∧
      outline.edges = ["__a --> __a".toList] := by
  intro records dependencies
  obtain ⟨hiff, hdrawn⟩ := block_identifier_eq_iff "._a".toList
  obtain ⟨outline, hread, hblocks, hedges⟩ := hdrawn {} records (some dependencies)
  have hdeclared : (Outline.read 2 (body {} (ofRecords records) (some dependencies))).map
      (fun read => read.declarations[1]?) = some (some ⟨false, [⟨[], "_".toList⟩],
        ⟨"_a".toList, "_a".toList⟩⟩) := by
    decide
  rw [hread] at hdeclared
  have hmem := List.mem_of_getElem? (Option.some.inj hdeclared)
  refine ⟨outline, hread, ⟨_, hmem, rfl, by decide, ?_⟩, hedges⟩
  rw [hblocks _ hmem rfl (by decide), ne_eq, hiff]
  rintro (h | h | ⟨c, rest, h, -, hunderscore⟩)
  · exact h rfl
  · exact absurd h (by decide)
  · exact hunderscore (List.cons.inj (List.cons.inj h).2).1.symm

end Diagram

end PackageAtlas
