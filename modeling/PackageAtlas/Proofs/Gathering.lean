import Mathlib.Data.Set.Card
import PackageAtlas.Diagram.Body
import PackageAtlas.Proofs.Dependencies

set_option autoImplicit false

/-! # From imports to edges

All imports of all records are gone through once (`gather`): an ignored one is told of, any other
adds its target to those of the package it is in. This single pass has the dependencies and the log
entries that the library computes apart (`gather_eq`). What they hold is then said of the imports
alone: each target is an import without its last segment (`containingPackage_eq_iff`), each log
entry an import that is ignored (`ignoredEntries_eq`), and each edge is counted and drawn once
(`encard_edges`). -/

namespace PackageAtlas.Dependencies

open Diagram

/-! ## One pass -/

/-- Every import with the package it is in, in the order of the records and of their imports. -/
def imports (records : List Record) : List (Text × Text) :=
  records.flatMap fun record => record.dependencies.map fun name => (record.package, name)

/-- The entry for an import of `package` that is left out. -/
def ignoredEntry (package name : Text) : LogEntry :=
  ⟨.trace, package ++ ": ignoring ".toList ++ name⟩

/-- The targets of `package` and the entries told so far, after one more import. -/
def gatherImport (ignored : List Text) (package : Text) (state : KeySet Text × List LogEntry)
    (name : Text) : KeySet Text × List LogEntry :=
  if isIgnored ignored name then (state.1, state.2 ++ [ignoredEntry package name])
  else (KeySet.add (containingPackage name) state.1, state.2)

/-- The dependencies and the entries told so far, after one more record. -/
def gatherRecord (ignored : List Text) (state : Dependencies × List LogEntry) (record : Record) :
    Dependencies × List LogEntry :=
  let gathered := record.dependencies.foldl (gatherImport ignored record.package)
    (targetsOf state.1 record.package, state.2)
  (Table.put record.package gathered.1 state.1, gathered.2)

/-- The dependencies of all records and the entries for what is ignored, in one pass. -/
def gather (ignored : List Text) (records : List Record) : Dependencies × List LogEntry :=
  records.foldl (gatherRecord ignored) ([], [])

section Pass

variable (ignored : List Text)

theorem foldl_gatherImport (package : Text) (names : List Text) :
    ∀ (set : KeySet Text) (told : List LogEntry),
      names.foldl (gatherImport ignored package) (set, told)
        = (((names.filter fun name => !isIgnored ignored name).map containingPackage).foldl
              (fun s target => KeySet.add target s) set,
            told ++ (names.filter (isIgnored ignored)).map (ignoredEntry package)) := by
  induction names with
  | nil => simp
  | cons name rest ih =>
      intro set told
      rw [List.foldl_cons, gatherImport]
      cases hname : isIgnored ignored name with
      | true => simp [ih, hname]
      | false => simp [ih, hname]

theorem gatherRecord_eq (dependencies : Dependencies) (told : List LogEntry) (record : Record) :
    gatherRecord ignored (dependencies, told) record
      = (addTargets dependencies record.package (targets ignored record),
          told ++ ignoredEntries ignored [record]) := by
  simp only [gatherRecord, foldl_gatherImport]
  simp [addTargets, targets, targetsOf, ignoredEntries, ignoredEntry]

theorem foldl_gatherRecord (records : List Record) :
    ∀ (dependencies : Dependencies) (told : List LogEntry),
      records.foldl (gatherRecord ignored) (dependencies, told)
        = ((records.map fun record => (record.package, targets ignored record)).foldl
              (fun d pair => addTargets d pair.1 pair.2) dependencies,
            told ++ ignoredEntries ignored records) := by
  induction records with
  | nil => simp [ignoredEntries]
  | cons record rest ih =>
      intro dependencies told
      rw [List.foldl_cons, gatherRecord_eq, ih]
      simp [ignoredEntries]

/-- The single pass gives the dependencies and the entries for what is ignored. -/
theorem gather_eq (records : List Record) :
    gather ignored records = (ofRecords ignored records, ignoredEntries ignored records) := by
  rw [gather, foldl_gatherRecord, List.nil_append]
  rfl

theorem isIgnored_iff (name : Text) :
    isIgnored ignored name = true ↔ ∃ start ∈ ignored, start <+: name := by
  simp [isIgnored, List.isPrefixOf_iff_prefix]

/-- There is one entry for each import that is ignored, in the order of the imports. -/
theorem ignoredEntries_eq (records : List Record) :
    ignoredEntries ignored records
      = ((imports records).filter fun found => ∃ start ∈ ignored, start <+: found.2).map
          fun found => ignoredEntry found.1 found.2 := by
  induction records with
  | nil => rfl
  | cons record rest ih =>
      have hfilter : record.dependencies.filter (isIgnored ignored)
          = record.dependencies.filter fun name => ∃ start ∈ ignored, start <+: name :=
        List.filter_congr fun name _ => by rw [Bool.eq_iff_iff, isIgnored_iff, decide_eq_true_iff]
      unfold ignoredEntries imports at ih ⊢
      rw [List.flatMap_cons, List.flatMap_cons, List.filter_append, List.map_append, ih, hfilter,
        List.filter_map, List.map_map]
      rfl

end Pass

/-! ## Targets -/

/-- `package` is `name` without its last dot and what follows it, or all of a name without dots. -/
def PointsInto (name package : Text) : Prop :=
  (∃ last, '.' ∉ last ∧ name = package ++ '.' :: last) ∨ '.' ∉ name ∧ package = name

theorem containingPackage_eq_iff (name package : Text) :
    containingPackage name = package ↔ PointsInto name package := by
  unfold containingPackage
  constructor
  · rintro rfl
    by_cases hdot : '.' ∈ name
    · -- the last dot is the first one from the other end
      obtain ⟨back, front, hname, hback⟩ :=
        List.eq_append_cons_of_mem (List.mem_reverse.2 hdot)
      have hsplit : name = front.reverse ++ '.' :: back.reverse := by
        rw [← List.reverse_reverse name, hname]
        simp
      have hlast : '.' ∉ back.reverse := by simpa using hback
      refine Or.inl ⟨back.reverse, hlast, ?_⟩
      rw [hsplit, beforeLast?_append _ hlast]
      rfl
    · rw [beforeLast?_eq_none hdot]
      exact Or.inr ⟨hdot, rfl⟩
  · rintro (⟨last, hlast, rfl⟩ | ⟨hdot, rfl⟩)
    · rw [beforeLast?_append _ hlast]
      rfl
    · rw [beforeLast?_eq_none hdot]
      rfl

/-! ## Edges -/

variable {dependencies : Dependencies}

/-- No edge comes twice. -/
theorem Ordered.nodup_edges (h : Ordered dependencies) : (edges dependencies).Nodup := by
  have hdistinct : dependencies.Pairwise fun a b => a.1 ≠ b.1 := by
    refine List.Pairwise.imp ?_ h.packages
    intro a b hlt
    exact ne_of_irrefl hlt
  refine List.nodup_flatMap.2 ⟨?_, hdistinct.imp ?_⟩
  · rintro ⟨package, set⟩ hentry
    have hset : targetsOf dependencies package = set := by
      rw [targetsOf, (Table.get?_eq_some_iff_mem h.packages).2 hentry, Option.getD_some]
    have hnodup : set.Nodup := by
      rw [← hset]
      exact (h.targets package).imp fun hlt => ne_of_irrefl hlt
    exact hnodup.map fun _ _ heq => (Prod.mk.inj heq).2
  · intro a b hne edge ha hb
    obtain ⟨_, -, rfl⟩ := List.mem_map.1 ha
    obtain ⟨_, -, heq⟩ := List.mem_map.1 hb
    exact hne (Prod.mk.inj heq).1.symm

/-- The number of edges is the number of different pairs of a package and a target of it. -/
theorem Ordered.encard_edges (h : Ordered dependencies) :
    Set.encard {edge : Text × Text | edge.2 ∈ targetsOf dependencies edge.1}
      = edgeCount dependencies := by
  have hset : {edge : Text × Text | edge.2 ∈ targetsOf dependencies edge.1}
      = ((edges dependencies).toFinset : Set (Text × Text)) := by
    ext ⟨source, target⟩
    simp [mem_edges h.packages]
  rw [hset, Set.encard_coe_eq_coe_finsetCard, List.toFinset_card_of_nodup h.nodup_edges, edgeCount]

theorem edgeCount_eq_sum (dependencies : Dependencies) :
    edgeCount dependencies = (dependencies.map fun entry => entry.2.length).sum := by
  simp [edgeCount, edges, List.length_flatMap]

/-- **The dependencies of records are what their imports say.** Every package of a record has an
entry, and nothing else has. Its targets are the imports of its classes that begin with no ignored
text, each without its last segment. One pass over the imports has the same dependencies, and tells
of each import that is ignored, in order. The edges are counted by package, as different pairs, and
as the lines that the drawing has after those of the tree. -/
theorem ofRecords_exactly_imports (ignored : List Text) (records : List Record) :
    let dependencies := ofRecords ignored records
    Ordered dependencies ∧
    (∀ package, (∃ set, Table.get? package dependencies = some set) ↔
      ∃ record ∈ records, record.package = package) ∧
    (∀ package target, target ∈ targetsOf dependencies package ↔
      ∃ record ∈ records, record.package = package ∧ ∃ name ∈ record.dependencies,
        (∀ start ∈ ignored, ¬ start <+: name) ∧ PointsInto name target) ∧
    gather ignored records = (dependencies, ignoredEntries ignored records) ∧
    ignoredEntries ignored records
      = ((imports records).filter fun found => ∃ start ∈ ignored, start <+: found.2).map
          (fun found => ignoredEntry found.1 found.2) ∧
    edgeCount dependencies = (dependencies.map fun entry => entry.2.length).sum ∧
    Set.encard {edge : Text × Text | edge.2 ∈ targetsOf dependencies edge.1}
      = edgeCount dependencies ∧
    ∀ (layout : Layout) (ns : Namespace),
      body layout ns (some dependencies) = body layout ns none ++ edgeLines dependencies ∧
      (edgeLines dependencies).length = edgeCount dependencies := by
  intro dependencies
  have hordered : Ordered dependencies := ordered_ofTargets _
  refine ⟨hordered, fun package => ?_, fun package target => ?_, gather_eq ignored records,
    ignoredEntries_eq ignored records, edgeCount_eq_sum _, hordered.encard_edges,
    fun layout ns => ⟨?_, ?_⟩⟩
  · rw [← Option.isSome_iff_exists]
    simp [dependencies, ofRecords, isSome_get?_ofTargets]
  · rw [← mem_edges hordered.packages, mem_edges_ofRecords]
    simp only [containingPackage_eq_iff]
  · simp [body]
  · simp [edgeLines, edgeCount]

/-- Two records of one package, apart from each other; an import and an ignored one share a
target. -/
example : gather ["b.X".toList] [⟨"a".toList, "C".toList, ["b.X".toList, "b.Y".toList]⟩,
      ⟨"d".toList, "E".toList, []⟩, ⟨"a".toList, "F".toList, ["b.Z".toList, "g".toList]⟩]
    = ([("a".toList, ["b".toList, "g".toList]), ("d".toList, [])],
        [ignoredEntry "a".toList "b.X".toList]) := by
  decide

end PackageAtlas.Dependencies
