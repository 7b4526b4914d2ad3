import PackageAtlas.Diagram.Body
import PackageAtlas.Proofs.Tree.Graft

set_option autoImplicit false

/-! # What the lines of a tree depend on

A drawing shows the class names and the keys of a tree and nothing else of its records, so trees
with the same paths have the same lines (`entriesLines_eq_of_paths_eq`). In the other direction, a
larger tree at one place gives more lines (`length_entriesLines_graft_lt`). -/

namespace PackageAtlas

/-- A record without its dependencies. -/
def Record.bare (record : Record) : Record :=
  { record with dependencies := [] }

theorem Record.bare_eq_of_path_eq {a b : Record} (h : a.path = b.path) : a.bare = b.bare := by
  rw [bare, bare, package_eq_of_path_eq h, className_eq_of_path_eq h]

namespace Tree

mutual

/-- A tree with `f` done to the record of each class. -/
def mapRecords (f : Record → Record) : Tree → Tree
  | .package entries => .package (mapRecordsOfEntries f entries)
  | .cls record => .cls (f record)

/-- Entries with `f` done to the record of each class below them. -/
def mapRecordsOfEntries (f : Record → Record) : List (Text × Tree) → List (Text × Tree)
  | [] => []
  | (key, tree) :: rest => (key, tree.mapRecords f) :: mapRecordsOfEntries f rest

end

theorem mapRecordsOfEntries_eq (f : Record → Record) (es : List (Text × Tree)) :
    mapRecordsOfEntries f es = es.map fun entry => (entry.1, entry.2.mapRecords f) := by
  induction es with
  | nil => rw [mapRecordsOfEntries, List.map_nil]
  | cons entry rest ih => rw [mapRecordsOfEntries, ih, List.map_cons]

theorem bindings_mapRecordsOfEntries {f : Record → Record} {es : List (Text × Tree)}
    (h : ∀ e ∈ es, (e.2.mapRecords f).bindings = e.2.bindings.map fun b => (b.1, f b.2)) :
    bindingsOfEntries (mapRecordsOfEntries f es)
      = (bindingsOfEntries es).map fun b => (b.1, f b.2) := by
  induction es with
  | nil => rw [mapRecordsOfEntries, bindingsOfEntries_nil, List.map_nil]
  | cons entry rest ih =>
      obtain ⟨key, tree⟩ := entry
      rw [mapRecordsOfEntries, bindingsOfEntries_cons, bindingsOfEntries_cons,
        ih fun e he => h e (List.mem_cons_of_mem _ he), h _ (List.mem_cons_self ..),
        List.map_append, List.map_map, List.map_map]
      rfl

theorem bindings_mapRecords (f : Record → Record) (tree : Tree) :
    (tree.mapRecords f).bindings = tree.bindings.map fun b => (b.1, f b.2) := by
  induction tree using entry_induction with
  | cls record => rw [mapRecords, bindings_cls, bindings_cls, List.map_singleton]
  | package entries ih =>
      rw [mapRecords, bindings_package, bindings_package, bindings_mapRecordsOfEntries ih]

theorem ProperEntries.mapRecords {f : Record → Record} {es : List (Text × Tree)}
    (h : ProperEntries es) (htrees : ∀ e ∈ es, (e.2.mapRecords f).Proper) :
    ProperEntries (mapRecordsOfEntries f es) := by
  rw [mapRecordsOfEntries_eq]
  refine (properEntries_iff _).2 ⟨Table.sorted_map _ h.sorted, fun entry hentry => ?_⟩
  obtain ⟨e, he, rfl⟩ := List.mem_map.1 hentry
  exact htrees e he

theorem proper_mapRecords (f : Record → Record) {tree : Tree} (h : tree.Proper) :
    (tree.mapRecords f).Proper := by
  induction tree using entry_induction with
  | cls record =>
      rw [mapRecords]
      exact proper_cls _
  | package entries ih =>
      obtain ⟨hne, hproper⟩ := (proper_package entries).1 h
      rw [mapRecords, proper_package]
      refine ⟨?_, hproper.mapRecords fun e he => ih e he (hproper.proper he)⟩
      simpa [mapRecordsOfEntries_eq] using hne

end Tree

namespace Diagram

open PackageAtlas.Tree

/-! ## Only class names count -/

theorem entriesLines_mapRecordsOfEntries {f : Record → Record} {es : List (Text × Tree)}
    (h : ∀ e ∈ es, ∀ indent depth path key,
      entryLines indent depth path key (e.2.mapRecords f) = entryLines indent depth path key e.2)
    (indent depth : Nat) (path : Text) :
    entriesLines indent depth path (mapRecordsOfEntries f es)
      = entriesLines indent depth path es := by
  induction es with
  | nil => rw [mapRecordsOfEntries]
  | cons entry rest ih =>
      obtain ⟨key, tree⟩ := entry
      rw [mapRecordsOfEntries, entriesLines, entriesLines, h _ (List.mem_cons_self ..),
        ih fun e he => h e (List.mem_cons_of_mem _ he)]

theorem entryLines_mapRecords {f : Record → Record} (hf : ∀ r, (f r).className = r.className)
    (tree : Tree) : ∀ indent depth path key,
    entryLines indent depth path key (tree.mapRecords f)
      = entryLines indent depth path key tree := by
  induction tree using entry_induction with
  | cls record =>
      intro indent depth path key
      rw [mapRecords, entryLines, entryLines, classLine, classLine, hf]
  | package entries ih =>
      intro indent depth path key
      rw [mapRecords, entryLines, entryLines, entriesLines_mapRecordsOfEntries ih]

/-- Bindings with the same paths differ in the dependencies of their records only. -/
theorem map_bare_eq {bs : List (List Text × Record)} :
    ∀ {cs : List (List Text × Record)}, (∀ b ∈ bs, b.1 = b.2.path) → (∀ c ∈ cs, c.1 = c.2.path) →
      bs.map Prod.fst = cs.map Prod.fst →
      (bs.map fun b => (b.1, b.2.bare)) = cs.map fun c => (c.1, c.2.bare) := by
  induction bs with
  | nil =>
      intro cs _ _ h
      rw [List.map_eq_nil_iff.1 h.symm, List.map_nil]
  | cons b rest ih =>
      intro cs hbs hcs h
      cases cs with
      | nil => exact absurd h (List.cons_ne_nil _ _)
      | cons c rest' =>
          rw [List.map_cons, List.map_cons] at h
          obtain ⟨hpath, hrest⟩ := List.cons.inj h
          have hrecord : b.2.path = c.2.path := by
            rw [← hbs b (List.mem_cons_self ..), ← hcs c (List.mem_cons_self ..), hpath]
          rw [List.map_cons, List.map_cons, hpath, Record.bare_eq_of_path_eq hrecord,
            ih (fun b hb => hbs b (List.mem_cons_of_mem _ hb))
              (fun c hc => hcs c (List.mem_cons_of_mem _ hc)) hrest]

/-- **Trees with the same paths have the same lines**, whatever their classes depend on. -/
theorem entriesLines_eq_of_paths_eq {es fs : List (Text × Tree)} (he : ProperEntries es)
    (hf : ProperEntries fs) (hes : ∀ b ∈ bindingsOfEntries es, b.1 = b.2.path)
    (hfs : ∀ b ∈ bindingsOfEntries fs, b.1 = b.2.path)
    (h : (bindingsOfEntries es).map Prod.fst = (bindingsOfEntries fs).map Prod.fst)
    (indent depth : Nat) (path : Text) :
    entriesLines indent depth path es = entriesLines indent depth path fs := by
  have hname : ∀ record : Record, record.bare.className = record.className := fun _ => rfl
  have hlines : ∀ gs : List (Text × Tree),
      entriesLines indent depth path (mapRecordsOfEntries Record.bare gs)
        = entriesLines indent depth path gs := fun gs =>
    entriesLines_mapRecordsOfEntries (fun e _ => entryLines_mapRecords hname e.2) indent depth path
  have hproper : ∀ {gs : List (Text × Tree)}, ProperEntries gs →
      ProperEntries (mapRecordsOfEntries Record.bare gs) := fun hg =>
    hg.mapRecords fun e he => proper_mapRecords _ (hg.proper he)
  have hbindings : ∀ gs : List (Text × Tree),
      bindingsOfEntries (mapRecordsOfEntries Record.bare gs)
        = (bindingsOfEntries gs).map fun b => (b.1, b.2.bare) := fun gs =>
    bindings_mapRecordsOfEntries fun e _ => bindings_mapRecords Record.bare e.2
  -- the trees may differ in the dependencies of their records, which no line shows
  have hbare : mapRecordsOfEntries Record.bare es = mapRecordsOfEntries Record.bare fs := by
    refine (hproper he).eq_of_bindings_eq (hproper hf) ?_
    rw [hbindings, hbindings, map_bare_eq hes hfs h]
  rw [← hlines es, ← hlines fs, hbare]

/-! ## Larger trees have more lines -/

theorem length_entriesLines_put_lt {key : Text} {tree tree' : Tree} {indent depth : Nat}
    {path : Text} (h : (entryLines indent depth path key tree).length
      < (entryLines indent depth path key tree').length) (es : List (Text × Tree)) :
    (entriesLines indent depth path (Table.put key tree es)).length
      < (entriesLines indent depth path (Table.put key tree' es)).length := by
  induction es with
  | nil => simpa [Table.put, entriesLines] using h
  | cons entry rest ih =>
      obtain ⟨k, v⟩ := entry
      simp only [Table.put]
      split
      · simpa [entriesLines] using h
      · split
        · simpa [entriesLines] using h
        · simpa [entriesLines] using ih

theorem length_entriesLines_graft_lt (segments : List Text) {key : Text} {tree tree' : Tree}
    {indent : Nat} (h : ∀ depth path, (entryLines indent depth path key tree).length
      < (entryLines indent depth path key tree').length) :
    ∀ (depth : Nat) (path : Text) (es : List (Text × Tree)),
      (entriesLines indent depth path (graft segments key tree es)).length
        < (entriesLines indent depth path (graft segments key tree' es)).length := by
  induction segments with
  | nil => exact fun depth path es => length_entriesLines_put_lt (h depth path) es
  | cons segment rest ih =>
      intro depth path es
      refine length_entriesLines_put_lt ?_ es
      have hinner := ih (depth + 1) (Identifier.extend path segment) (entriesAt segment es)
      simpa [entryLines] using hinner

end Diagram

end PackageAtlas
