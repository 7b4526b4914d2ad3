import Mathlib.Data.List.Forall2
import Mathlib.Data.Set.List
import PackageAtlas.Proofs.FileTree.Path
import PackageAtlas.Proofs.Utf8Decoding
import PackageAtlas.Search

set_option autoImplicit false

/-! # What a search finds

The files that a search lists below a folder are the regular files there that it `selects`
(`inEntries_eq`), and the folders that it opens are those that are not left out
(`mem_opens_iff`), so both are told by their locations. A search succeeds if and only if it can open
each of these folders (`readable_iff`). In its list each file stands with a path of the folder that
it is in (`files_exactly_wanted`). -/

namespace PackageAtlas

open Entry (filesIn)

namespace Search

/-- The path of what is at a location below a folder. -/
def pathTo (folder : Bytes) (location : Location) : Bytes :=
  location.foldl Path.join folder

/-- What is listed for the file at a location below a folder. -/
def sourceFile (folder : Bytes) (location : Location) : SourceFile :=
  ⟨Path.parent (pathTo folder location), Utf8.decodeLossy (location.getLastD [])⟩

variable (search : Search)

/-- Whether the file at a location below the root is listed. -/
def selects (location : Location) : Bool :=
  location.all (!search.isExcluded ·)
    && Glob.accepts search.pattern (Utf8.decodeLossy (location.getLastD []))

theorem selects_cons (name : Bytes) {location : Location} (h : location ≠ []) :
    search.selects (name :: location) = (!search.isExcluded name && search.selects location) := by
  obtain ⟨next, rest, rfl⟩ := List.exists_cons_of_ne_nil h
  rw [selects, selects, List.all_cons, Bool.and_assoc]
  rfl

theorem sourceFile_cons (folder name : Bytes) {location : Location} (h : location ≠ []) :
    sourceFile folder (name :: location) = sourceFile (Path.join folder name) location := by
  obtain ⟨next, rest, rfl⟩ := List.exists_cons_of_ne_nil h
  rfl

theorem ne_nil_of_mem_filesIn {location : Location} {entries : List (Bytes × Entry)}
    (h : location ∈ filesIn entries) : location ≠ [] := by
  obtain ⟨e, -, inner, -, rfl⟩ := (Entry.mem_filesIn location entries).1 h
  exact List.cons_ne_nil _ _

/-! ## The files listed -/

theorem inEntries_eq_of {entries : List (Bytes × Entry)}
    (h : ∀ e ∈ entries, ∀ folder name, search.inEntry folder name e.2
      = ((e.2.files.map (name :: ·)).filter search.selects).map (sourceFile folder))
    (folder : Bytes) :
    search.inEntries folder entries
      = ((filesIn entries).filter search.selects).map (sourceFile folder) := by
  induction entries with
  | nil => rfl
  | cons first rest ih =>
      obtain ⟨name, entry⟩ := first
      rw [inEntries, filesIn, h _ (List.mem_cons_self ..),
        ih fun e he => h e (List.mem_cons_of_mem _ he), List.filter_append, List.map_append]

theorem inEntry_eq (entry : Entry) : ∀ folder name : Bytes, search.inEntry folder name entry
    = ((entry.files.map (name :: ·)).filter search.selects).map (sourceFile folder) := by
  induction entry using Entry.entry_induction with
  | file content =>
      intro folder name
      rw [inEntry, Entry.files, List.map_singleton, List.filter_singleton, selects, candidate]
      cases hexcluded : search.isExcluded name <;>
        cases haccepts : Glob.accepts search.pattern (Utf8.decodeLossy name) <;>
        simp [hexcluded, haccepts, sourceFile, pathTo]
  | link target => exact fun folder name => rfl
  | folder entries ih =>
      intro folder name
      rw [inEntry, Entry.files, List.filter_map, List.map_map, search.inEntries_eq_of ih]
      have hselects : ∀ location ∈ filesIn entries, (search.selects ∘ (name :: ·)) location
          = (!search.isExcluded name && search.selects location) := fun location hmem =>
        search.selects_cons name (ne_nil_of_mem_filesIn hmem)
      rw [List.filter_congr hselects]
      cases hexcluded : search.isExcluded name with
      | true => simp
      | false =>
          simp only [Bool.false_eq_true, if_false, Bool.not_false, Bool.true_and]
          refine List.map_congr_left fun location hmem => ?_
          exact (sourceFile_cons folder name
            (ne_nil_of_mem_filesIn (List.mem_of_mem_filter hmem))).symm

/-- **A search lists the selected ones of the regular files.** -/
theorem inEntries_eq (folder : Bytes) (entries : List (Bytes × Entry)) :
    search.inEntries folder entries
      = ((filesIn entries).filter search.selects).map (sourceFile folder) :=
  search.inEntries_eq_of (fun e _ => search.inEntry_eq e.2) folder

/-! ## The folders opened -/

theorem mem_opensInEntries (folder path : Bytes) (entries : List (Bytes × Entry)) :
    path ∈ search.opensInEntries folder entries ↔
      ∃ e ∈ entries, path ∈ search.opensInEntry folder e.1 e.2 := by
  induction entries with
  | nil => simp [opensInEntries]
  | cons first rest ih =>
      obtain ⟨name, entry⟩ := first
      simp only [opensInEntries, List.mem_append, ih, List.mem_cons, exists_eq_or_imp]

/-- What is opened in an entry are the folders that are not left out. -/
theorem mem_opensInEntry_iff {entry : Entry} (h : entry.Sound) : ∀ {folder name path : Bytes},
    path ∈ search.opensInEntry folder name entry ↔
      ∃ location inner, entry.at? location = some (.folder inner) ∧
        (∀ other ∈ name :: location, search.isExcluded other = false) ∧
          path = pathTo folder (name :: location) := by
  induction entry using Entry.entry_induction with
  | file content =>
      intro folder name path
      refine iff_of_false List.not_mem_nil ?_
      rintro ⟨location, inner, hat, -⟩
      obtain ⟨entries, hfolder⟩ := Entry.exists_of_at?_folder hat
      cases hfolder
  | link target =>
      intro folder name path
      refine iff_of_false List.not_mem_nil ?_
      rintro ⟨location, inner, hat, -⟩
      obtain ⟨entries, hfolder⟩ := Entry.exists_of_at?_folder hat
      cases hfolder
  | folder entries ih =>
      intro folder name path
      rw [opensInEntry]
      cases hname : search.isExcluded name with
      | true =>
          refine iff_of_false List.not_mem_nil ?_
          rintro ⟨location, inner, -, hincluded, -⟩
          exact absurd hname (by simp [hincluded name (List.mem_cons_self ..)])
      | false =>
          rw [if_neg Bool.false_ne_true, List.mem_cons, mem_opensInEntries]
          constructor
          · rintro (rfl | ⟨e, he, hpath⟩)
            · exact ⟨[], entries, Entry.at?_nil _, by simp [hname], rfl⟩
            · obtain ⟨location, inner, hat, hincluded, rfl⟩ := (ih e he (h.of_mem he)).1 hpath
              refine ⟨e.1 :: location, inner, ?_, List.forall_mem_cons.2 ⟨hname, hincluded⟩, rfl⟩
              rw [Entry.at?_folder_cons, h.get?_iff.2 he, Option.bind_some, hat]
          · rintro ⟨location, inner, hat, hincluded, rfl⟩
            cases location with
            | nil => exact Or.inl rfl
            | cons next rest =>
                obtain ⟨between, hget, hrest⟩ := Option.bind_eq_some_iff.1 hat
                have he := h.get?_iff.1 hget
                exact Or.inr ⟨_, he, (ih _ he (h.of_mem he)).2
                  ⟨rest, inner, hrest, (List.forall_mem_cons.1 hincluded).2, rfl⟩⟩

/-- Below a folder, all folders are opened that are not left out. -/
theorem mem_opensInEntries_iff {entries : List (Bytes × Entry)} (h : (Entry.folder entries).Sound)
    {folder path : Bytes} : path ∈ search.opensInEntries folder entries ↔
      ∃ location inner, location ≠ [] ∧
        (Entry.folder entries).at? location = some (.folder inner) ∧
          (∀ name ∈ location, search.isExcluded name = false) ∧ path = pathTo folder location := by
  rw [mem_opensInEntries]
  constructor
  · rintro ⟨e, he, hpath⟩
    obtain ⟨location, inner, hat, hincluded, rfl⟩ :=
      (search.mem_opensInEntry_iff (h.of_mem he)).1 hpath
    refine ⟨e.1 :: location, inner, List.cons_ne_nil _ _, ?_, hincluded, rfl⟩
    rw [Entry.at?_folder_cons, h.get?_iff.2 he, Option.bind_some, hat]
  · rintro ⟨location, inner, hne, hat, hincluded, rfl⟩
    obtain ⟨name, rest, rfl⟩ := List.exists_cons_of_ne_nil hne
    obtain ⟨between, hget, hrest⟩ := Option.bind_eq_some_iff.1 hat
    have he := h.get?_iff.1 hget
    exact ⟨_, he,
      (search.mem_opensInEntry_iff (h.of_mem he)).2 ⟨rest, inner, hrest, hincluded, rfl⟩⟩

/-- From the root on, all folders are opened that are not left out. -/
theorem mem_opens_iff {entries : List (Bytes × Entry)} (h : (Entry.folder entries).Sound)
    {path : Bytes} : path ∈ search.opens entries ↔
      ∃ location inner, (Entry.folder entries).at? location = some (.folder inner) ∧
        (∀ name ∈ location, search.isExcluded name = false) ∧
          path = pathTo search.root location := by
  rw [opens, List.mem_cons, search.mem_opensInEntries_iff h]
  constructor
  · rintro (rfl | ⟨location, inner, -, hat, hincluded, rfl⟩)
    · exact ⟨[], entries, Entry.at?_nil _, List.forall_mem_nil _, rfl⟩
    · exact ⟨location, inner, hat, hincluded, rfl⟩
  · rintro ⟨location, inner, hat, hincluded, rfl⟩
    by_cases hne : location = []
    · exact Or.inl (by rw [hne]; rfl)
    · exact Or.inr ⟨location, inner, hne, hat, hincluded, rfl⟩

/-- The path of each folder below one that a path leads to leads to it. -/
theorem opens_pathTo {tree : FileTree} (location : Location) :
    ∀ {folder : Bytes} {base : Location} {entries inner : List (Bytes × Entry)},
      (Entry.folder entries).Sound → tree.Opens folder base entries →
        (Entry.folder entries).at? location = some (.folder inner) →
          tree.Opens (pathTo folder location) (base ++ location) inner := by
  induction location with
  | nil =>
      intro folder base entries inner hsound hopens hat
      rw [Entry.at?_nil, Option.some.injEq, Entry.folder.injEq] at hat
      rw [List.append_nil, ← hat]
      exact hopens
  | cons name rest ih =>
      intro folder base entries inner hsound hopens hat
      obtain ⟨next, hget, hrest⟩ := Option.bind_eq_some_iff.1 hat
      obtain ⟨others, rfl⟩ := Entry.exists_of_at?_folder hrest
      have hmem := hsound.get?_iff.1 hget
      have hname := hsound.legal (Entry.at?_nil _) _ hmem
      rw [← List.singleton_append, ← List.append_assoc]
      exact ih (hsound.of_mem hmem) (hopens.join hname hget) hrest

/-! ## The result of a search -/

variable {search} {tree : FileTree} {base : Location} {entries : List (Bytes × Entry)}

theorem found_eq_inRoot (hroot : tree.resolve .use search.root = .ok base)
    (hfolder : tree.at? base = some (.folder entries)) :
    search.found tree = search.inRoot tree entries := by
  have huse : tree.entry .use search.root = .ok (.folder entries) := by
    simp only [FileTree.entry, hroot, hfolder]
  obtain ⟨seen, hseen, rfl | ⟨target, hlink⟩⟩ := FileTree.resolve_inspect hroot
  · have hinspect : tree.entry .inspect search.root = .ok (.folder entries) := by
      simp only [FileTree.entry, hseen, hfolder]
    simp only [found, hinspect]
  · have hinspect : tree.entry .inspect search.root = .ok (.link target) := by
      simp only [FileTree.entry, hseen, hlink]
    simp only [found, hinspect, huse]

/-- Each folder from the root on that is not left out can be opened by its path. -/
def Readable (search : Search) (tree : FileTree) (base : Location) : Prop :=
  ∀ location inner, tree.at? (base ++ location) = some (.folder inner) →
    (∀ name ∈ location, search.isExcluded name = false) →
      tree.opened (pathTo search.root location) = .ok (.folder inner)

theorem at?_below (hfolder : tree.at? base = some (.folder entries)) (location : Location) :
    tree.at? (base ++ location) = (Entry.folder entries).at? location := by
  rw [FileTree.at?, Entry.at?_append, ← FileTree.at?, hfolder, Option.bind_some]

theorem Readable.isTooLong_eq (h : search.Readable tree base) {location : Location}
    {inner : List (Bytes × Entry)} (hat : tree.at? (base ++ location) = some (.folder inner))
    (hincluded : ∀ name ∈ location, search.isExcluded name = false) :
    FileTree.isTooLong (pathTo search.root location) = false := by
  obtain ⟨arrival, hresolve, -⟩ := FileTree.opened_eq_ok_iff.1 (h location inner hat hincluded)
  exact (FileTree.resolve_eq_ok_iff.1 hresolve).1

theorem openError?_eq_none_iff {path : Bytes} :
    openError? tree path = none ↔ ∃ entry, tree.opened path = .ok entry := by
  rw [openError?]
  split
  · next hopened => simp [hopened]
  · next entry hopened => exact iff_of_true rfl ⟨entry, hopened⟩

theorem Readable.inRoot_eq (h : search.Readable tree base)
    (hfolder : tree.at? base = some (.folder entries)) (hsound : (Entry.folder entries).Sound) :
    search.inRoot tree entries
      = .ok (((filesIn entries).filter search.selects).map (sourceFile search.root)) := by
  have hnone : (search.opens entries).findSome? (openError? tree) = none := by
    refine List.findSome?_eq_none_iff.2 fun path hpath => openError?_eq_none_iff.2 ?_
    obtain ⟨location, inner, hat, hincluded, rfl⟩ := (search.mem_opens_iff hsound).1 hpath
    exact ⟨_, h location inner ((at?_below hfolder location).trans hat) hincluded⟩
  simp only [inRoot, hnone, inEntries_eq]

/-- What is opened by the path of a folder is that folder. -/
theorem readable_of_opens (hsound : tree.topFolder.Sound)
    (hroot : tree.resolve .use search.root = .ok base)
    (hfolder : tree.at? base = some (.folder entries))
    (hopens : ∀ path ∈ search.opens entries, openError? tree path = none) :
    search.Readable tree base := by
  intro location inner hat hincluded
  have hentries : (Entry.folder entries).Sound := hsound.at? hfolder
  have hbelow := (at?_below hfolder location).symm.trans hat
  obtain ⟨found, hfound⟩ := openError?_eq_none_iff.1 <|
    hopens _ ((search.mem_opens_iff hentries).2 ⟨location, inner, hbelow, hincluded, rfl⟩)
  obtain ⟨arrival, hresolve, hfault, -⟩ := FileTree.opened_eq_ok_iff.1 hfound
  -- the path leads to no other location
  have hleads := opens_pathTo location hentries
    (FileTree.opens_iff.2 ⟨(FileTree.resolve_eq_ok_iff.1 hroot).2, hfolder⟩) hbelow
  obtain rfl := Except.ok.inj ((FileTree.resolve_eq_ok_iff.1 hresolve).2.symm.trans
    (FileTree.opens_iff.1 hleads).1)
  exact FileTree.opened_eq_ok_iff.2 ⟨_, hresolve, hfault, hat⟩

/-- **A search succeeds exactly if it can open each folder that is not left out.** -/
theorem readable_iff (hsound : tree.topFolder.Sound)
    (hroot : tree.resolve .use search.root = .ok base)
    (hfolder : tree.at? base = some (.folder entries)) :
    search.Readable tree base ↔ ∃ files, (search.files tree).1 = .ok files := by
  rw [files, found_eq_inRoot hroot hfolder]
  constructor
  · exact fun h => ⟨_, h.inRoot_eq hfolder (hsound.at? hfolder)⟩
  · rintro ⟨files, hfiles⟩
    refine readable_of_opens hsound hroot hfolder ?_
    rw [inRoot] at hfiles
    split at hfiles
    · cases hfiles
    · next hnone => exact List.findSome?_eq_none_iff.1 hnone

/-- The directory listed for a file leads to the folder that the file is in. -/
theorem Readable.opens_directory (h : search.Readable tree base)
    (hroot : tree.resolve .use search.root = .ok base)
    (hfolder : tree.at? base = some (.folder entries)) (hsound : (Entry.folder entries).Sound)
    {front : Location} {name : Bytes} (hmem : front ++ [name] ∈ filesIn entries)
    (hselects : search.selects (front ++ [name]) = true) :
    ∃ inner, tree.Opens (sourceFile search.root (front ++ [name])).directory (base ++ front) inner ∧
      FileTree.isTooLong (sourceFile search.root (front ++ [name])).directory = false ∧
      LegalName name ∧ ∃ content, Table.get? name inner = some (.file content) := by
  obtain ⟨content, hat⟩ := (Entry.mem_files _ hsound).1 hmem
  rw [Entry.at?_append] at hat
  obtain ⟨between, hfront, hname⟩ := Option.bind_eq_some_iff.1 hat
  obtain ⟨inner, entry, rfl, hget, hentry⟩ := Entry.exists_of_at?_cons hname
  obtain rfl := Option.some.inj ((Entry.at?_nil entry).symm.trans hentry)
  have hlegal : LegalName name := hsound.legal hfront _ (Table.mem_of_get? hget)
  have hincluded : ∀ other ∈ front, search.isExcluded other = false := by
    intro other hother
    have hall := List.all_eq_true.1 (Bool.and_eq_true_iff.1 hselects).1 other
      (List.mem_append_left _ hother)
    simpa using hall
  have hopens : tree.Opens (pathTo search.root front) (base ++ front) inner :=
    opens_pathTo front hsound
      (FileTree.opens_iff.2 ⟨(FileTree.resolve_eq_ok_iff.1 hroot).2, hfolder⟩) hfront
  have hshort := h.isTooLong_eq ((at?_below hfolder front).trans hfront) hincluded
  -- the directory need not be the path by which the folder was opened
  have hdirectory : (sourceFile search.root (front ++ [name])).directory
      = Path.bare (pathTo search.root front) := by
    rw [sourceFile, pathTo, List.foldl_append]
    exact Path.parent_join hopens.ne_nil hlegal
  rw [hdirectory]
  exact ⟨inner, hopens.bare,
    FileTree.isTooLong_of_begins (Path.bare_begins hopens.ne_nil) hshort, hlegal, content, hget⟩

theorem Readable.resolve_directory (h : search.Readable tree base)
    (hroot : tree.resolve .use search.root = .ok base)
    (hfolder : tree.at? base = some (.folder entries)) (hsound : (Entry.folder entries).Sound)
    {location : Location} (hmem : location ∈ filesIn entries)
    (hselects : search.selects location = true) :
    tree.resolve .use (sourceFile search.root location).directory
      = .ok (base ++ location.dropLast) := by
  obtain ⟨front, name, rfl⟩ :=
    (List.eq_nil_or_concat' location).resolve_left (ne_nil_of_mem_filesIn hmem)
  obtain ⟨inner, hopens, hshort, -⟩ := h.opens_directory hroot hfolder hsound hmem hselects
  rw [List.dropLast_concat]
  exact FileTree.resolve_eq_ok_iff.2 ⟨hshort, (FileTree.opens_iff.1 hopens).1⟩

/-- The names lead from the folder at `base` to a regular file, its name has the form of the
pattern, and none of the names is excluded. -/
def Wanted (search : Search) (tree : FileTree) (base : Location) (path : List Text) : Prop :=
  (∃ content, tree.at? (base ++ path.map Utf8.encode) = some (.file content)) ∧
    (∃ name, path.getLast? = some name ∧ Glob.accepts search.pattern name = true) ∧
      ∀ name ∈ path, name ∉ search.excludes

theorem selects_encode {path : List Text} (hpath : path ≠ []) :
    search.selects (path.map Utf8.encode) = true ↔
      (∃ name, path.getLast? = some name ∧ Glob.accepts search.pattern name = true) ∧
        ∀ name ∈ path, name ∉ search.excludes := by
  obtain rfl | ⟨front, last, rfl⟩ := List.eq_nil_or_concat' path
  · exact absurd rfl hpath
  have hlast : ((front ++ [last]).map Utf8.encode).getLastD [] = Utf8.encode last := by simp
  have hincluded : ((front ++ [last]).map Utf8.encode).all (!search.isExcluded ·) = true ↔
      ∀ name ∈ front ++ [last], name ∉ search.excludes := by
    rw [List.all_map, List.all_eq_true]
    simp only [isExcluded, Function.comp_apply, Utf8.decodeLossy_encode, Bool.not_eq_true',
      List.contains_eq_mem, decide_eq_false_iff_not]
  rw [selects, hlast, Utf8.decodeLossy_encode, Bool.and_eq_true, hincluded, and_comm]
  simp

/-- What is listed is wanted, where all names are texts. -/
theorem exists_wanted (htext : tree.topFolder.InText)
    (hfolder : tree.at? base = some (.folder entries)) (hsound : (Entry.folder entries).Sound)
    {location : Location} (hmem : location ∈ filesIn entries)
    (hselects : search.selects location = true) :
    ∃ path : List Text, location = path.map Utf8.encode ∧ search.Wanted tree base path := by
  obtain ⟨content, hat⟩ := (Entry.mem_files location hsound).1 hmem
  have hfile := (at?_below hfolder location).trans hat
  obtain ⟨whole, hwhole⟩ := htext.exists_path hfile
  obtain ⟨front, path, -, -, rfl⟩ := List.append_eq_map_iff.1 hwhole
  have hne : path ≠ [] := fun hnil => ne_nil_of_mem_filesIn hmem (by rw [hnil, List.map_nil])
  exact ⟨path, rfl, ⟨content, hfile⟩, (selects_encode hne).1 hselects⟩

/-- **A search lists the regular files below its root that it is for.** In a file tree whose names
are texts, let the root lead to a folder, and let the folders below it be readable. Then the search
succeeds, and there is one entry in its list for each file with a name of the pattern and no
excluded name on the way to it, a path of the folder that the file is in and the name of the file.
They come in the order of the names on the way, compared byte by byte. -/
theorem files_exactly_wanted (hsound : tree.topFolder.Sound) (htext : tree.topFolder.InText)
    (hroot : tree.resolve .use search.root = .ok base)
    (hfolder : tree.at? base = some (.folder entries)) (hreadable : search.Readable tree base) :
    ∃ files paths, (search.files tree).1 = .ok files ∧
      (paths.map fun path => path.map Utf8.encode).Pairwise (· < ·) ∧
      List.Forall₂ (fun (path : List Text) (file : SourceFile) =>
        tree.resolve .use file.directory = .ok (base ++ path.dropLast.map Utf8.encode) ∧
          path.getLast? = some file.filename) paths files ∧
      ∀ path : List Text, path ∈ paths ↔ search.Wanted tree base path := by
  have hentries : (Entry.folder entries).Sound := hsound.at? hfolder
  have hsorted : (filesIn entries).Pairwise (· < ·) := Entry.files_sorted hentries
  -- each location listed is a list of texts
  have hrange : (filesIn entries).filter search.selects
      ∈ Set.range (List.map (List.map Utf8.encode)) := by
    rw [Set.range_list_map]
    intro location hlocation
    obtain ⟨content, hat⟩ :=
      (Entry.mem_files location hentries).1 (List.mem_of_mem_filter hlocation)
    obtain ⟨whole, hwhole⟩ := htext.exists_path ((at?_below hfolder location).trans hat)
    obtain ⟨front, path, -, -, hpath⟩ := List.append_eq_map_iff.1 hwhole
    exact ⟨path, hpath⟩
  obtain ⟨paths, hpaths⟩ := hrange
  have hmem : ∀ path, path ∈ paths ↔
      path.map Utf8.encode ∈ filesIn entries ∧ search.selects (path.map Utf8.encode) = true := by
    intro path
    rw [← List.mem_filter, ← hpaths,
      List.mem_map_of_injective (List.map_injective_iff.2 Utf8.encode_injective)]
  refine ⟨paths.map fun path => sourceFile search.root (path.map Utf8.encode), paths,
    ?_, ?_, ?_, ?_⟩
  · rw [files, found_eq_inRoot hroot hfolder, hreadable.inRoot_eq hfolder hentries, ← hpaths,
      List.map_map]
    rfl
  · rw [hpaths]
    exact hsorted.filter _
  · rw [List.forall₂_map_right_iff, List.forall₂_same]
    intro path hpath
    obtain ⟨hfile, hselects⟩ := (hmem path).1 hpath
    have hdirectory := hreadable.resolve_directory hroot hfolder hentries hfile hselects
    obtain rfl | ⟨front, last, rfl⟩ := List.eq_nil_or_concat' path
    · exact absurd rfl (ne_nil_of_mem_filesIn hfile)
    · refine ⟨by simpa using hdirectory, ?_⟩
      simp [sourceFile, Utf8.decodeLossy_encode]
  · intro path
    rw [hmem, Wanted, at?_below hfolder, ← Entry.mem_files _ hentries]
    refine and_congr_right fun hfile => selects_encode fun hnil => ?_
    exact ne_nil_of_mem_filesIn hfile (by rw [hnil, List.map_nil])

/-- A tree with a link to the folder `src`, in which a name of a folder is the beginning of that of
a file, a link leads back and one leads nowhere, and two files are excluded by their own name and by
that of their folder, which cannot be opened. -/
def orchard : FileTree where
  top :=
    [(Utf8.encode "entry".toList, .link (Utf8.encode "src/".toList)),
      (Utf8.encode "src".toList, .folder
        [(Utf8.encode "A.java".toList, .file []),
          (Utf8.encode "a".toList, .folder
            [(Utf8.encode "build".toList, .folder [(Utf8.encode "Y.java".toList, .file [])]),
              (Utf8.encode "loop.java".toList, .link (Utf8.encode "..".toList)),
              (Utf8.encode "ä.java".toList, .file [])]),
          (Utf8.encode "a.java".toList, .file []),
          (Utf8.encode "build.java".toList, .file []),
          (Utf8.encode "gone.java".toList, .link (Utf8.encode "nowhere".toList)),
          (Utf8.encode "notes".toList, .file [])])]
  here := []
  faults :=
    [(([Utf8.encode "src".toList, Utf8.encode "a".toList, Utf8.encode "build".toList], .reading),
      .notPermitted)]

/-- The search of `orchard` through the link. -/
theorem files_exactly_wanted_orchard :
    let search : Search :=
      { root := Utf8.encode "entry//.".toList, excludes := ["build".toList, "build.java".toList] }
    let base : Location := [Utf8.encode "src".toList]
    orchard.topFolder.Sound ∧ orchard.topFolder.InText ∧
      orchard.resolve .use search.root = .ok base ∧
      (∃ entries, orchard.at? base = some (.folder entries)) ∧ search.Readable orchard base ∧
      ∃ paths : List (List Text),
        (paths.map fun path => path.map Utf8.encode).Pairwise (· < ·) ∧
        List.Forall₂ (fun (path : List Text) (file : SourceFile) =>
          orchard.resolve .use file.directory = .ok (base ++ path.dropLast.map Utf8.encode) ∧
            path.getLast? = some file.filename) paths
          [⟨Utf8.encode "entry".toList, "A.java".toList⟩,
            ⟨Utf8.encode "entry//./a".toList, "ä.java".toList⟩,
            ⟨Utf8.encode "entry".toList, "a.java".toList⟩] ∧
        ∀ path : List Text, path ∈ paths ↔ search.Wanted orchard base path := by
  intro search base
  have hsound : orchard.topFolder.Sound := Entry.Sound.of_allFolders (by decide)
  have htext : orchard.topFolder.InText := Entry.InText.of_allFolders (by decide)
  have hroot : orchard.resolve .use search.root = .ok base := by decide
  have hlisted : (search.files orchard).1 = .ok
      [⟨Utf8.encode "entry".toList, "A.java".toList⟩,
        ⟨Utf8.encode "entry//./a".toList, "ä.java".toList⟩,
        ⟨Utf8.encode "entry".toList, "a.java".toList⟩] := by decide +kernel
  have hreadable : search.Readable orchard base :=
    readable_of_opens hsound hroot rfl (by decide +kernel)
  obtain ⟨files, paths, hfiles, hresult⟩ := files_exactly_wanted hsound htext hroot rfl hreadable
  obtain rfl := Except.ok.inj (hlisted.symm.trans hfiles)
  exact ⟨hsound, htext, hroot, ⟨_, rfl⟩, hreadable, paths, hresult⟩

/-- If it is not excluded, the folder that cannot be opened ends the search. -/
example : Search.found { root := Utf8.encode "entry".toList } orchard
    = .error (.search (Utf8.encode "entry/a/build".toList) .notPermitted) := by decide +kernel

end Search

end PackageAtlas
