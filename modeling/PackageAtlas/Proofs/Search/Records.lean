import PackageAtlas.Proofs.Search.Files
import PackageAtlas.Search.Collection

set_option autoImplicit false

/-! # What a collection makes of the files that are found

A collection reads one file after the other by a path that is put together anew from what the search
listed. Either every file is read, or there is a first one that is not, and only the entries before
it count (`collect_readings`, `exists_readings`). In a file tree whose names are texts the new path
leads to the file that was found, and only its length or a fault there keeps it from being read
(`Readable.exists_content`). -/

namespace PackageAtlas

open Entry (filesIn)

namespace Search

/-- A file that was found, and the content that was read from it. -/
abbrev Reading := SourceFile × Bytes

/-- The record that a reading gives. -/
def Reading.record (reading : Reading) : Record :=
  Record.ofLines reading.1.filename (lines (Utf8.decodeLossy reading.2))

/-- What is told of a reading. -/
def Reading.entry (reading : Reading) : LogEntry :=
  recordEntry reading.1 reading.record

/-- Each reading is what the path of its file gives. -/
def Reads (tree : FileTree) (readings : List Reading) : Prop :=
  ∀ reading ∈ readings, tree.read reading.1.path = .ok reading.2

/-! ## File after file -/

section Collecting

variable (tree : FileTree)

/-- Every file can be read, or one of them is the first that cannot. -/
theorem exists_readings (files : List SourceFile) :
    (∃ readings, Reads tree readings ∧ files = readings.map Prod.fst) ∨
      ∃ readings file rest cause, Reads tree readings ∧
        files = readings.map Prod.fst ++ file :: rest ∧ tree.read file.path = .error cause := by
  induction files with
  | nil => exact Or.inl ⟨[], List.forall_mem_nil _, rfl⟩
  | cons file rest ih =>
      cases hread : tree.read file.path with
      | error cause => exact Or.inr ⟨[], file, rest, cause, List.forall_mem_nil _, rfl, hread⟩
      | ok content =>
          rcases ih with
            ⟨readings, hreads, rfl⟩ | ⟨readings, other, more, cause, hreads, rfl, hother⟩
          · exact Or.inl ⟨(file, content) :: readings, List.forall_mem_cons.2 ⟨hread, hreads⟩, rfl⟩
          · exact Or.inr ⟨(file, content) :: readings, other, more, cause,
              List.forall_mem_cons.2 ⟨hread, hreads⟩, rfl, hother⟩

variable {tree}

/-- Files that can be read have one record and one entry each, before what comes of the others. -/
theorem collect_readings {readings : List Reading} (h : Reads tree readings)
    (rest : List SourceFile) :
    collect tree (readings.map Prod.fst ++ rest)
      = ((collect tree rest).1.map (readings.map Reading.record ++ ·),
          readings.map Reading.entry ++ (collect tree rest).2) := by
  induction readings with
  | nil => cases hrest : (collect tree rest).1 <;> simp [Prod.ext_iff, hrest, Except.map]
  | cons reading readings ih =>
      obtain ⟨hread, hreads⟩ := List.forall_mem_cons.1 h
      have hlines : tree.readLines reading.1.path = .ok (lines (Utf8.decodeLossy reading.2)) := by
        rw [FileTree.readLines, hread]
      rw [List.map_cons, List.cons_append, collect, hlines]
      simp only [ih hreads]
      cases (collect tree rest).1 <;> rfl

theorem collect_of_error {file : SourceFile} {cause : PathError}
    (h : tree.read file.path = .error cause) (rest : List SourceFile) :
    collect tree (file :: rest) = (.error (.read file.path cause), []) := by
  rw [collect, FileTree.readLines, h]

variable {search : Search}

/-- A collection of files that can all be read. -/
theorem records_of_reads {readings : List Reading} (h : Reads tree readings)
    (hfound : search.found tree = .ok (readings.map Prod.fst)) :
    search.records tree
      = (.ok (readings.map Reading.record),
          search.foundEntry readings.length ::
            (readings.map Reading.entry ++ [search.collectedEntry readings.length])) := by
  have hcollect := collect_readings h []
  rw [List.append_nil] at hcollect
  rw [records, hfound]
  simp [hcollect, collect, Except.map]

/-- A collection that ends at a file. -/
theorem records_of_error {readings : List Reading} (h : Reads tree readings) {file : SourceFile}
    {rest : List SourceFile} {cause : PathError} (hread : tree.read file.path = .error cause)
    (hfound : search.found tree = .ok (readings.map Prod.fst ++ file :: rest)) :
    search.records tree
      = (.error (.read file.path cause),
          search.foundEntry (readings.map Prod.fst ++ file :: rest).length ::
            readings.map Reading.entry) := by
  rw [records, hfound]
  simp [collect_readings h, collect_of_error hread, Except.map]

end Collecting

/-! ## The files behind the entries -/

/-- There is a regular file with this content and the name of the entry in the folder that the
directory of the entry leads to. -/
def Holds (tree : FileTree) (reading : Reading) : Prop :=
  ∃ folder, tree.resolve .use reading.1.directory = .ok folder ∧
    tree.at? (folder ++ [Utf8.encode reading.1.filename]) = some (.file reading.2)

variable {search : Search} {tree : FileTree} {base : Location} {entries : List (Bytes × Entry)}

/-- The path put together from an entry leads to the file that was found. -/
theorem Readable.exists_content (h : search.Readable tree base)
    (hroot : tree.resolve .use search.root = .ok base)
    (hfolder : tree.at? base = some (.folder entries)) (hsound : (Entry.folder entries).Sound)
    {path : List Text} (hmem : path.map Utf8.encode ∈ filesIn entries)
    (hselects : search.selects (path.map Utf8.encode) = true)
    (hshort : FileTree.isTooLong (sourceFile search.root (path.map Utf8.encode)).path = false)
    (hfault : tree.fault? .reading (base ++ path.map Utf8.encode) = none) :
    ∃ content, Holds tree (sourceFile search.root (path.map Utf8.encode), content) ∧
      tree.read (sourceFile search.root (path.map Utf8.encode)).path = .ok content := by
  obtain ⟨front, name, rfl⟩ : ∃ front name, path = front ++ [name] := by
    refine (List.eq_nil_or_concat' path).resolve_left fun hnil => ?_
    exact ne_nil_of_mem_filesIn hmem (by rw [hnil, List.map_nil])
  have hfilename :
      (sourceFile search.root ((front ++ [name]).map Utf8.encode)).filename = name := by
    simp [sourceFile, Utf8.decodeLossy_encode]
  rw [SourceFile.path, hfilename] at hshort
  rw [List.map_append, List.map_singleton] at *
  obtain ⟨inner, hopens, hdirectory, hlegal, content, hget⟩ :=
    h.opens_directory hroot hfolder hsound hmem hselects
  refine ⟨content, ⟨base ++ front.map Utf8.encode, ?_, ?_⟩, ?_⟩
  · exact FileTree.resolve_eq_ok_iff.2 ⟨hdirectory, (FileTree.opens_iff.1 hopens).1⟩
  · rw [hfilename]
    exact tree.at?_entry hopens.isFolder hget
  · rw [SourceFile.path, hfilename]
    exact hopens.read_join hlegal hget hshort (by rwa [List.append_assoc])

/-- Where every file that is listed can be read and holds what is read, there are readings of all of
them. -/
theorem exists_readings_of {files : List SourceFile}
    (h : ∀ file ∈ files, ∃ content,
      Holds tree (file, content) ∧ tree.read file.path = .ok content) :
    ∃ readings, files = readings.map Prod.fst ∧ Reads tree readings ∧
      ∀ reading ∈ readings, Holds tree reading := by
  rcases exists_readings tree files with
    ⟨readings, hreads, rfl⟩ | ⟨readings, file, rest, cause, -, rfl, hread⟩
  · refine ⟨readings, rfl, hreads, fun reading hreading => ?_⟩
    obtain ⟨content, hholds, hread⟩ := h reading.1 (List.mem_map_of_mem hreading)
    obtain rfl : reading.2 = content :=
      Except.ok.inj ((hreads reading hreading).symm.trans hread)
    exact hholds
  · obtain ⟨content, -, hcontent⟩ := h file (List.mem_append_right _ (List.mem_cons_self ..))
    exact absurd (hread.symm.trans hcontent) nofun

theorem Wanted.mem_filesIn {path : List Text} (h : search.Wanted tree base path)
    (hfolder : tree.at? base = some (.folder entries)) (hsound : (Entry.folder entries).Sound) :
    path.map Utf8.encode ∈ filesIn entries := by
  obtain ⟨⟨content, hat⟩, -⟩ := h
  exact (Entry.mem_files _ hsound).2 ⟨content, (at?_below hfolder _).symm.trans hat⟩

/-- **A collection has one record for each file that was found, from the very file.** In a file tree
whose names are texts, let the root lead to a folder, let the folders below it be readable, and let
there be no file that is wanted whose path is too long or that a fault keeps from being opened. Then
all files are read, each holds what was read, and
the records and the entries stand in the order of the files. In any file tree, if some file that was
found cannot be read, the collection ends at the first such file; what is told is how many files
were found and one entry for each file before. -/
theorem records_exactly_files (search : Search) (tree : FileTree) :
    (∀ base entries, tree.topFolder.Sound → tree.topFolder.InText →
      tree.resolve .use search.root = .ok base → tree.at? base = some (.folder entries) →
      search.Readable tree base →
      (∀ path, search.Wanted tree base path →
        FileTree.isTooLong (sourceFile search.root (path.map Utf8.encode)).path = false ∧
          tree.fault? .reading (base ++ path.map Utf8.encode) = none) →
      ∃ readings : List Reading, (search.files tree).1 = .ok (readings.map Prod.fst) ∧
        (∀ reading ∈ readings, Holds tree reading) ∧
        search.records tree
          = (.ok (readings.map Reading.record),
              search.foundEntry readings.length ::
                (readings.map Reading.entry ++ [search.collectedEntry readings.length]))) ∧
    ∀ files, (search.files tree).1 = .ok files →
      (∃ file ∈ files, ∃ cause, tree.read file.path = .error cause) →
      ∃ (readings : List Reading) (file : SourceFile) (rest : List SourceFile) (cause : PathError),
        files = readings.map Prod.fst ++ file :: rest ∧ Reads tree readings ∧
        tree.read file.path = .error cause ∧
        search.records tree
          = (.error (.read file.path cause),
              search.foundEntry files.length :: readings.map Reading.entry) := by
  constructor
  · intro base entries hsound htext hroot hfolder hreadable hopen
    have hentries : (Entry.folder entries).Sound := hsound.at? hfolder
    have hfound : search.found tree
        = .ok (((filesIn entries).filter search.selects).map (sourceFile search.root)) :=
      (found_eq_inRoot hroot hfolder).trans (hreadable.inRoot_eq hfolder hentries)
    obtain ⟨readings, hreadings, hreads, hholds⟩ : ∃ readings : List Reading,
        ((filesIn entries).filter search.selects).map (sourceFile search.root)
          = readings.map Prod.fst ∧ Reads tree readings ∧
            ∀ reading ∈ readings, Holds tree reading := by
      refine exists_readings_of fun file hfile => ?_
      obtain ⟨location, hlocation, rfl⟩ := List.mem_map.1 hfile
      obtain ⟨hmem, hselects⟩ := List.mem_filter.1 hlocation
      obtain ⟨path, rfl, hwanted⟩ := exists_wanted htext hfolder hentries hmem hselects
      obtain ⟨hshort, hfault⟩ := hopen path hwanted
      exact hreadable.exists_content hroot hfolder hentries hmem hselects hshort hfault
    rw [hreadings] at hfound
    exact ⟨readings, hfound, hholds, records_of_reads hreads hfound⟩
  · rintro files hfiles ⟨unread, hunread, failure, hfailure⟩
    rcases exists_readings tree files with
      ⟨readings, hreads, rfl⟩ | ⟨readings, file, rest, cause, hreads, rfl, hread⟩
    · obtain ⟨reading, hreading, rfl⟩ := List.mem_map.1 hunread
      exact absurd (hfailure.symm.trans (hreads reading hreading)) nofun
    · exact ⟨readings, file, rest, cause, rfl, hreads, hread, records_of_error hreads hread hfiles⟩

/-- A tree with two files in the search, one of them with a byte that begins no character. -/
def pantry : FileTree where
  top :=
    [(Utf8.encode "jars".toList, .folder
      [(Utf8.encode "A.java".toList, .file (Utf8.encode "package p;\n//".toList ++ [0xFF])),
        (Utf8.encode "b".toList, .folder
          [(Utf8.encode "C.java".toList, .file (Utf8.encode "import q.R".toList))])])]
  here := []

/-- The tree with a file whose name is no text. -/
def cracked : FileTree where
  top :=
    [(Utf8.encode "jars".toList, .folder
      [(Utf8.encode "A.java".toList, .file (Utf8.encode "package p;".toList)),
        (Utf8.encode "B".toList ++ 0xFF :: Utf8.encode ".java".toList, .file []),
        (Utf8.encode "C.java".toList, .file [])])]
  here := []

/-- The collection of all files, and one that ends at the second of three. -/
theorem records_exactly_files_pantry :
    let search : Search := { root := Utf8.encode "jars/".toList }
    let base : Location := [Utf8.encode "jars".toList]
    (pantry.topFolder.Sound ∧ pantry.topFolder.InText ∧
      pantry.resolve .use search.root = .ok base ∧
      (∃ entries, pantry.at? base = some (.folder entries)) ∧ search.Readable pantry base ∧
      (∀ path, search.Wanted pantry base path →
        FileTree.isTooLong (sourceFile search.root (path.map Utf8.encode)).path = false ∧
          pantry.fault? .reading (base ++ path.map Utf8.encode) = none) ∧
      ∃ readings : List Reading,
        readings.map Prod.fst = [⟨Utf8.encode "jars".toList, "A.java".toList⟩,
          ⟨Utf8.encode "jars/b".toList, "C.java".toList⟩] ∧
        (∀ reading ∈ readings, Holds pantry reading) ∧
        search.records pantry
          = (.ok (readings.map Reading.record),
              search.foundEntry readings.length ::
                (readings.map Reading.entry ++ [search.collectedEntry readings.length]))) ∧
    (∃ file ∈ [⟨Utf8.encode "jars".toList, "A.java".toList⟩,
        ⟨Utf8.encode "jars".toList, Utf8.decodeLossy [0x42, 0xFF] ++ ".java".toList⟩,
        ⟨Utf8.encode "jars".toList, "C.java".toList⟩],
      ∃ cause, cracked.read (SourceFile.path file) = .error cause) ∧
    ∃ (readings : List Reading) (file : SourceFile) (rest : List SourceFile) (cause : PathError),
      [⟨Utf8.encode "jars".toList, "A.java".toList⟩,
        ⟨Utf8.encode "jars".toList, Utf8.decodeLossy [0x42, 0xFF] ++ ".java".toList⟩,
        ⟨Utf8.encode "jars".toList, "C.java".toList⟩] = readings.map Prod.fst ++ file :: rest ∧
      Reads cracked readings ∧ cracked.read file.path = .error cause ∧
      search.records cracked
        = (.error (.read file.path cause), search.foundEntry 3 :: readings.map Reading.entry) := by
  intro search base
  have hsound : pantry.topFolder.Sound := Entry.Sound.of_allFolders (by decide)
  have htext : pantry.topFolder.InText := Entry.InText.of_allFolders (by decide)
  have hroot : pantry.resolve .use search.root = .ok base := by decide
  have hreadable : search.Readable pantry base :=
    readable_of_opens hsound hroot rfl (by decide +kernel)
  have hopen : ∀ path, search.Wanted pantry base path →
      FileTree.isTooLong (sourceFile search.root (path.map Utf8.encode)).path = false ∧
        pantry.fault? .reading (base ++ path.map Utf8.encode) = none := by
    obtain ⟨entries, hfolder, hall⟩ : ∃ entries, pantry.at? base = some (.folder entries) ∧
        ∀ location ∈ filesIn entries,
          FileTree.isTooLong (sourceFile search.root location).path = false :=
      ⟨_, rfl, by decide +kernel⟩
    exact fun path hwanted =>
      ⟨hall _ (hwanted.mem_filesIn hfolder (hsound.at? hfolder)), rfl⟩
  have hfiles : (search.files pantry).1 = .ok
      [⟨Utf8.encode "jars".toList, "A.java".toList⟩,
        ⟨Utf8.encode "jars/b".toList, "C.java".toList⟩] := by decide +kernel
  have hcracked : (search.files cracked).1 = .ok
      [⟨Utf8.encode "jars".toList, "A.java".toList⟩,
        ⟨Utf8.encode "jars".toList, Utf8.decodeLossy [0x42, 0xFF] ++ ".java".toList⟩,
        ⟨Utf8.encode "jars".toList, "C.java".toList⟩] := by decide +kernel
  have hunread : ∃ file ∈ [⟨Utf8.encode "jars".toList, "A.java".toList⟩,
        ⟨Utf8.encode "jars".toList, Utf8.decodeLossy [0x42, 0xFF] ++ ".java".toList⟩,
        ⟨Utf8.encode "jars".toList, "C.java".toList⟩],
      ∃ cause, cracked.read (SourceFile.path file) = .error cause :=
    ⟨_, List.mem_cons_of_mem _ (List.mem_cons_self ..), .notFound, by decide +kernel⟩
  obtain ⟨readings, hlisted, hholds, hrecords⟩ :=
    (records_exactly_files search pantry).1 base _ hsound htext hroot rfl hreadable hopen
  obtain hlisted := Except.ok.inj (hlisted.symm.trans hfiles)
  exact ⟨⟨hsound, htext, hroot, ⟨_, rfl⟩, hreadable, hopen, readings, hlisted, hholds, hrecords⟩,
    hunread, (records_exactly_files search cracked).2 _ hcracked hunread⟩

/-- Folders of one name, each in the one before. -/
def shaft (name : Bytes) : Nat → Entry
  | 0 => .folder []
  | depth + 1 => .folder [(name, shaft name depth)]

/-- A tree with one file to read, and beside it folders so deep that their path is too long. -/
def mine : FileTree where
  top :=
    [(Utf8.encode "src".toList, .folder
      [(Utf8.encode "A.java".toList, .file (Utf8.encode "package p;\n".toList)),
        (List.replicate 250 0x64, shaft (List.replicate 250 0x64) 16)])]
  here := []

/-- A folder that cannot be read ends a collection, though all files that are wanted can be. -/
theorem records_mine :
    let search : Search := { root := Utf8.encode "src".toList }
    let base : Location := [Utf8.encode "src".toList]
    mine.topFolder.Sound ∧ mine.topFolder.InText ∧ mine.resolve .use search.root = .ok base ∧
      (∃ entries, mine.at? base = some (.folder entries)) ∧
      (∀ path, search.Wanted mine base path → ∃ content,
        mine.read (sourceFile search.root (path.map Utf8.encode)).path = .ok content) ∧
      ¬ ∃ records, (search.records mine).1 = .ok records := by
  intro search base
  have hsound : mine.topFolder.Sound := Entry.Sound.of_allFolders (by decide +kernel)
  have htext : mine.topFolder.InText := Entry.InText.of_allFolders (by decide +kernel)
  have hroot : mine.resolve .use search.root = .ok base := by decide +kernel
  obtain ⟨entries, hfolder, hfiles⟩ : ∃ entries, mine.at? base = some (.folder entries) ∧
      filesIn entries = [[Utf8.encode "A.java".toList]] := ⟨_, rfl, by decide +kernel⟩
  refine ⟨hsound, htext, hroot, ⟨entries, hfolder⟩, fun path hwanted => ?_, ?_⟩
  · have hmem := hwanted.mem_filesIn hfolder (hsound.at? hfolder)
    rw [hfiles, List.mem_singleton] at hmem
    rw [hmem]
    exact ⟨Utf8.encode "package p;\n".toList, by decide +kernel⟩
  · rintro ⟨records, hrecords⟩
    have hnone : (search.records mine).1.toOption = none := by decide +kernel
    rw [hrecords] at hnone
    exact absurd hnone nofun

end Search

end PackageAtlas
