import PackageAtlas.Record.SourceText
import PackageAtlas.Search
import PackageAtlas.Text.Lines

set_option autoImplicit false

/-! # Collecting records

The files that a search finds are read one after the other, bytes that are no text as replacement
characters, and each gives a record. The first file that cannot be read ends the collection; the
entries for the files before it stay. -/

namespace PackageAtlas

/-- The lines of the file that a path leads to. -/
def FileTree.readLines (tree : FileTree) (path : Bytes) : Except SourceError (List Text) :=
  match tree.read path with
  | .error cause => .error (.read path cause)
  | .ok content => .ok (lines (Utf8.decodeLossy content))

namespace Search

/-- The entry for a file that was read. -/
def recordEntry (file : SourceFile) (record : Record) : LogEntry :=
  ⟨.debug, Utf8.decodeLossy file.path ++ " -> ".toList ++ record.qualifiedName⟩

/-- The records of files, to the first that cannot be read, and an entry for each one read. -/
def collect (tree : FileTree) :
    List SourceFile → Except SourceError (List Record) × List LogEntry
  | [] => (.ok [], [])
  | file :: rest =>
    match tree.readLines file.path with
    | .error e => (.error e, [])
    | .ok content =>
      let record := Record.ofLines file.filename content
      let others := collect tree rest
      (others.1.map (record :: ·), recordEntry file record :: others.2)

/-- The entry that tells how many records were collected. -/
def collectedEntry (search : Search) (count : Nat) : LogEntry :=
  ⟨.info, "Extracted ".toList ++ Nat.toDigits 10 count ++ " records from ".toList
    ++ Utf8.decodeLossy search.root⟩

/-- The records of all files that a search finds, in their order, with all entries. -/
def records (search : Search) (tree : FileTree) :
    Except SourceError (List Record) × List LogEntry :=
  match search.found tree with
  | .error e => (.error e, [])
  | .ok files =>
    match collect tree files with
    | (.error e, entries) => (.error e, search.foundEntry files.length :: entries)
    | (.ok records, entries) =>
      (.ok records,
        search.foundEntry files.length :: (entries ++ [search.collectedEntry records.length]))

end Search

end PackageAtlas
