import PackageAtlas.FileTree
import PackageAtlas.Glob
import PackageAtlas.Log
import PackageAtlas.Text.Utf8

set_option autoImplicit false

/-! # Searching for source files

A search lists the regular files below a root whose names have the form of a pattern, folder by
folder in the order of the names. Files and folders with an excluded name are left out with all that
is in them; the root itself is never excluded. Links are neither listed nor followed, except that a
root that is a link to a folder is searched as that folder, under the name of the link. Each folder
is opened by its path, and a search ends at the first that cannot be opened: its path is too long,
or the tree has a fault there. -/

namespace PackageAtlas

/-- Where to search, and for what. -/
structure Search where
  /-- The path of the folder to search, or of a single file. -/
  root : Bytes
  /-- The pattern of the names of source files. -/
  pattern : Text := Glob.sourceFiles
  /-- The names left out. -/
  excludes : List Text := []

/-- A file that was found. -/
structure SourceFile where
  /-- The path of the folder it is in. -/
  directory : Bytes
  /-- Its name, as a text. -/
  filename : Text
  deriving DecidableEq

/-- The path under which a file that was found is read. -/
def SourceFile.path (file : SourceFile) : Bytes :=
  Path.join file.directory (Utf8.encode file.filename)

/-- Why source files cannot be listed or read. -/
inductive SourceError where
  /-- The file at `path` cannot be read. -/
  | read (path : Bytes) (cause : PathError)
  /-- The root cannot be seen, or the folder at `path` cannot be opened. -/
  | search (path : Bytes) (cause : PathError)
  deriving DecidableEq

namespace SourceError

/-- What lies behind the error. -/
def cause : SourceError → PathError
  | read _ cause => cause
  | search _ cause => cause

/-- What lies behind the error in words, from the nearest to the last. -/
def causes : SourceError → List Text
  | read _ cause => [cause.message]
  | search path cause =>
    ["IO error for operation on ".toList ++ Utf8.decodeLossy path ++ ": ".toList ++ cause.message,
      cause.message]

/-- The error in words. -/
def message : SourceError → Text
  | read path cause =>
    "Read error: ".toList ++ Utf8.decodeLossy path ++ ": ".toList ++ cause.message
  | search path cause =>
    "Walk error: IO error for operation on ".toList ++ Utf8.decodeLossy path ++ ": ".toList
      ++ cause.message

end SourceError

namespace Search

/-- Whether an entry with this name is left out. -/
def isExcluded (search : Search) (name : Bytes) : Bool :=
  search.excludes.contains (Utf8.decodeLossy name)

/-- The file at `path` with this name, if its name has the form of the pattern. -/
def candidate (search : Search) (path name : Bytes) : List SourceFile :=
  if Glob.accepts search.pattern (Utf8.decodeLossy name) then
    [⟨Path.parent path, Utf8.decodeLossy name⟩]
  else []

mutual

/-- The files in an entry of the folder `folder`. -/
def inEntry (search : Search) (folder name : Bytes) : Entry → List SourceFile
  | .file _ => if search.isExcluded name then [] else search.candidate (Path.join folder name) name
  | .link _ => []
  | .folder entries =>
    if search.isExcluded name then [] else search.inEntries (Path.join folder name) entries

/-- The files in the entries of the folder `folder`, in the order of the entries. -/
def inEntries (search : Search) (folder : Bytes) : List (Bytes × Entry) → List SourceFile
  | [] => []
  | (name, entry) :: rest => search.inEntry folder name entry ++ search.inEntries folder rest

end

mutual

/-- The paths of the folders opened in an entry of the folder `folder`, in the order of opening. -/
def opensInEntry (search : Search) (folder name : Bytes) : Entry → List Bytes
  | .file _ => []
  | .link _ => []
  | .folder entries =>
    if search.isExcluded name then []
    else Path.join folder name :: search.opensInEntries (Path.join folder name) entries

/-- The paths of the folders opened in the entries of the folder `folder`. -/
def opensInEntries (search : Search) (folder : Bytes) : List (Bytes × Entry) → List Bytes
  | [] => []
  | (name, entry) :: rest =>
    search.opensInEntry folder name entry ++ search.opensInEntries folder rest

end

/-- The paths of the folders opened in a search whose root has these entries. -/
def opens (search : Search) (entries : List (Bytes × Entry)) : List Bytes :=
  search.root :: search.opensInEntries search.root entries

/-- The error of a search that opens the folder at `path`, if that cannot be opened. -/
def openError? (tree : FileTree) (path : Bytes) : Option SourceError :=
  match tree.opened path with
  | .error cause => some (.search path cause)
  | .ok _ => none

/-- The files in the entries of the root, if every folder there that is not left out can be
opened. -/
def inRoot (search : Search) (tree : FileTree) (entries : List (Bytes × Entry)) :
    Except SourceError (List SourceFile) :=
  match (search.opens entries).findSome? (openError? tree) with
  | some error => .error error
  | none => .ok (search.inEntries search.root entries)

/-- The files below the root. -/
def found (search : Search) (tree : FileTree) : Except SourceError (List SourceFile) :=
  match tree.entry .inspect search.root with
  | .error cause => .error (.search search.root cause)
  | .ok (.file _) => .ok (search.candidate search.root (Path.fileName search.root))
  | .ok (.folder entries) => search.inRoot tree entries
  | .ok (.link _) =>
    match tree.entry .use search.root with
    | .error cause => .error (.search search.root cause)
    | .ok (.folder entries) => search.inRoot tree entries
    | .ok _ => .ok []

/-- The entry that tells how many files were found. -/
def foundEntry (search : Search) (count : Nat) : LogEntry :=
  ⟨.debug, "Matched ".toList ++ Nat.toDigits 10 count ++ " files under ".toList
    ++ Utf8.decodeLossy search.root⟩

/-- What a search tells besides its result. -/
def entriesOf (search : Search) : Except SourceError (List SourceFile) → List LogEntry
  | .error _ => []
  | .ok files => [search.foundEntry files.length]

/-- The files below the root, and the entry that counts them. -/
def files (search : Search) (tree : FileTree) :
    Except SourceError (List SourceFile) × List LogEntry :=
  (search.found tree, search.entriesOf (search.found tree))

end Search

end PackageAtlas
