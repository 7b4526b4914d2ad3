import PackageAtlas.FileTree.Path
import PackageAtlas.Table

set_option autoImplicit false

/-! # File trees

A file tree holds files, symbolic links and folders, which are tables of named entries. It has a
place from which relative paths start. A `Location` is the list of names from the top to an entry,
none of them through a link. Some entries may be there and yet not be opened: the tree has the
`faults` that this is due to.

* `resolve` leads from a path to a location: it steps through names (`walk`) and begins anew where
  it meets a link, at most `linkLimit` times.
* `entry` and `canonical` look at the tree, `opened` and `read` also open what is there, `create`,
  `addFile`, `addFolder` and `addLink` give a changed tree. -/

namespace PackageAtlas

/-- What can be in a folder. -/
inductive Entry where
  | file (content : Bytes)
  | link (target : Bytes)
  | folder (entries : List (Bytes × Entry))

/-- The names from the top of a tree to an entry. -/
abbrev Location := List Bytes

namespace Entry

/-- The entry at a location below an entry. -/
def at? : Entry → Location → Option Entry
  | entry, [] => some entry
  | folder entries, name :: rest => (Table.get? name entries).bind fun entry => entry.at? rest
  | _, _ :: _ => none

/-- An entry with `new` at a location below it; folders missing on the way are made. -/
def put (new : Entry) : Location → Entry → Entry
  | [], _ => new
  | name :: rest, folder entries =>
    folder (Table.put name (put new rest ((Table.get? name entries).getD (folder []))) entries)
  | _ :: _, other => other

end Entry

/-- Why a path cannot be used. -/
inductive PathError where
  | notFound
  | notAFolder
  | isAFolder
  | tooLong
  | tooManyLinks
  | zeroByte
  | notPermitted
  | deviceFailed
  deriving DecidableEq

/-- The error in words. -/
def PathError.message : PathError → Text
  | .notFound => "No such file or directory (os error 2)".toList
  | .notAFolder => "Not a directory (os error 20)".toList
  | .isAFolder => "Is a directory (os error 21)".toList
  | .tooLong => "File name too long (os error 36)".toList
  | .tooManyLinks => "Too many levels of symbolic links (os error 40)".toList
  | .zeroByte => "file name contained an unexpected NUL byte".toList
  | .notPermitted => "Permission denied (os error 13)".toList
  | .deviceFailed => "Input/output error (os error 5)".toList

/-- What an entry is opened for. -/
inductive Access where
  | reading
  | writing
  deriving DecidableEq

/-- All entries, and the place from which relative paths start. -/
structure FileTree where
  /-- The entries of the folder at the top. -/
  top : List (Bytes × Entry)
  /-- The folder where relative paths start. -/
  here : Location
  /-- The locations where nothing can be opened for one purpose or another, and why. What is there
  can be seen, and paths can lead through it. -/
  faults : List ((Location × Access) × PathError) := []

namespace FileTree

/-- The tree without entries. -/
def empty : FileTree where
  top := []
  here := []

/-- The folder at the top. -/
def topFolder (tree : FileTree) : Entry :=
  .folder tree.top

/-- The entry at a location. -/
def at? (tree : FileTree) (location : Location) : Option Entry :=
  tree.topFolder.at? location

/-- Why nothing can be opened for this at a location, if so. -/
def fault? (tree : FileTree) (access : Access) (location : Location) : Option PathError :=
  tree.faults.lookup (location, access)

/-- The tree with an entry at a location. -/
def put (tree : FileTree) (location : Location) (entry : Entry) : FileTree :=
  match Entry.put entry location tree.topFolder with
  | .folder entries => { tree with top := entries }
  | _ => tree

/-! ## From paths to locations -/

/-- The greatest number of bytes in a name. -/
def nameLimit : Nat :=
  255

/-- The number of bytes that a path must stay below. -/
def pathLimit : Nat :=
  4096

/-- The greatest number of links on the way. -/
def linkLimit : Nat :=
  40

/-- Whether a path is too long to be used as a whole. -/
def isTooLong (path : Bytes) : Bool :=
  pathLimit ≤ path.length

/-- What a path is resolved for. -/
inductive Purpose where
  /-- To look at the entry itself, also if it is a link. -/
  | inspect
  /-- To use what is there, through a link at the end. -/
  | use
  /-- To write a file there, through a link at the end; there need not be one yet. -/
  | create
  /-- To write the path down without links, step by step; each of these paths is looked at. -/
  | spell
  deriving DecidableEq

/-- Where stepping through names ends. -/
inductive Stop where
  /-- After the last name. -/
  | arrived (location : Location)
  /-- At a link in `folder`, with names left. -/
  | link (folder : Location) (target : Bytes) (rest : List Bytes)

/-- Steps from the folder `here` through names, to their end or to a link that is to be followed. -/
def walk (tree : FileTree) (purpose : Purpose) : Location → List Bytes → Except PathError Stop
  | here, [] => .ok (.arrived here)
  | here, name :: rest =>
    match tree.at? here with
    | some (.folder entries) =>
      if name = [] ∨ name = Path.dot then walk tree purpose here rest
      else if name = Path.dotDot then walk tree purpose here.dropLast rest
      else if purpose = .create ∧ rest = [[]] then .error .isAFolder
      else if nameLimit < name.length then .error .tooLong
      else if purpose = .spell ∧ isTooLong (Path.absolute (here ++ [name])) then
        .error .tooLong
      else
        match Table.get? name entries with
        | none =>
          if purpose = .create ∧ rest = [] then .ok (.arrived (here ++ [name]))
          else .error .notFound
        | some (.link target) =>
          if purpose = .inspect ∧ rest = [] then .ok (.arrived (here ++ [name]))
          else .ok (.link here target rest)
        | some _ => walk tree purpose (here ++ [name]) rest
    | _ => .error .notAFolder

/-- The folder where a path starts that is met in the folder `here`. -/
def startOf (here : Location) (path : Bytes) : Location :=
  if Path.isAbsolute path then [] else here

/-- The location at the end of names from the folder `here`, through at most `links` links. -/
def resolveFrom (tree : FileTree) (purpose : Purpose) :
    Nat → Location → List Bytes → Except PathError Location
  | links, here, names =>
    match tree.walk purpose here names with
    | .error e => .error e
    | .ok (.arrived location) => .ok location
    | .ok (.link folder target rest) =>
      match links with
      | 0 => .error .tooManyLinks
      | more + 1 =>
        resolveFrom tree purpose more (startOf folder target) (Path.names target ++ rest)

/-- The location of a path of any length. -/
def locate (tree : FileTree) (purpose : Purpose) (path : Bytes) : Except PathError Location :=
  if path.contains 0 then .error .zeroByte
  else if path = [] then .error .notFound
  else tree.resolveFrom purpose linkLimit (startOf tree.here path) (Path.names path)

/-- The location of a path; one that is too long as a whole is refused unread. -/
def resolve (tree : FileTree) (purpose : Purpose) (path : Bytes) : Except PathError Location :=
  if isTooLong path ∧ ¬ path.contains 0 then .error .tooLong
  else tree.locate purpose path

/-! ## Looking -/

/-- The path without links, dots and doubled slashes that leads to the same entry. -/
def canonical (tree : FileTree) (path : Bytes) : Except PathError Bytes :=
  (tree.locate .spell path).map Path.absolute

/-- The entry that a path leads to. -/
def entry (tree : FileTree) (purpose : Purpose) (path : Bytes) : Except PathError Entry :=
  match tree.resolve purpose path with
  | .error e => .error e
  | .ok location =>
    match tree.at? location with
    | some entry => .ok entry
    | none => .error .notFound

/-- The entry that a path leads to, opened for reading. -/
def opened (tree : FileTree) (path : Bytes) : Except PathError Entry :=
  match tree.resolve .use path with
  | .error e => .error e
  | .ok location =>
    match tree.fault? .reading location with
    | some e => .error e
    | none => tree.entry .use path

/-- The content of the file that a path leads to. -/
def read (tree : FileTree) (path : Bytes) : Except PathError Bytes :=
  match tree.opened path with
  | .error e => .error e
  | .ok (.file content) => .ok content
  | .ok (.folder _) => .error .isAFolder
  | .ok (.link _) => .error .tooManyLinks

/-! ## Changing -/

/-- The tree with a file of this content where a path leads; a file there is overwritten. -/
def create (tree : FileTree) (path content : Bytes) : Except PathError FileTree :=
  match tree.resolve .create path with
  | .error e => .error e
  | .ok location =>
    match tree.at? location, tree.fault? .writing location with
    | some (.folder _), _ => .error .isAFolder
    | _, some e => .error e
    | _, none => .ok (tree.put location (.file content))

/-- The tree with a folder at the end of names from `here` and at each one before, and the location
of the last. Folders that are there, also behind links, are kept. -/
def addFolders (tree : FileTree) : Location → List Bytes → Except PathError (FileTree × Location)
  | here, [] => .ok (tree, here)
  | here, name :: rest =>
    match tree.resolveFrom .use linkLimit here [name] with
    | .ok location => addFolders tree location rest
    | .error e =>
      if e = .notFound ∧ (tree.at? (here ++ [name])).isNone then
        addFolders (tree.put (here ++ [name]) (.folder [])) (here ++ [name]) rest
      else .error e

/-- The tree with a folder where a path leads and all folders on the way, and its location. -/
def addFolder (tree : FileTree) (path : Bytes) : Except PathError (FileTree × Location) :=
  tree.addFolders (startOf tree.here path) ((Path.names path).filter (· ≠ []))

/-- The tree with a file where a path leads, and all folders on the way. -/
def addFile (tree : FileTree) (path content : Bytes) : Except PathError FileTree := do
  let (tree, _) ← tree.addFolder (Path.parent path)
  tree.create path content

/-- The tree with a symbolic link where a path leads, and all folders on the way. -/
def addLink (tree : FileTree) (path target : Bytes) : Except PathError FileTree := do
  let (tree, folder) ← tree.addFolder (Path.parent path)
  return tree.put (folder ++ [Path.fileName path]) (.link target)

end FileTree

end PackageAtlas
