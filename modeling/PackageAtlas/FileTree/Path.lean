import PackageAtlas.Text

set_option autoImplicit false

/-! # Paths

A path is a byte string whose pieces between slashes are names. How a path leads through a file
tree needs only `names`; the rest of the module is about paths as texts: putting a name behind one
(`join`), and cutting the last name off (`parent`, `fileName`), where empty pieces and single dots
at the end count as nothing. -/

namespace PackageAtlas.Path

/-- The byte between names. -/
def slash : UInt8 :=
  0x2F

/-- The name of a folder itself. -/
def dot : Bytes :=
  [0x2E]

/-- The name of the folder that a folder is in. -/
def dotDot : Bytes :=
  [0x2E, 0x2E]

/-- Whether a path starts at the top of the tree. -/
def isAbsolute (path : Bytes) : Bool :=
  path.head? = some slash

/-- The names that a path leads through. Slashes in a row separate like one; an empty name at the
end tells of a slash there, which only a folder can stand before. -/
def names (path : Bytes) : List Bytes :=
  (path.splitOn slash).filter (· ≠ []) ++ if path.getLast? = some slash then [[]] else []

/-- The path of `name` in the folder `folder`. -/
def join (folder name : Bytes) : Bytes :=
  if folder = [] ∨ folder.getLast? = some slash then folder ++ name else folder ++ slash :: name

/-- The path from the top of the tree through `names`. -/
def absolute (names : List Bytes) : Bytes :=
  if names = [] then [slash] else names.flatMap fun name => slash :: name

/-! ## The last name -/

/-- Pieces of a path, last first, without the last ones that name nothing; the first piece stays,
for it tells where the path starts. -/
def dropNameless : List Bytes → List Bytes
  | [] => []
  | [first] => [first]
  | piece :: next :: rest =>
    if piece = [] ∨ piece = dot then dropNameless (next :: rest) else piece :: next :: rest

/-- The path with the given pieces, last first. -/
def ofPieces (pieces : List Bytes) : Bytes :=
  if pieces = [[]] then [slash] else [slash].intercalate pieces.reverse

/-- The path of the folder that the last name of a path is in; it is empty where there is none. -/
def parent (path : Bytes) : Bytes :=
  match dropNameless (path.splitOn slash).reverse with
  | [] => []
  | [_] => []
  | _ :: above => ofPieces (dropNameless above)

/-- The last name of a path, or all of the path if it ends in none. -/
def fileName (path : Bytes) : Bytes :=
  match dropNameless (path.splitOn slash).reverse with
  | [] => path
  | last :: _ => if last = [] ∨ last = dot ∨ last = dotDot then path else last

end PackageAtlas.Path
