import PackageAtlas.Dependencies
import PackageAtlas.Diagram.Identifier
import PackageAtlas.Namespace

set_option autoImplicit false

/-! # The body of a diagram

The body draws a tree of packages and classes as nested blocks, one line for a class, and for a
package a line, an opening brace, its entries one step deeper and a closing brace; then one line for
each dependency between packages. -/

namespace PackageAtlas

/-- How diagrams are laid out. -/
structure Layout where
  /-- The number of blanks that one level of nesting adds. -/
  indent : Nat := 2
  /-- The text of the title line, if there is to be one. -/
  title : Option Text := none

namespace Diagram

/-- The blanks in front of a line at a level of nesting. -/
def pad (indent depth : Nat) : Text :=
  List.replicate (indent * depth) ' '

/-- A keyword, a quoted label and an identifier. -/
def declaration (keyword label identifier : Text) : Text :=
  keyword ++ " \"".toList ++ label ++ "\" as ".toList ++ identifier

/-- The line of a class under `key` in the package `path`. -/
def classLine (indent depth : Nat) (path key : Text) (record : Record) : Text :=
  pad indent depth ++ declaration "class".toList record.className (Identifier.ofClass path key)

/-- The line of the package `path`, whose last segment is `key`. -/
def packageLine (indent depth : Nat) (path key : Text) : Text :=
  pad indent depth ++ declaration "package".toList key (Identifier.ofPackage path)

/-- The line that opens a block. -/
def openLine (indent depth : Nat) : Text :=
  pad indent depth ++ ['{']

/-- The line that closes a block. -/
def closeLine (indent depth : Nat) : Text :=
  pad indent depth ++ ['}']

mutual

/-- The lines of the entry under `key` in the package `path`, at a level of nesting. -/
def entryLines (indent depth : Nat) (path key : Text) : Tree → List Text
  | .cls record => [classLine indent depth path key record]
  | .package entries =>
    packageLine indent depth (Identifier.extend path key) key :: openLine indent depth ::
      (entriesLines indent (depth + 1) (Identifier.extend path key) entries
        ++ [closeLine indent depth])

/-- The lines of the entries of the package `path`, one after the other. -/
def entriesLines (indent depth : Nat) (path : Text) : List (Text × Tree) → List Text
  | [] => []
  | (key, tree) :: rest =>
    entryLines indent depth path key tree ++ entriesLines indent depth path rest

end

/-- The lines of all that a tree holds; a class alone has no block to stand in. -/
def treeLines (indent : Nat) : Tree → List Text
  | .cls _ => []
  | .package entries => entriesLines indent 0 [] entries

/-- The line of a dependency. -/
def edgeLine (source target : Text) : Text :=
  Identifier.ofPackage source ++ " --> ".toList ++ Identifier.ofPackage target

/-- The lines of all dependencies. -/
def edgeLines (dependencies : Dependencies) : List Text :=
  (Dependencies.edges dependencies).map fun edge => edgeLine edge.1 edge.2

/-- The body of the diagram of a namespace, with the dependencies if they are to be drawn. -/
def body (layout : Layout) (ns : Namespace) (dependencies : Option Dependencies) : List Text :=
  treeLines layout.indent ns.tree ++ (dependencies.map edgeLines).getD []

end Diagram

end PackageAtlas
