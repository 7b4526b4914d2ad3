import PackageAtlas.Record

set_option autoImplicit false

/-! # Trees of packages and classes

A tree is what a namespace holds at a moment, without the identity of its nodes: packages with
their entries in the order of the keys, and classes. What is said of a whole namespace (how many
nodes it has, which classes, how it is drawn) is computed on its tree. -/

namespace PackageAtlas

/-- A package with its entries under their keys, or a class. -/
inductive Tree where
  | package (entries : List (Text × Tree))
  | cls (record : Record)

namespace Tree

mutual

/-- The number of nodes, packages and classes alike. -/
def size : Tree → Nat
  | .package entries => 1 + sizeOfEntries entries
  | .cls _ => 1

/-- The number of nodes below a package. -/
def sizeOfEntries : List (Text × Tree) → Nat
  | [] => 0
  | (_, tree) :: rest => tree.size + sizeOfEntries rest

end

mutual

/-- The records of the classes, in the order of their paths. -/
def leaves : Tree → List Record
  | .package entries => leavesOfEntries entries
  | .cls record => [record]

/-- The records of the classes below a package. -/
def leavesOfEntries : List (Text × Tree) → List Record
  | [] => []
  | (_, tree) :: rest => tree.leaves ++ leavesOfEntries rest

end

end Tree

end PackageAtlas
