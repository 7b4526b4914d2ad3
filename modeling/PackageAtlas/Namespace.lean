import PackageAtlas.Log
import PackageAtlas.Namespace.Tree
import PackageAtlas.Table

set_option autoImplicit false

/-! # Namespaces

A namespace holds records under their paths: packages nested segment by segment, classes at the
ends. Its nodes are numbered in the order in which they were made and packages refer to their
entries by number, so a number keeps its meaning while the namespace grows, also when its node is
displaced by a later record and no path leads to it any more.

* `insert` puts a record under its path and displaces what is in the way: a class where a package
  is needed, or whatever stands under the key of the class itself. Each displacement is a `Warning`.
* `lookup` follows a path, written with dots.
* `tree` is the view without numbers; `len`, `leaves` and drawings are functions of it. -/

namespace PackageAtlas

/-- The number of a node. -/
abbrev NodeId := Nat

/-- A package with the numbers of its entries, or a class. -/
inductive Node where
  | package (entries : Table Text NodeId)
  | cls (record : Record)
  deriving DecidableEq

/-- What an insertion displaced. -/
inductive Warning where
  /-- The class that stood under `segment` where the package `package` runs through. -/
  | classOnTheWay (segment package : Text)
  /-- The class `qualifiedName`, which stood under the key of the new class. -/
  | classAtKey (key qualifiedName : Text)
  /-- The package that stood under the key of the new class. -/
  | packageAtKey (key : Text)
  deriving DecidableEq

namespace Warning

/-- The warning in words. -/
def message : Warning → Text
  | classOnTheWay segment package =>
    "package segment ".toList ++ segment ++ " of ".toList ++ package
      ++ " replaced a class leaf".toList
  | classAtKey key qualifiedName =>
    key ++ " replaced existing class ".toList ++ qualifiedName ++ " under the same key".toList
  | packageAtKey key => key ++ " replaced existing package under the same key".toList

/-- The warning as a log entry. -/
def entry (warning : Warning) : LogEntry :=
  ⟨.warn, warning.message⟩

end Warning

/-- Numbered nodes; number 0 is the root package. -/
structure Namespace where
  nodes : Array Node
  deriving DecidableEq

namespace Namespace

/-- The namespace without records. -/
def empty : Namespace :=
  ⟨#[.package []]⟩

/-- The number of the root package. -/
def root : NodeId :=
  0

/-- The node with a number. -/
def node? (ns : Namespace) (id : NodeId) : Option Node :=
  ns.nodes[id]?

/-- The entries of a package; a class has none. -/
def entries (ns : Namespace) (id : NodeId) : Table Text NodeId :=
  match ns.node? id with
  | some (.package entries) => entries
  | _ => []

/-- The number under `key` in the package `id`. -/
def child? (ns : Namespace) (id : NodeId) (key : Text) : Option NodeId :=
  Table.get? key (ns.entries id)

/-! ## Following paths -/

/-- The number at the end of a path that begins at `id`. -/
def follow (ns : Namespace) : NodeId → List Text → Option NodeId
  | id, [] => some id
  | id, key :: rest => (ns.child? id key).bind fun child => ns.follow child rest

/-- The number under a path written with dots. -/
def lookup (ns : Namespace) (path : Text) : Option NodeId :=
  ns.follow root (path.splitOn '.')

/-! ## Inserting -/

/-- A new node under `key` in the package `parent`; its number is the number of nodes so far. -/
def attach (ns : Namespace) (parent : NodeId) (key : Text) (node : Node) : Namespace :=
  ⟨(ns.nodes.push node).setIfInBounds parent
    (.package (Table.put key ns.nodes.size (ns.entries parent)))⟩

/-- The package under `segment` in the package `parent`, made if there is none: the namespace with
it, its number, and the class displaced for it on the way of the package `package`. -/
def openPackage (ns : Namespace) (package : Text) (parent : NodeId) (segment : Text) :
    Namespace × NodeId × List Warning :=
  match ns.child? parent segment with
  | none => (ns.attach parent segment (.package []), ns.nodes.size, [])
  | some id =>
    match ns.node? id with
    | some (.package _) => (ns, id, [])
    | _ => (ns.attach parent segment (.package []), ns.nodes.size, [.classOnTheWay segment package])

/-- The package at the end of `segments` from the package `parent`, with all packages on the way. -/
def openPath (package : Text) :
    List Text → Namespace → NodeId → Namespace × NodeId × List Warning
  | [], ns, parent => (ns, parent, [])
  | segment :: rest, ns, parent =>
    let step := ns.openPackage package parent segment
    let last := openPath package rest step.1 step.2.1
    (last.1, last.2.1, step.2.2 ++ last.2.2)

/-- What a class put under `key` in the package `parent` displaces. -/
def displacedAt (ns : Namespace) (parent : NodeId) (key : Text) : List Warning :=
  match (ns.child? parent key).bind ns.node? with
  | none => []
  | some (.cls old) => [.classAtKey key old.qualifiedName]
  | some (.package _) => [.packageAtKey key]

/-- The namespace with a record under its path, and what was displaced for it. -/
def insert (ns : Namespace) (record : Record) : Namespace × List Warning :=
  let home := openPath record.package record.segments ns root
  (home.1.attach home.2.1 record.className (.cls record),
    home.2.2 ++ home.1.displacedAt home.2.1 record.className)

/-- The namespace with all of `records`, inserted in their order, and all that was displaced. -/
def insertAll : List Record → Namespace → Namespace × List Warning
  | [], ns => (ns, [])
  | record :: rest, ns =>
    let step := ns.insert record
    let last := insertAll rest step.1
    (last.1, step.2 ++ last.2)

/-- The namespace of `records`. -/
def ofRecords (records : List Record) : Namespace :=
  (insertAll records empty).1

/-- What was displaced while `records` were inserted. -/
def warnings (records : List Record) : List Warning :=
  (insertAll records empty).2

/-! ## The tree of a namespace -/

/-- The tree below the node `id`, to the given depth. -/
def treeAt (ns : Namespace) : Nat → NodeId → Tree
  | 0, _ => .package []
  | depth + 1, id =>
    match ns.node? id with
    | some (.cls record) => .cls record
    | some (.package entries) =>
      .package (entries.map fun entry => (entry.1, ns.treeAt depth entry.2))
    | none => .package []

/-- The tree that hangs on the root. Entries have greater numbers than their package, so it is no
deeper than there are nodes. -/
def tree (ns : Namespace) : Tree :=
  ns.treeAt ns.nodes.size root

/-- The number of nodes that hang on the root, and the root. -/
def len (ns : Namespace) : Nat :=
  ns.tree.size

/-- Whether nothing hangs on the root. -/
def isEmpty (ns : Namespace) : Bool :=
  (ns.entries root).isEmpty

/-- The records of the classes that hang on the root, in the order of their paths. -/
def leaves (ns : Namespace) : List Record :=
  ns.tree.leaves

end Namespace

end PackageAtlas
