import PackageAtlas.Log
import PackageAtlas.Record
import PackageAtlas.Table

set_option autoImplicit false

/-! # Dependencies between packages

The imports of the classes of a package, taken together and each reduced to the package it points
into, are the package's targets. `Dependencies.ofRecords` gathers them: every package of a record
has an entry, also one without targets. An import that begins with an ignored text is left out;
`Dependencies.ignoredEntries` tells of each of these. -/

namespace PackageAtlas

/-- The packages with the packages they depend on. -/
abbrev Dependencies := Table Text (KeySet Text)

namespace Dependencies

/-- The package that a full name points into: what stands before its last dot, or all of it. -/
def containingPackage (name : Text) : Text :=
  (beforeLast? '.' name).getD name

/-- Whether `name` begins with one of the texts `ignored`. -/
def isIgnored (ignored : List Text) (name : Text) : Bool :=
  ignored.any (·.isPrefixOf name)

/-- The targets of one record, in the order of its imports. -/
def targets (ignored : List Text) (record : Record) : List Text :=
  (record.dependencies.filter fun name => !isIgnored ignored name).map containingPackage

/-- The dependencies with more targets of one package. -/
def addTargets (dependencies : Dependencies) (package : Text) (targets : List Text) :
    Dependencies :=
  let known := (Table.get? package dependencies).getD []
  Table.put package (targets.foldl (fun set target => KeySet.add target set) known) dependencies

/-- The dependencies of packages with their targets, in any order; a package can come again. -/
def ofTargets (pairs : List (Text × List Text)) : Dependencies :=
  pairs.foldl (fun dependencies pair => addTargets dependencies pair.1 pair.2) []

/-- The dependencies of all records. -/
def ofRecords (ignored : List Text) (records : List Record) : Dependencies :=
  ofTargets (records.map fun record => (record.package, targets ignored record))

/-- One entry for each import left out, in the order of the records and of their imports. -/
def ignoredEntries (ignored : List Text) (records : List Record) : List LogEntry :=
  records.flatMap fun record =>
    (record.dependencies.filter (isIgnored ignored)).map fun name =>
      ⟨.trace, record.package ++ ": ignoring ".toList ++ name⟩

/-- The pairs of a package and one of its targets, in order. -/
def edges (dependencies : Dependencies) : List (Text × Text) :=
  dependencies.flatMap fun entry => entry.2.map fun target => (entry.1, target)

/-- The number of pairs of a package and one of its targets. -/
def edgeCount (dependencies : Dependencies) : Nat :=
  (edges dependencies).length

end Dependencies

end PackageAtlas
