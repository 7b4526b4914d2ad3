import PackageAtlas.Text

set_option autoImplicit false

/-! # Records

A record is what one source file tells about its class: the package it is in, its name and the full
names it imports. A package is written as segments between dots; a record's `path` leads through
them to the class. -/

namespace PackageAtlas

/-- What one source file declares. -/
structure Record where
  /-- The package, its segments between dots. -/
  package : Text
  /-- The name of the class. -/
  className : Text
  /-- The full names imported, in the file's order and as often as they occur. -/
  dependencies : List Text
  deriving DecidableEq

namespace Record

/-- The package of a class whose file declares none. -/
def unknownPackage : Text :=
  "UNKNOWN".toList

/-- The segments of the package. -/
def segments (record : Record) : List Text :=
  record.package.splitOn '.'

/-- The keys that lead to the class: the segments of its package, then its name. -/
def path (record : Record) : List Text :=
  record.segments ++ [record.className]

/-- The package and the name of the class with a dot between them. -/
def qualifiedName (record : Record) : Text :=
  record.package ++ '.' :: record.className

end Record

end PackageAtlas
