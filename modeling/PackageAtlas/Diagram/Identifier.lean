import PackageAtlas.Text

set_option autoImplicit false

/-! # Identifiers

In a diagram every package and class has an identifier made of its dotted name: dots become
underscores, and an underscore stands in front. Names that differ only in dots and underscores
share an identifier. -/

namespace PackageAtlas.Identifier

/-- A name with underscores for dots. -/
def flat (name : Text) : Text :=
  name.map fun c => if c = '.' then '_' else c

/-- A text with an underscore in front, unless it has one. -/
def anchored (t : Text) : Text :=
  if t.head? = some '_' then t else '_' :: t

/-- The identifier of the package `path`. -/
def ofPackage (path : Text) : Text :=
  anchored (flat path)

/-- The identifier of the class `name` in the package `path`. -/
def ofClass (path name : Text) : Text :=
  anchored (flat path ++ '_' :: flat name)

/-- The path of the package `segment` in the package `path`; the root's path is empty. -/
def extend (path segment : Text) : Text :=
  if path = [] then segment else path ++ '.' :: segment

end PackageAtlas.Identifier
