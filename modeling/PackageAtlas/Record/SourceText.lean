import PackageAtlas.Record

set_option autoImplicit false

/-! # Records from source text

A source file is read line by line, without regard to the language around the two kinds of line
that matter. `declaredName?` reads a keyword, blanks and a name up to a semicolon or the line's end;
`importedName?` reads an import with or without its `static` modifier. `Record.ofLines` puts the
first package and all imports together with the class name, which is the file name without its
extension (`stem`). Every text gives a record. -/

namespace PackageAtlas

namespace SourceText

/-- The keyword of the line that names the package. -/
def packageKeyword : Text :=
  "package".toList

/-- The keyword of a line that names an import. -/
def importKeyword : Text :=
  "import".toList

/-- The word that may stand between the keyword of an import and its name. -/
def staticModifier : Text :=
  "static".toList

/-- The name that a line declares after `keyword`: blanks must follow the keyword, and the name
reaches to the first semicolon, without the blanks around it. -/
def declaredName? (keyword line : Text) : Option Text :=
  match keyword.isPrefixOf? line with
  | none => none
  | some rest => if startsBlank rest then trimmed? (rest.takeWhile (· ≠ ';')) else none

/-- A declared name without the modifier before it. -/
def withoutModifier? (name : Text) : Option Text :=
  match staticModifier.isPrefixOf? name with
  | none => some name
  | some rest => if startsBlank rest then trimmed? rest else some name

/-- The name that a line imports. -/
def importedName? (line : Text) : Option Text :=
  (declaredName? importKeyword line).bind withoutModifier?

/-! ## File names -/

/-- The last component of a path that names something: empty components and those that are a single
dot name nothing. -/
def lastComponent? (path : Text) : Option Text :=
  ((path.splitOn '/').filter fun piece => piece ≠ [] ∧ piece ≠ ['.']).getLast?

/-- A file name without its extension, which begins at the last dot; a dot in front begins none. -/
def withoutExtension (name : Text) : Text :=
  match beforeLast? '.' name with
  | none => name
  | some [] => name
  | some kept => kept

/-- The name of the class in the file `filename`: the last component without its extension, or all
of `filename` if it ends in no name. -/
def stem (filename : Text) : Text :=
  match lastComponent? filename with
  | none => filename
  | some name => if name = ['.', '.'] then filename else withoutExtension name

end SourceText

open SourceText in
/-- The record of the file `filename` with the lines `content`. -/
def Record.ofLines (filename : Text) (content : List Text) : Record where
  package := ((content.map trim).findSome? (declaredName? packageKeyword)).getD unknownPackage
  className := stem filename
  dependencies := (content.map trim).filterMap importedName?

end PackageAtlas
