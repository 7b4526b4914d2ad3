import PackageAtlas.Glob

set_option autoImplicit false

/-! # Settings

What to scan and what to draw can be set by four variables. `Settings.ofLookup` reads them through
any function from names to values; a variable that is not set leaves the default, and so does a
pattern of blanks. -/

namespace PackageAtlas

/-- What to scan and what to draw. -/
structure Settings where
  /-- The pattern of the names of source files. -/
  pattern : Text := Glob.sourceFiles
  /-- The names of files and folders to leave out. -/
  excludes : List Text := []
  /-- The beginnings of imports to leave out. -/
  ignored : List Text := []
  /-- Whether dependencies are drawn. -/
  dependencies : Bool := false
  deriving DecidableEq

namespace Settings

/-- The entries between the commas of a value, trimmed, without those of blanks alone. -/
def entries (value : Text) : List Text :=
  (value.splitOn ',').filterMap trimmed?

/-- The words that switch a setting on. -/
def switchWords : List Text :=
  ["1".toList, "true".toList, "yes".toList]

/-- Whether a value switches a setting on: in any letter case and with blanks around it, it is one
of the words for that. Only letters of ASCII have one of these as their small letters. -/
def isOn (value : Text) : Bool :=
  switchWords.contains ((trim value).map Char.toLower)

/-- The variable that sets the pattern. -/
def patternVariable : Text :=
  "PLUME_PATTERN".toList

/-- The variable that sets the names left out. -/
def excludesVariable : Text :=
  "PLUME_EXCLUDE".toList

/-- The variable that sets the ignored beginnings. -/
def ignoredVariable : Text :=
  "PLUME_IGNORE".toList

/-- The variable that switches dependencies. -/
def dependenciesVariable : Text :=
  "PLUME_DEPS".toList

/-- The variables that settings are read from. -/
def variableNames : List Text :=
  [patternVariable, excludesVariable, ignoredVariable, dependenciesVariable]

/-- The settings by the variables that `lookup` finds. -/
def ofLookup (lookup : Text → Option Text) : Settings where
  pattern := ((lookup patternVariable).bind trimmed?).getD Glob.sourceFiles
  excludes := ((lookup excludesVariable).map entries).getD []
  ignored := ((lookup ignoredVariable).map entries).getD []
  dependencies := ((lookup dependenciesVariable).map isOn).getD false

end Settings

end PackageAtlas
