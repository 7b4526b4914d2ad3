import PackageAtlas.Decimal
import PackageAtlas.Json.Printer
import PackageAtlas.Record
import PackageAtlas.Text.Quoted

set_option autoImplicit false

/-! # Records as JSON

A record is written as an object with three members. It is read from an object, whose other members
are ignored, or from an array of its three parts. `Record.ofJson?` gives the record or the first
`DecodeError`: in an object the members present are looked at in the order of their names, and only
then is one found missing. -/

namespace PackageAtlas

/-- What a JSON value should have been. -/
inductive Expected where
  | string
  | sequence
  | record
  deriving DecidableEq

/-- Why a JSON value is no record. -/
inductive DecodeError where
  /-- A value is not of the kind expected. -/
  | wrongKind (found : Json) (expected : Expected)
  /-- An object lacks a member. -/
  | missing (name : Text)
  /-- An array ends after `length` parts. -/
  | tooShort (length : Nat)
  /-- An array has `length` parts. -/
  | tooLong (length : Nat)

/-! ## Errors in words -/

/-- The name of what was expected. -/
def Expected.label : Expected → Text
  | .string => "a string".toList
  | .sequence => "a sequence".toList
  | .record => "struct SourceRecord".toList

/-- A text between backticks. -/
def ticked (t : Text) : Text :=
  '\x60' :: (t ++ ['\x60'])

namespace DecodeError

/-- Whether an integer is kept as one: it fits into 64 bits, with or without a sign. -/
def isWord (n : Int) : Bool :=
  -0x8000000000000000 ≤ n && n < 0x10000000000000000

/-- A value as messages describe it. -/
def describe : Json → Text
  | .null => "null".toList
  | .bool value => "boolean ".toList ++ ticked (Json.boolText value)
  | .integer value =>
    if isWord value then "integer ".toList ++ ticked (Json.integerText value)
    else "floating point ".toList ++ ticked (Decimal.shown (value < 0) ⟨value.natAbs, 0⟩)
  | .decimal negative digits exponent =>
    "floating point ".toList ++ ticked (Decimal.shown negative ⟨digits, exponent⟩)
  | .string value => "string ".toList ++ Quoted.quoted value
  | .array _ => "sequence".toList
  | .object _ => "map".toList

/-- The error in words. -/
def message : DecodeError → Text
  | wrongKind found expected =>
    "invalid type: ".toList ++ describe found ++ ", expected ".toList ++ expected.label
  | missing name => "missing field ".toList ++ ticked name
  | tooShort length =>
    "invalid length ".toList ++ Nat.toDigits 10 length
      ++ ", expected struct SourceRecord with 3 elements".toList
  | tooLong length =>
    "invalid length ".toList ++ Nat.toDigits 10 length
      ++ ", expected fewer elements in array".toList

end DecodeError

/-! ## Writing and reading -/

namespace Record

/-- The name of the member that holds the package. -/
def packageField : Text :=
  "package".toList

/-- The name of the member that holds the class name. -/
def classNameField : Text :=
  "class_name".toList

/-- The name of the member that holds the imports. -/
def dependenciesField : Text :=
  "dependencies".toList

/-- A record as a JSON object. -/
def toJson (record : Record) : Json :=
  .object
    [(packageField, .string record.package), (classNameField, .string record.className),
      (dependenciesField, .array (record.dependencies.map .string))]

/-- The text of a JSON string. -/
def textOf : Json → Except DecodeError Text
  | .string value => .ok value
  | other => .error (.wrongKind other .string)

/-- The texts of JSON strings, to the first value that is none. -/
def textsOfItems : List Json → Except DecodeError (List Text)
  | [] => .ok []
  | item :: rest => do
    let first ← textOf item
    let others ← textsOfItems rest
    return first :: others

/-- The texts of a JSON array of strings. -/
def textsOf : Json → Except DecodeError (List Text)
  | .array items => textsOfItems items
  | other => .error (.wrongKind other .sequence)

/-- The member `name` of an object read by `read`, if it is there. -/
def field? {α : Type} (read : Json → Except DecodeError α) (members : List (Text × Json))
    (name : Text) : Except DecodeError (Option α) :=
  match Json.lastOf? name members with
  | none => .ok none
  | some value => (read value).map some

/-- A member that must be there. -/
def required {α : Type} (name : Text) : Option α → Except DecodeError α
  | none => .error (.missing name)
  | some value => .ok value

/-- The record that the members of an object hold. -/
def ofMembers (members : List (Text × Json)) : Except DecodeError Record := do
  let className ← field? textOf members classNameField
  let dependencies ← field? textsOf members dependenciesField
  let package ← field? textOf members packageField
  let package ← required packageField package
  let className ← required classNameField className
  let dependencies ← required dependenciesField dependencies
  return ⟨package, className, dependencies⟩

/-- The record whose parts are the items of an array. -/
def ofItems (items : List Json) : Except DecodeError Record :=
  match items with
  | [] => .error (.tooShort 0)
  | package :: rest => do
    let package ← textOf package
    match rest with
    | [] => .error (.tooShort 1)
    | className :: rest =>
      let className ← textOf className
      match rest with
      | [] => .error (.tooShort 2)
      | dependencies :: rest =>
        let dependencies ← textsOf dependencies
        if rest.isEmpty then .ok ⟨package, className, dependencies⟩
        else .error (.tooLong items.length)

/-- The record that a JSON value holds. -/
def ofJson? : Json → Except DecodeError Record
  | .object members => ofMembers members
  | .array items => ofItems items
  | other => .error (.wrongKind other .record)

end Record

end PackageAtlas
