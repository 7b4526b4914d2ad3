import PackageAtlas.Text

set_option autoImplicit false

/-! # JSON values

A value is what a JSON text says, with the members of an object in the order in which they are
written. A number written without fraction and exponent is an integer; any other, and the negative
zero, is a decimal and keeps its digits. -/

namespace PackageAtlas

/-- A JSON value. -/
inductive Json where
  | null
  | bool (value : Bool)
  | integer (value : Int)
  /-- The number `digits * 10 ^ exponent`, or its negative. -/
  | decimal (negative : Bool) (digits : Nat) (exponent : Int)
  | string (value : Text)
  | array (items : List Json)
  | object (members : List (Text × Json))

namespace Json

/-- The value of the last member of a list with the name `key`. -/
def lastOf? (key : Text) : List (Text × Json) → Option Json
  | [] => none
  | (name, value) :: rest =>
    match lastOf? key rest with
    | some later => some later
    | none => if name = key then some value else none

/-- The member `key` of an object; of several with this name it is the last. -/
def member? (key : Text) : Json → Option Json
  | object members => lastOf? key members
  | _ => none

end Json

end PackageAtlas
