import PackageAtlas.Text

set_option autoImplicit false

/-! # Name patterns

A pattern is a text in which every `*` stands for any characters, also for none. `Glob.accepts`
takes the pieces between the stars one by one: the first must begin the name, each further one is
taken where it occurs first, and the last must end what is left. -/

namespace PackageAtlas.Glob

/-- The pattern of the names of source files, where no other is given. -/
def sourceFiles : Text :=
  "*.java".toList

/-- What follows the first occurrence of `piece` in a text. -/
def afterFirst? (piece : Text) : Text → Option Text
  | [] => if piece = [] then some [] else none
  | c :: rest =>
    match piece.isPrefixOf? (c :: rest) with
    | some after => some after
    | none => afterFirst? piece rest

/-- Whether a text consists of the pieces, with anything in front of each. -/
def acceptsAfterStar : List Text → Text → Bool
  | [], _ => true
  | [last], t => last.isSuffixOf t
  | piece :: next :: rest, t =>
    match afterFirst? piece t with
    | some after => acceptsAfterStar (next :: rest) after
    | none => false

/-- Whether `name` has the form of `pattern`. -/
def accepts (pattern name : Text) : Bool :=
  match pattern.splitOn '*' with
  | [] => false
  | [whole] => name == whole
  | first :: rest =>
    match first.isPrefixOf? name with
    | some after => acceptsAfterStar rest after
    | none => false

end PackageAtlas.Glob
