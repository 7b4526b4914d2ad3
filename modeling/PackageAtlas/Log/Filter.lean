import PackageAtlas.Log

set_option autoImplicit false

/-! # Log filters

A filter says which entries of a log are shown. It is a list of directives, written with commas
between them: the beginning of a target and the lowest level shown for it, with `=` between them, or
one of the two alone. For an entry that directive counts which has the longest beginning of its
target, and the last of several with the same; an entry that none is about is not shown. Directives
about more than targets and levels are not read. -/

namespace PackageAtlas

/-- How much has to be shown for a level to be among it. -/
def Level.rank : Level → Nat
  | .warn => 2
  | .info => 3
  | .debug => 4
  | .trace => 5

/-- How much is shown of the entries whose target has this beginning. -/
structure Directive where
  target : Text
  limit : Nat
  deriving DecidableEq

namespace Directive

/-- The words for how much is shown, from nothing to all. -/
def limitWords : List Text :=
  ["off".toList, "error".toList, "warn".toList, "info".toList, "debug".toList, "trace".toList]

/-- How much is shown by a word, in any letter case, or by its number. -/
def limit? (word : Text) : Option Nat :=
  let small := word.map Char.toLower
  limitWords.zipIdx.findSome? fun (known, n) =>
    if small = known ∨ small = Nat.toDigits 10 n then some n else none

/-- How much is shown if nothing is said of it: all. -/
def all : Nat :=
  Level.trace.rank

/-- Whether a character can be in a target. -/
def isOfTarget (c : Char) : Bool :=
  c.isAlphanum || c = '_' || c = ':' || c = '-'

/-- The directive with this target and what is written behind it. -/
def withLimit? (target : Text) : Text → Option Directive
  | [] => some ⟨target, all⟩
  | ['='] => some ⟨target, all⟩
  | '=' :: word => (limit? word).map fun limit => ⟨target, limit⟩
  | _ => none

/-- The directive that a text says. -/
def ofText? (t : Text) : Option Directive :=
  match limit? t with
  | some limit => some ⟨[], limit⟩
  | none =>
    let target := t.takeWhile isOfTarget
    if target = [] then none else withLimit? target (t.drop target.length)

/-- The directive of two that counts: the later one, unless the earlier one says more. -/
def stronger (earlier : Option Directive) (later : Directive) : Option Directive :=
  match earlier with
  | none => some later
  | some other => if later.target.length < other.target.length then some other else some later

end Directive

namespace Filter

/-- The parts of the text of a filter. -/
def parts (t : Text) : List Text :=
  (t.splitOn ',').filter (· ≠ [])

/-- The directives of a filter. -/
def directives (t : Text) : List Directive :=
  (parts t).filterMap Directive.ofText?

/-- The parts of a filter that are no directives. -/
def unread (t : Text) : List Text :=
  (parts t).filter fun part => (Directive.ofText? part).isNone

/-- Whether entries of this origin and level are shown. -/
def shows (directives : List Directive) (origin : Origin) (level : Level) : Bool :=
  let counting := (directives.filter (·.target.isPrefixOf origin.target)).foldl
    Directive.stronger none
  counting.any fun directive => level.rank ≤ directive.limit

end Filter

end PackageAtlas
