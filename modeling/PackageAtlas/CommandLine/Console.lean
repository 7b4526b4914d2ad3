import PackageAtlas.CommandLine.Report
import PackageAtlas.Log.Filter
import PackageAtlas.Text.Terminal
import PackageAtlas.Text.Utf8

set_option autoImplicit false

/-! # The console

The `console` shows those entries of the log that the filter in the variable `RUST_LOG` asks for,
each on a line with its time. The lines are coloured unless the variable `NO_COLOR` holds something.
Where a failure arose in the program is not told. -/

namespace PackageAtlas.CommandLine

namespace Console

/-- The variable that holds the filter. -/
def filterVariable : Text :=
  "RUST_LOG".toList

/-- The variable that switches colours off. -/
def colourlessVariable : Text :=
  "NO_COLOR".toList

/-- The variables that the console reads. -/
def variableNames : List Text :=
  [filterVariable, colourlessVariable]

/-- The value of a variable; one that is no text counts as not set. -/
def value (around : Environment) (name : Text) : Text :=
  ((around name).bind Utf8.decode?).getD []

/-- Whether lines are coloured. -/
def isColoured (around : Environment) : Bool :=
  value around colourlessVariable = []

/-- The number of the colour of a level. -/
def colour : Level → Nat
  | .warn => 33
  | .info => 32
  | .debug => 34
  | .trace => 35

/-- A text in a style, if lines are coloured. -/
def painted (around : Environment) (style : Nat) (t : Text) : Text :=
  if isColoured around then Terminal.styled style t else t

/-- The style of what matters less than the message. -/
def dim : Nat :=
  2

/-- An entry as a line: its time, its level in five columns, its target and the message. -/
def entryLine (around : Environment) (time : Text) (origin : Origin) (entry : LogEntry) : Text :=
  let label := entry.level.label
  painted around dim time ++ ' ' ::
    painted around (colour entry.level) (List.replicate (5 - label.length) ' ' ++ label) ++ ' ' ::
    painted around dim origin.target ++ painted around dim [':'] ++ ' ' :: line entry.message

end Console

/-- The console with a clock, which gives the time of each entry by its number. -/
def console (clock : Nat → Text) : Reporter where
  opening around :=
    (Filter.unread (Console.value around Console.filterVariable)).flatMap fun part =>
      line ("ignoring `".toList ++ part ++ "`: invalid filter directive".toList)
  shown around number origin entry :=
    if Filter.shows (Filter.directives (Console.value around Console.filterVariable)) origin
        entry.level then
      Console.entryLine around (clock number) origin entry
    else []
  trace _ _ := []

end PackageAtlas.CommandLine
