import PackageAtlas.Text.Terminal
import PackageAtlas.Text.Utf8

set_option autoImplicit false

/-! # Commands and their options

There are two commands. Both search a folder; `diagram` draws what is found and `scan` lists it. An
option either is given or not, or takes a value; each has a long name and some a letter. A
`UsageError` is what can be wrong with the words after the program's name. -/

namespace PackageAtlas

/-- What to search, as far as it is given on the command line. -/
structure SearchOptions where
  path : Text
  pattern : Option Text := none
  excludes : List Text := []
  deriving DecidableEq

/-- A command with its options. -/
inductive Command where
  | diagram (search : SearchOptions) (ignored : List Text) (dependencies : Bool)
    (title output : Option Text)
  | scan (search : SearchOptions) (json : Bool)
  deriving DecidableEq

namespace CommandLine

/-- The name of a command. -/
inductive Verb where
  | diagram
  | scan
  deriving DecidableEq

/-- An option that is given or not. -/
inductive Flag where
  | dependencies
  | json
  | help
  deriving DecidableEq

/-- An option that takes a value. -/
inductive Setting where
  | pattern
  | exclude
  | ignore
  | title
  | output
  deriving DecidableEq

/-- An option of either kind. -/
inductive Switch where
  | flag (flag : Flag)
  | setting (setting : Setting)
  deriving DecidableEq

/-- The command with a name. -/
def Verb.ofName? (name : Text) : Option Verb :=
  if name = "diagram".toList then some .diagram
  else if name = "scan".toList then some .scan
  else none

/-- The name of a flag. -/
def Flag.longName : Flag → Text
  | .dependencies => "deps".toList
  | .json => "json".toList
  | .help => "help".toList

/-- The letter of a flag. -/
def Flag.letter? : Flag → Option Char
  | .dependencies => some 'd'
  | .json => none
  | .help => some 'h'

/-- The name of a setting. -/
def Setting.longName : Setting → Text
  | .pattern => "pattern".toList
  | .exclude => "exclude".toList
  | .ignore => "ignore".toList
  | .title => "title".toList
  | .output => "output".toList

/-- The letter of a setting. -/
def Setting.letter? : Setting → Option Char
  | .pattern => some 'p'
  | .exclude => some 'e'
  | .ignore => some 'i'
  | .title => none
  | .output => some 'o'

namespace Switch

/-- The name of an option. -/
def longName : Switch → Text
  | flag f => f.longName
  | setting s => s.longName

/-- The letter of an option. -/
def letter? : Switch → Option Char
  | flag f => f.letter?
  | setting s => s.letter?

/-- An option as errors name it: a setting with a word in capitals for its value. -/
def label : Switch → Text
  | flag f => "--".toList ++ f.longName
  | setting s => "--".toList ++ s.longName ++ " <".toList ++ s.longName.map Char.toUpper ++ ['>']

end Switch

/-- The options of a command. -/
def Verb.switches : Verb → List Switch
  | .diagram =>
    [.setting .pattern, .setting .exclude, .setting .ignore, .flag .dependencies, .setting .title,
      .setting .output, .flag .help]
  | .scan => [.setting .pattern, .setting .exclude, .flag .json, .flag .help]

/-- What can be wrong with a command line. -/
inductive UsageError where
  /-- There is no command. -/
  | noCommand
  /-- A word stands where a command is expected, and is none. -/
  | unknownCommand (word : Text)
  /-- A word that is neither a known option nor expected as a value. -/
  | unexpected (word : Text)
  /-- A setting without its value. -/
  | noValue (setting : Setting)
  /-- A flag with a value. -/
  | needlessValue (name value : Text)
  /-- An option given twice that can be given once. -/
  | usedTwice (option : Switch)
  /-- No path to search. -/
  | noPath
  /-- A value that is no text. -/
  | notText
  deriving DecidableEq

/-- What the program does, in one line. -/
def about : Text :=
  "Package and class diagrams from source trees".toList

/-- A text between single quotes, set off from what is around it. -/
def inQuotes (t : Text) : Text :=
  '\'' :: (Terminal.emphasized t ++ ['\''])

/-- The error in words for a terminal. -/
def UsageError.displayed : UsageError → Text
  | .noCommand => about
  | .unknownCommand word => "error: unrecognized subcommand ".toList ++ inQuotes word
  | .unexpected word =>
    "error: unexpected argument ".toList ++ inQuotes word ++ " found".toList
  | .noValue setting =>
    "error: a value is required for ".toList ++ inQuotes (Switch.label (.setting setting))
      ++ " but none was supplied".toList
  | .needlessValue name value =>
    "error: unexpected value ".toList ++ inQuotes value ++ " for ".toList ++ inQuotes name
      ++ " found; no more were expected".toList
  | .usedTwice option =>
    "error: the argument ".toList ++ inQuotes option.label
      ++ " cannot be used multiple times".toList
  | .noPath => "error: the following required arguments were not provided:".toList
  | .notText => "error: invalid UTF-8 was detected in one or more arguments".toList

/-- The error in words. No terminal reads it, so control sequences are left out, also those that the
words of the command line bring along. -/
def UsageError.message (error : UsageError) : Text :=
  Terminal.plain error.displayed

/-- What a command line asks for. -/
inductive Request where
  | run (command : Command)
  | version
  | help
  deriving DecidableEq

end CommandLine

end PackageAtlas
