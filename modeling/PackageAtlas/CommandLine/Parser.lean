import PackageAtlas.CommandLine

set_option autoImplicit false

/-! # Reading a command line

The words after the program's name are read from left to right. A word that begins with a hyphen
and has more to it is read as options, also where a value is awaited; two hyphens alone end the
options, and every other word is a value. A value is checked and stored only when the next option
or value that fits is met, or at the end, so an unknown word further on is reported before a fault
in a value (`Reading.awaited`). -/

namespace PackageAtlas.CommandLine

/-! ## Words -/

/-- The byte that begins options. -/
def hyphen : UInt8 :=
  0x2D

/-- The byte between a name and its value. -/
def equals : UInt8 :=
  0x3D

/-- The character that bytes begin with, and the bytes after it; nothing if they begin with no
character. -/
def firstChar? (bytes : Bytes) : Option (Char × Bytes) :=
  match Utf8.decodeLossy bytes with
  | [] => none
  | c :: _ => ((Utf8.encode [c]).isPrefixOf? bytes).map fun rest => (c, rest)

/-- A word without its leading hyphens, at the first equals sign: a name and perhaps a value. -/
def nameAndValue (body : Bytes) : Bytes × Option Bytes :=
  match body.dropWhile (· ≠ equals) with
  | [] => (body, none)
  | _ :: value => (body.takeWhile (· ≠ equals), some value)

/-- The option of a command with a long name. -/
def Verb.named? (verb : Verb) (name : Text) : Option Switch :=
  verb.switches.find? fun switch => switch.longName = name

/-- The option of a command with a letter. -/
def Verb.lettered? (verb : Verb) (letter : Char) : Option Switch :=
  verb.switches.find? fun switch => switch.letter? = some letter

/-! ## What has been read -/

/-- The values and flags stored so far. -/
structure Stored where
  path : Option Text := none
  pattern : Option Text := none
  excludes : List Text := []
  ignored : List Text := []
  title : Option Text := none
  output : Option Text := none
  dependencies : Bool := false
  json : Bool := false

/-- What a value is for. -/
inductive Slot where
  | path
  | setting (setting : Setting)
  deriving DecidableEq

namespace Stored

/-- The value of a setting that can be given once. -/
def single? (stored : Stored) : Setting → Option Text
  | .pattern => stored.pattern
  | .title => stored.title
  | .output => stored.output
  | .exclude | .ignore => none

/-- The values with one more. -/
def withValue (stored : Stored) (slot : Slot) (value : Text) : Stored :=
  match slot with
  | .path => { stored with path := some value }
  | .setting .pattern => { stored with pattern := some value }
  | .setting .exclude => { stored with excludes := stored.excludes ++ [value] }
  | .setting .ignore => { stored with ignored := stored.ignored ++ [value] }
  | .setting .title => { stored with title := some value }
  | .setting .output => { stored with output := some value }

/-- Stores a value, which must be text; a second one only where that is allowed. -/
def store (stored : Stored) (slot : Slot) (value : Bytes) : Except UsageError Stored :=
  let second : Option Switch :=
    match slot with
    | .path => none
    | .setting s => if (stored.single? s).isSome then some (.setting s) else none
  match second with
  | some option => .error (.usedTwice option)
  | none =>
    match Utf8.decode? value with
    | some text => .ok (stored.withValue slot text)
    | none => .error .notText

/-- Notes a flag, once. -/
def raise (stored : Stored) (flag : Flag) : Except UsageError Stored :=
  match flag with
  | .dependencies =>
    if stored.dependencies then .error (.usedTwice (.flag flag))
    else .ok { stored with dependencies := true }
  | .json =>
    if stored.json then .error (.usedTwice (.flag flag)) else .ok { stored with json := true }
  | .help => .ok stored

end Stored

/-- A reading in progress. -/
structure Reading where
  stored : Stored := {}
  /-- The value to be stored next; without bytes, it has not been met yet. -/
  awaited : Option (Slot × Option Bytes) := none
  /-- Whether the path has been met. -/
  hasPath : Bool := false
  /-- Whether options have ended. -/
  literal : Bool := false

namespace Reading

/-- Stores the value awaited, if there is one. -/
def settle (reading : Reading) : Except UsageError Reading :=
  match reading.awaited with
  | none => .ok reading
  | some (slot, some value) =>
    (reading.stored.store slot value).map fun stored =>
      { reading with stored := stored, awaited := none }
  | some (.setting s, none) => .error (.noValue s)
  | some (.path, none) => .ok { reading with awaited := none }

/-- A setting was met with a value behind it, which is stored at once. -/
def meetValued (reading : Reading) (setting : Setting) (value : Bytes) :
    Except UsageError Reading := do
  let reading ← reading.settle
  let stored ← reading.stored.store (.setting setting) value
  return { reading with stored := stored }

/-- A setting was met whose value is the next word. -/
def meetOpen (reading : Reading) (setting : Setting) : Except UsageError Reading := do
  let reading ← reading.settle
  return { reading with awaited := some (.setting setting, none) }

/-- Where a word leads: on with the reading, or to the help text. -/
inductive Next where
  | go (reading : Reading)
  | help

/-- A flag was met. The value awaited is stored first, also where the flag asks for the help
text. -/
def meetFlag (reading : Reading) (flag : Flag) : Except UsageError Next := do
  let reading ← reading.settle
  let stored ← reading.stored.raise flag
  return if flag = .help then .help else .go { reading with stored := stored }

/-- A word that begins with two hyphens, without them. -/
def meetLong (reading : Reading) (verb : Verb) (body : Bytes) : Except UsageError Next :=
  let (name, value) := nameAndValue body
  let shown : Text := '-' :: '-' :: Utf8.decodeLossy name
  match (Utf8.decode? name).bind verb.named? with
  | none => .error (.unexpected shown)
  | some (.flag flag) =>
    match value with
    | some value => .error (.needlessValue shown (Utf8.decodeLossy value))
    | none => reading.meetFlag flag
  | some (.setting setting) =>
    match value with
    | some value => (reading.meetValued setting value).map .go
    | none => (reading.meetOpen setting).map .go

/-- Letters after one hyphen; each step reads one, so there are no more steps than bytes. -/
def meetLetters (verb : Verb) : Nat → Reading → Bytes → Except UsageError Next
  | 0, reading, _ => .ok (.go reading)
  | _ + 1, reading, [] => .ok (.go reading)
  | steps + 1, reading, body =>
    match firstChar? body with
    | none => .error (.unexpected ('-' :: Utf8.decodeLossy body))
    | some (letter, rest) =>
      match verb.lettered? letter with
      | none => .error (.unexpected ['-', letter])
      | some (.flag flag) =>
        match reading.meetFlag flag with
        | .ok (.go reading) => meetLetters verb steps reading rest
        | decided => decided
      | some (.setting setting) =>
        match rest with
        | [] => (reading.meetOpen setting).map .go
        | b :: value =>
          (reading.meetValued setting (if b = equals then value else b :: value)).map .go

/-- A word that is no option: the value awaited, unless options have ended, or else the path. -/
def meetWord (reading : Reading) (word : Bytes) : Except UsageError Reading :=
  match reading.literal, reading.awaited with
  | false, some (slot, none) => .ok { reading with awaited := some (slot, some word) }
  | _, _ =>
    if reading.hasPath then .error (.unexpected (Utf8.decodeLossy word))
    else do
      let reading ← reading.settle
      return { reading with awaited := some (.path, some word), hasPath := true }

/-- One word. -/
def meet (reading : Reading) (verb : Verb) (word : Bytes) : Except UsageError Next :=
  if reading.literal then (reading.meetWord word).map .go
  else if word = [hyphen, hyphen] then .ok (.go { reading with literal := true })
  else
    match word with
    | first :: second :: body =>
      if first = hyphen then
        if second = hyphen then reading.meetLong verb body
        else meetLetters verb word.length reading (second :: body)
      else (reading.meetWord word).map .go
    | _ => (reading.meetWord word).map .go

/-- The command that the words read make. -/
def command (reading : Reading) (verb : Verb) : Except UsageError Command := do
  let stored := (← reading.settle).stored
  match stored.path with
  | none => .error .noPath
  | some path =>
    let search : SearchOptions := ⟨path, stored.pattern, stored.excludes⟩
    match verb with
    | .diagram =>
      return .diagram search stored.ignored stored.dependencies stored.title stored.output
    | .scan => return .scan search stored.json

/-- The words after the name of a command. -/
def meetAll (verb : Verb) : Reading → List Bytes → Except UsageError Request
  | reading, [] => (reading.command verb).map .run
  | reading, word :: rest =>
    match reading.meet verb word with
    | .error e => .error e
    | .ok .help => .ok .help
    | .ok (.go reading) => meetAll verb reading rest

end Reading

/-! ## The words before the command -/

/-- The word that asks for the help text. -/
def helpWord : Text :=
  "help".toList

/-- The word that asks for the version. -/
def versionWord : Text :=
  "version".toList

/-- A long option in front of the command, without its hyphens. -/
def frontLong (body : Bytes) : Except UsageError Request :=
  let (name, value) := nameAndValue body
  let shown : Text := '-' :: '-' :: Utf8.decodeLossy name
  if name = Utf8.encode versionWord ∨ name = Utf8.encode helpWord then
    match value with
    | some value => .error (.needlessValue shown (Utf8.decodeLossy value))
    | none => if name = Utf8.encode versionWord then .ok .version else .ok .help
  else .error (.unexpected shown)

/-- Letters in front of the command, without their hyphen; the first decides. -/
def frontLetters (body : Bytes) : Except UsageError Request :=
  match firstChar? body with
  | none => .error (.unexpected ('-' :: Utf8.decodeLossy body))
  | some (letter, _) =>
    if letter = 'V' then .ok .version
    else if letter = 'h' then .ok .help
    else .error (.unexpected ['-', letter])

/-- Whether a word names a command or the help. -/
def isCommandWord (word : Bytes) : Bool :=
  ((Utf8.decode? word).bind Verb.ofName?).isSome || word = Utf8.encode helpWord

/-- The help with the words after it: one that names what to explain, and no more. -/
def helpOn : List Bytes → Except UsageError Request
  | [] => .ok .help
  | topic :: more =>
    if isCommandWord topic then
      match more with
      | [] => .ok .help
      | word :: _ => .error (.unknownCommand (Utf8.decodeLossy word))
    else .error (.unknownCommand (Utf8.decodeLossy topic))

/-- The command named by a word, with the words after it. -/
def named (word : Bytes) (rest : List Bytes) : Except UsageError Request :=
  match (Utf8.decode? word).bind Verb.ofName? with
  | some verb => Reading.meetAll verb {} rest
  | none =>
    if word = Utf8.encode helpWord then helpOn rest
    else .error (.unknownCommand (Utf8.decodeLossy word))

/-- What all words after the program's name ask for. -/
def request : List Bytes → Except UsageError Request
  | [] => .error .noCommand
  | word :: rest =>
    if word = [hyphen, hyphen] then
      match rest with
      | [] => .error .noCommand
      | next :: _ =>
        if isCommandWord next then .error (.unexpected (Utf8.decodeLossy next))
        else .error (.unknownCommand (Utf8.decodeLossy next))
    else
      match word with
      | first :: second :: body =>
        if first = hyphen then
          if second = hyphen then frontLong body else frontLetters (second :: body)
        else named word rest
      | _ => named word rest

end PackageAtlas.CommandLine
