import PackageAtlas.CommandLine.Parser
import PackageAtlas.CommandLine.Report
import PackageAtlas.Diagram.Document
import PackageAtlas.Record.Json
import PackageAtlas.Search.Collection

set_option autoImplicit false

/-! # Running commands

A run turns a file tree, the variables of the environment and the words of a command line into an
`Outcome` and the tree that is left. A command has two parts. `prepare` only reads: it resolves the
root, collects the records and makes the text asked for. `deliver` writes that text to the output
file or to standard output. A failure of the first part therefore leaves the tree as it was. What is
told on the way is kept as notices, and a reporter writes them once the command has ended. -/

namespace PackageAtlas

/-- What a run leaves behind besides the tree. -/
structure Outcome where
  exitCode : Nat
  stdout : Text
  stderr : Text
  deriving DecidableEq

namespace CommandLine

/-! ## Settings of a command -/

/-- The settings that the environment gives; a variable that is no text counts as not set. -/
def environmentSettings (environment : Environment) : Settings :=
  Settings.ofLookup fun name => (environment name).bind Utf8.decode?

/-- The settings that the options for the search give over those of the environment. -/
def searchSettings (environment : Environment) (options : SearchOptions) : Settings :=
  let given := environmentSettings environment
  { given with
    pattern := options.pattern.getD given.pattern
    excludes := if options.excludes = [] then given.excludes else options.excludes }

/-- The settings of a diagram: ignored beginnings given as options stand for those of the
environment, and dependencies are drawn if either asks for them. -/
def diagramSettings (environment : Environment) (options : SearchOptions) (ignored : List Text)
    (dependencies : Bool) : Settings :=
  let given := searchSettings environment options
  { given with
    ignored := if ignored = [] then given.ignored else ignored
    dependencies := given.dependencies || dependencies }

/-! ## Reading -/

/-- What was told so far, and what came of the work. -/
structure Progress (α : Type) where
  told : List Notice
  result : Except Failure α

/-- A line of progress. -/
def progressLine (t : Text) : Notice :=
  .text (line t)

/-- The number of something, with a word before and a word after it. -/
def countLine (before : Text) (count : Nat) (after : Text) : Notice :=
  progressLine (before ++ Nat.toDigits 10 count ++ after)

/-- The records of the source files below a path. -/
def scanRecords (tree : FileTree) (path : Text) (settings : Settings) : Progress (List Record) :=
  match tree.canonical (Utf8.encode path) with
  | .error cause => ⟨[], .error (.path cause)⟩
  | .ok root =>
    let collected := Search.records ⟨root, settings.pattern, settings.excludes⟩ tree
    let told := progressLine ("Scanning: ".toList ++ Utf8.decodeLossy root)
      :: collected.2.map (.entry .search)
    match collected.1 with
    | .error error => ⟨told, .error (.source error)⟩
    | .ok records =>
      ⟨told ++ [countLine "Found ".toList records.length " files".toList], .ok records⟩

/-- The beginnings to ignore, if the settings ask for dependencies. -/
def drawnWithout (settings : Settings) : Option (List Text) :=
  if settings.dependencies then some settings.ignored else none

/-- The dependencies to draw, if the settings ask for them. -/
def drawnDependencies (settings : Settings) (records : List Record) : Option Dependencies :=
  (drawnWithout settings).map fun ignored => Dependencies.ofRecords ignored records

/-- What is told of the dependencies, if any are to be drawn: the imports left out, and how many
dependencies there are. -/
def dependencyNotices (settings : Settings) (records : List Record) : List Notice :=
  match drawnWithout settings with
  | none => []
  | some ignored =>
    (Dependencies.ignoredEntries ignored records).map (.entry .dependencies)
      ++ [countLine "Aggregated ".toList
        (Dependencies.edgeCount (Dependencies.ofRecords ignored records))
        " package dependencies".toList]

/-- What is told of the namespace of records: what was displaced in it. -/
def namespaceNotices (records : List Record) : List Notice :=
  (Namespace.warnings records).map fun warning => .entry .packages warning.entry

/-- The diagram of records as a document. -/
def diagramText (settings : Settings) (title : Option Text) (records : List Record) : Text :=
  let layout : Layout := { title := title }
  Document.text layout
    (Diagram.body layout (Namespace.ofRecords records) (drawnDependencies settings records))

/-- The listing of a record: its qualified name, and its imports below. -/
def listing (record : Record) : Text :=
  line record.qualifiedName
    ++ record.dependencies.flatMap fun name => line ("    -> ".toList ++ name)

/-- The listing of records, or all of them as JSON. -/
def scanText (json : Bool) (records : List Record) : Text :=
  if json then line (Json.indented 0 (.array (records.map Record.toJson)))
  else records.flatMap listing

/-- The text that a command asks for. -/
def prepare (tree : FileTree) (environment : Environment) : Command → Progress Text
  | .diagram search ignored dependencies title _ =>
    let settings := diagramSettings environment search ignored dependencies
    let scanned := scanRecords tree search.path settings
    match scanned.result with
    | .error failure => ⟨scanned.told, .error failure⟩
    | .ok records =>
      ⟨scanned.told ++ dependencyNotices settings records ++ namespaceNotices records,
        .ok (diagramText settings title records)⟩
  | .scan search json =>
    let scanned := scanRecords tree search.path (searchSettings environment search)
    ⟨scanned.told, scanned.result.map (scanText json)⟩

/-! ## Writing -/

/-- The file that a command writes to, if it does not write to standard output. -/
def outputFile : Command → Option Text
  | .diagram _ _ _ _ output => output
  | .scan _ _ => none

/-- How a command ends. -/
structure Ending where
  exitCode : Nat
  stdout : Text
  told : List Notice
  deriving DecidableEq

/-- Writes a text to a file or to standard output, after `told`. -/
def deliver (tree : FileTree) (told : List Notice) (text : Text) : Option Text → Ending × FileTree
  | none => (⟨0, text, told⟩, tree)
  | some file =>
    match tree.create (Utf8.encode file) (Utf8.encode text) with
    | .error cause => (⟨1, [], told ++ [.failure (.path cause)]⟩, tree)
    | .ok changed => (⟨0, [], told ++ [progressLine ("Saved to: ".toList ++ file)]⟩, changed)

/-- Carries out a command. -/
def execute (tree : FileTree) (environment : Environment) (command : Command) :
    Ending × FileTree :=
  let prepared := prepare tree environment command
  match prepared.result with
  | .error failure => (⟨1, [], prepared.told ++ [.failure failure]⟩, tree)
  | .ok text => deliver tree prepared.told text (outputFile command)

/-- The name of the program and its version. -/
def versionText : Text :=
  "plume 0.1.0".toList

/-- Does what the words of a command line ask for. -/
def perform (tree : FileTree) (environment : Environment) (words : List Bytes) :
    Ending × FileTree :=
  match request words with
  | .error error => (⟨2, [], [progressLine error.message]⟩, tree)
  | .ok .version => (⟨0, line versionText, []⟩, tree)
  | .ok .help => (⟨0, line about, []⟩, tree)
  | .ok (.run command) => execute tree environment command

/-- The outcome of a command that ended in an environment. -/
def Reporter.outcome (reporter : Reporter) (environment : Environment) (ending : Ending) :
    Outcome where
  exitCode := ending.exitCode
  stdout := ending.stdout
  stderr := reporter.written (surroundings environment) ending.told

/-- Runs the program with the words of a command line. -/
def run (reporter : Reporter) (tree : FileTree) (environment : Environment) (words : List Bytes) :
    Outcome × FileTree :=
  let performed := perform tree environment words
  (reporter.outcome environment performed.1, performed.2)

end CommandLine

end PackageAtlas
