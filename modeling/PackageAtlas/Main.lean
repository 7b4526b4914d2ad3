import PackageAtlas.CommandLine.Console
import PackageAtlas.CommandLine.Run

set_option autoImplicit false

/-! # The program

The program takes the part of the file system that a command line speaks of as a `FileTree`, runs
the command on it, and carries out what the run left behind: a file that was written, two streams
of text and an exit code. What the file system does not let it open is a fault of the tree, so a run
reports it. -/

namespace PackageAtlas.Shell

/-- The bytes of a string. -/
def bytesOf (s : String) : Bytes :=
  Utf8.encode s.toList

/-- The string of bytes. -/
def stringOf (bytes : Bytes) : String :=
  String.ofList (Utf8.decodeLossy bytes)

/-- A path as the file system is asked about it: a name in a folder. -/
def entryOf (path : Bytes) : IO.FS.DirEntry :=
  let folder := Path.parent path
  ⟨stringOf (if folder = [] then Path.dot else folder), stringOf (Path.fileName path)⟩

/-- The target of a link whose real target cannot be told: a name that no folder holds. -/
def nowhere : Bytes :=
  [0]

/-- The real path behind a link, as bytes. -/
def targetOf (entry : IO.FS.DirEntry) : IO Bytes := do
  match ← (IO.FS.realPath entry.path).toBaseIO with
  | .ok path => return bytesOf path.toString
  | .error _ => return nowhere

/-- Why the file system does not open something. -/
def faultOf : IO.Error → PathError
  | .noFileOrDirectory .. => .notFound
  | .permissionDenied .. => .notPermitted
  | _ => .deviceFailed

/-- A part of the file system, with what cannot be opened in it. -/
structure Loaded (α : Type) where
  /-- What is there. -/
  found : α
  /-- The locations where nothing can be opened. -/
  faults : List ((Location × Access) × PathError) := []

/-- What the file system gives at a location, or `missing` and a fault. -/
def attempt {α : Type} (location : Location) (access : Access) (missing : α) (action : IO α) :
    IO (Loaded α) := do
  match ← action.toBaseIO with
  | .ok found => return ⟨found, []⟩
  | .error e => return ⟨missing, [((location, access), faultOf e)]⟩

/-- The entry of the file system at a location with what a search can find below it, to a depth.
Only the content of files whose names have the form of the pattern is read, and excluded names are
left out. -/
def load (search : Search) : Nat → Location → IO.FS.DirEntry → IO (Loaded Entry)
  | 0, _, _ => return ⟨.folder [], []⟩
  | depth + 1, location, entry => do
    let metadata ← attempt location .reading none (some <$> entry.path.symlinkMetadata)
    match metadata.found.map IO.FS.Metadata.type with
    | none => return ⟨.file [], metadata.faults⟩
    | some .symlink => return ⟨.link (← targetOf entry), []⟩
    | some .dir =>
      let mut entries : Table Bytes Entry := []
      let children ← attempt location .reading #[] entry.path.readDir
      let mut faults := children.faults
      for child in children.found do
        let name := bytesOf child.fileName
        unless search.isExcluded name do
          let loaded ← load search depth (location ++ [name]) child
          entries := Table.put name loaded.found entries
          faults := faults ++ loaded.faults
      return ⟨.folder entries, faults⟩
    | _ =>
      if Glob.accepts search.pattern entry.fileName.toList then
        let content ← attempt location .reading ByteArray.empty (IO.FS.readBinFile entry.path)
        return ⟨.file content.found.toList, content.faults⟩
      return ⟨.file [], []⟩

/-- A tree with what the file system has at a path: a folder, a link with the folder behind it, or a
file, without its content if the tree lacks it. Nothing if there is nothing. -/
def snapshotEntry (tree : FileTree) (path : Bytes) : IO (Option FileTree) := do
  let entry := entryOf path
  match ← entry.path.symlinkMetadata.toBaseIO with
  | .error _ => return none
  | .ok found =>
    match found.type with
    | .dir => return (tree.addFolder path).toOption.map (·.1)
    | .symlink =>
      let target ← targetOf entry
      let linked := (tree.addLink path target).toOption
      if ← entry.path.isDir then
        return linked.bind fun tree => (tree.addFolder target).toOption.map (·.1)
      return linked
    | _ =>
      match tree.entry .inspect path with
      | .ok _ => return some tree
      | .error _ => return (tree.addFile path []).toOption

/-- A tree with what the file system has along names, from the path `before` on. -/
def snapshotAlong (tree : FileTree) (before : Bytes) : List Bytes → IO FileTree
  | [] => return tree
  | name :: rest => do
    let path := Path.join before name
    match ← snapshotEntry tree path with
    | none => return tree
    | some tree => snapshotAlong tree path rest

/-- A tree with what the file system has along a path. -/
def snapshotPath (tree : FileTree) (path : Bytes) : IO FileTree :=
  snapshotAlong tree (if Path.isAbsolute path then [Path.slash] else []) (Path.names path)

/-- A tree with all that a search below `path` can find. -/
def snapshotSearch (tree : FileTree) (settings : Settings) (path : Bytes) : IO FileTree := do
  let tree ← snapshotPath tree path
  match tree.locate .use path with
  | .error _ => return tree
  | .ok location =>
    let root := Path.absolute location
    let search : Search := ⟨root, settings.pattern, settings.excludes⟩
    let loaded ← load search FileTree.pathLimit location (entryOf root)
    return { tree.put location loaded.found with faults := loaded.faults }

/-- The tree that a command needs. -/
def snapshot (environment : CommandLine.Environment) (command : Command) : IO FileTree := do
  let here := Path.names (bytesOf (← IO.currentDir).toString)
  let tree ← snapshotPath .empty (Path.absolute here)
  let tree : FileTree := { tree with here }
  let search := match command with
    | .diagram search .. => search
    | .scan search _ => search
  let settings := CommandLine.searchSettings environment search
  let tree ← snapshotSearch tree settings (Utf8.encode search.path)
  match CommandLine.outputFile command with
  | some file => snapshotPath tree (Utf8.encode file)
  | none => return tree

/-- The variables that are read. -/
def readEnvironment : IO CommandLine.Environment := do
  let values ← (Settings.variableNames ++ CommandLine.Console.variableNames).mapM fun name => do
    return (name, (← IO.getEnv (String.ofList name)).map bytesOf)
  return fun name => (values.lookup name).join

/-- The console, with the time on the clock of the machine. -/
def readConsole : IO CommandLine.Reporter := do
  let now ← IO.monoMsNow
  let fraction := Nat.toDigits 10 (1000 + now % 1000)
  return CommandLine.console fun _ =>
    Nat.toDigits 10 (now / 1000) ++ '.' :: fraction.drop 1 ++ ['s']

/-- Writes the file that a run left behind, and gives the fault if it cannot be written. -/
def writeFile (tree : FileTree) (file : Text) : IO (List ((Location × Access) × PathError)) := do
  match tree.resolve .create (Utf8.encode file), tree.read (Utf8.encode file) with
  | .ok location, .ok content =>
    let action := IO.FS.writeBinFile (String.ofList file) (ByteArray.mk content.toArray)
    return (← attempt location .writing () action).faults
  | _, _ => return []

/-- Runs a command, and once more with the fault if the output file cannot be written. -/
def runCommand (reporter : CommandLine.Reporter) (environment : CommandLine.Environment)
    (words : List Bytes) (command : Command) : IO Outcome := do
  let before ← snapshot environment command
  let (outcome, tree) := CommandLine.run reporter before environment words
  let faults ← match outcome.exitCode, CommandLine.outputFile command with
    | 0, some file => writeFile tree file
    | _, _ => pure []
  if faults = [] then return outcome
  let faulty : FileTree := { before with faults := faults ++ before.faults }
  return (CommandLine.run reporter faulty environment words).1

end PackageAtlas.Shell

open PackageAtlas in
/-- Runs the program with the words after its name. -/
def main (arguments : List String) : IO UInt32 := do
  let words := arguments.map Shell.bytesOf
  let environment ← Shell.readEnvironment
  let reporter ← Shell.readConsole
  let outcome ← match CommandLine.request words with
    | .ok (.run command) => Shell.runCommand reporter environment words command
    | _ => pure (CommandLine.run reporter .empty environment words).1
  IO.eprint (String.ofList outcome.stderr)
  IO.print (String.ofList outcome.stdout)
  return outcome.exitCode.toUInt32
