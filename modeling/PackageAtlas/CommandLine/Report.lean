import PackageAtlas.Log
import PackageAtlas.Search
import PackageAtlas.Settings

set_option autoImplicit false

/-! # Reports

What a run tells goes to standard error as a list of `Notice`s: texts, the entries of the log and,
at the end, why the command failed. Texts are written as they are. A `Reporter` stands for those who
write the rest: it decides how an entry of the log is shown, if at all, and what is added where it
cannot understand what it is asked for and where a command failed. It is asked through variables of
the environment, of which it sees all but those of the settings. -/

namespace PackageAtlas.CommandLine

/-- The variables of the environment, as the bytes they are set to. -/
abbrev Environment := Text → Option Bytes

/-- An environment without the variables of the settings. -/
def surroundings (environment : Environment) : Environment :=
  fun name => if name ∈ Settings.variableNames then none else environment name

/-! ## Failures -/

/-- Why a command fails. -/
inductive Failure where
  /-- A path given on the command line cannot be used. -/
  | path (cause : PathError)
  /-- The source files cannot be listed or read. -/
  | source (error : SourceError)
  deriving DecidableEq

/-- A line of output. -/
def line (t : Text) : Text :=
  t ++ ['\n']

/-- A text with its second and further lines moved to the right. -/
def hanging (spaces : Nat) (t : Text) : Text :=
  t.flatMap fun c => if c = '\n' then '\n' :: List.replicate spaces ' ' else [c]

/-- The lines for causes, which are numbered if there are several. -/
def causeLines : List Text → Text
  | [cause] => line ("    ".toList ++ hanging 4 cause)
  | causes =>
    causes.zipIdx.flatMap fun (cause, n) =>
      line ("    ".toList ++ Nat.toDigits 10 n ++ ": ".toList ++ hanging 7 cause)

/-- The failure in words: what lies behind an error of the source files is told apart. -/
def Failure.report : Failure → Text
  | path cause => line ("Error: ".toList ++ cause.message)
  | source error =>
    line ("Error: ".toList ++ error.message) ++ line [] ++ line "Caused by:".toList
      ++ causeLines error.causes

/-! ## Notices -/

/-- What a run tells. -/
inductive Notice where
  /-- A text that is written as it is. -/
  | text (t : Text)
  /-- An entry of the log, and where it comes from. -/
  | entry (origin : Origin) (entry : LogEntry)
  /-- Why the command failed. -/
  | failure (failure : Failure)
  deriving DecidableEq

/-- How notices are written in given surroundings, as far as they are not plain texts. The clock is
part of it: the entries of the log are numbered, and those with one number come at one time. -/
structure Reporter where
  /-- What is written before anything else. -/
  opening (around : Environment) : Text
  /-- What is written for the entry of the log with this number, nothing if it is not shown. -/
  shown (around : Environment) (number : Nat) (origin : Origin) (entry : LogEntry) : Text
  /-- What is written behind the report of a failure. -/
  trace (around : Environment) (failure : Failure) : Text

namespace Reporter

variable (reporter : Reporter)

/-- Notices as they are written, the first entry of the log having this number. -/
def writtenFrom (around : Environment) : Nat → List Notice → Text
  | _, [] => []
  | number, .text t :: rest => t ++ writtenFrom around number rest
  | number, .entry origin entry :: rest =>
    reporter.shown around number origin entry ++ writtenFrom around (number + 1) rest
  | number, .failure failure :: rest =>
    failure.report ++ reporter.trace around failure ++ writtenFrom around number rest

/-- All that is written of the notices of a run. -/
def written (around : Environment) (notices : List Notice) : Text :=
  reporter.opening around ++ reporter.writtenFrom around 0 notices

end Reporter

end PackageAtlas.CommandLine
