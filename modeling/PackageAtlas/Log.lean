import PackageAtlas.Text

set_option autoImplicit false

/-! # Log entries

What an operation has to tell besides its result is part of what it returns: a list of log entries,
in the order in which they arose. Whether they are shown is not for the operation to say: it depends
on their level and on their `Origin`. -/

namespace PackageAtlas

/-- How much an entry matters. -/
inductive Level where
  | trace
  | debug
  | info
  | warn
  deriving DecidableEq

/-- The word for a level. -/
def Level.label : Level → Text
  | .trace => "TRACE".toList
  | .debug => "DEBUG".toList
  | .info => "INFO".toList
  | .warn => "WARN".toList

/-- One message and its level. -/
structure LogEntry where
  level : Level
  message : Text
  deriving DecidableEq

/-- An entry as one line: the level, a space, the message. -/
def LogEntry.line (entry : LogEntry) : Text :=
  entry.level.label ++ ' ' :: entry.message

/-- The part of the program that an entry comes from. -/
inductive Origin where
  /-- The search for source files and the collection of their records. -/
  | search
  /-- The gathering of dependencies. -/
  | dependencies
  /-- The building of a namespace. -/
  | packages
  deriving DecidableEq

/-- The name by which a filter knows a part of the program. -/
def Origin.target : Origin → Text
  | .search => "source::walker".toList
  | .dependencies => "arch::deps".toList
  | .packages => "arch::tree".toList

end PackageAtlas
