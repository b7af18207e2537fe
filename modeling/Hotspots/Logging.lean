import Hotspots.Session

/-!
# Which log entries are kept

The verbosity of a run decides the least important level that is kept. Explicit switches win over a named
verbosity, silence wins over detail, and an unknown name counts as the usual verbosity. Entries carry the name
of a logger; all loggers of this tool are below one name.
-/

namespace Hotspots

namespace Level

/-- The weight of a level; more important levels weigh more. -/
def weight : Level → Nat
  | debug => 10
  | info => 20
  | warning => 30
  | error => 40

/-- The name of a level. -/
def name : Level → String
  | debug => "DEBUG"
  | info => "INFO"
  | warning => "WARNING"
  | error => "ERROR"

end Level

namespace Logging

/-- The level of a named verbosity. -/
def levelOfName (name : String) : Level :=
  if name = "quiet" then .error else if name = "verbose" then .debug else .warning

/-- The level of a verbosity that may be of any kind. -/
def levelOfVerbosity (v : Value) : Except Fault Level :=
  if v.isFalsy then .ok .warning
  else
    match v with
    | .text name => .ok (levelOfName name)
    | .list _ => .error (.unhashable v.kind)
    | .table _ => .error (.unhashable v.kind)
    | _ => .ok .warning

/-- The least important level that is kept. -/
def levelFor (verbose quiet : Bool) (verbosity : Value) : Except Fault Level :=
  if quiet then .ok .error else if verbose then .ok .debug else levelOfVerbosity verbosity

/-- The name that all loggers of this tool are below. -/
def rootName : String := "refactor_triage"

/-- The full name of a logger. -/
def loggerName : Option String → String
  | none => rootName
  | some name => if name.startsWith rootName then name else rootName ++ "." ++ name

/-- Whether a logger belongs to this tool. -/
def isOwn (logger : String) : Bool := logger == rootName || logger.startsWith (rootName ++ ".")

/-- Whether an entry is kept. -/
def keeps (least : Level) (e : Entry) : Bool := least.weight ≤ e.level.weight

/-- The lines of a log file, with a time in front of each entry that is kept. -/
def fileLines (least : Level) (time logger : String) (entries : List Entry) : List String :=
  (entries.filter (keeps least)).map fun e =>
    time ++ " - " ++ logger ++ " - " ++ e.level.name ++ " - " ++ e.text

end Logging

end Hotspots
