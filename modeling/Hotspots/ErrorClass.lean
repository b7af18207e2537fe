import Hotspots.Failure

/-!
# Classes of failures

Every failure of this tool belongs to a class, and every class but the most general one is a special case of
another. A failure can be made from its class and a list of arguments, as a scripting user would do it; the
number and the kinds of the arguments are checked.
-/

namespace Hotspots

/-- The classes of failures. -/
inductive ErrorClass where
  | triage
  | repository
  | access
  | command
  | notFound
  | analysis
  | parsing
  | cancelled
  | configuration
  | invalidSetting
  deriving DecidableEq, Repr

namespace ErrorClass

/-- Every class. -/
def all : List ErrorClass :=
  [triage, repository, access, command, notFound, analysis, parsing, cancelled, configuration,
   invalidSetting]

/-- The name of a class. -/
def name : ErrorClass → String
  | triage => "TriageError"
  | repository => "RepositoryError"
  | access => "RepositoryAccessError"
  | command => "GitCommandError"
  | notFound => "NotFoundError"
  | analysis => "AnalysisError"
  | parsing => "ParsingError"
  | cancelled => "AnalysisCancelledError"
  | configuration => "ConfigurationError"
  | invalidSetting => "InvalidConfigError"

/-- The class of a name. -/
def ofName? (s : String) : Option ErrorClass := all.find? fun c => c.name == s

/-- A class and the more general ones above it, up to the most general. -/
def ancestry : ErrorClass → List ErrorClass
  | triage => [triage]
  | repository => [repository, triage]
  | access => [access, repository, triage]
  | command => [command, access, repository, triage]
  | notFound => [notFound, repository, triage]
  | analysis => [analysis, triage]
  | parsing => [parsing, analysis, triage]
  | cancelled => [cancelled, analysis, triage]
  | configuration => [configuration, triage]
  | invalidSetting => [invalidSetting, configuration, triage]

/-- Every class is a special case of the most general one. -/
theorem getLast?_ancestry (c : ErrorClass) : c.ancestry.getLast? = some triage := by cases c <;> rfl

/-- The class that says how failures of a class are made. -/
def maker : ErrorClass → ErrorClass
  | repository => triage
  | analysis => triage
  | configuration => triage
  | c => c

/-- The arguments that a class needs. -/
def required : ErrorClass → List String
  | access => ["path", "reason"]
  | command => ["path", "args", "returncode", "stderr"]
  | notFound => ["ref"]
  | parsing => ["filepath", "language", "reason"]
  | cancelled => ["phase"]
  | invalidSetting => ["key", "value", "reason"]
  | _ => ["message"]

/-- How many further arguments a class takes. -/
def optionalCount : ErrorClass → Nat
  | notFound => 1
  | access => 0
  | command => 0
  | parsing => 0
  | cancelled => 0
  | invalidSetting => 0
  | _ => 1

/-! ## Making failures -/

/-- A kind fault in words. -/
def kindFault (text : String) : Fault := .other "TypeError" text

/-- Names in a list, quoted. -/
def listed : List String → String
  | [] => ""
  | [a] => "'" ++ a ++ "'"
  | [a, b] => "'" ++ a ++ "' and '" ++ b ++ "'"
  | names =>
    ", ".intercalate ((names.dropLast).map fun n => "'" ++ n ++ "'") ++ ", and '"
      ++ names.getLastD "" ++ "'"

/-- What is said of missing arguments. -/
def missing (c : ErrorClass) (names : List String) : Fault :=
  kindFault (c.maker.name ++ ".__init__() missing " ++ natText names.length ++ " required positional "
    ++ (if names.length = 1 then "argument: " else "arguments: ") ++ listed names)

/-- What is said of too many arguments; the failure itself counts as one. -/
def tooMany (c : ErrorClass) (given : Nat) : Fault :=
  let least := c.required.length + 1
  let most := least + c.optionalCount
  kindFault (c.maker.name ++ ".__init__() takes "
    ++ (if least = most then natText least else "from " ++ natText least ++ " to " ++ natText most)
    ++ " positional arguments but " ++ natText (given + 1) ++ " were given")

/-- The facts that a value holds; an empty value holds none. -/
def factsOf (v : Value) : Except Fault (List (String × Value)) :=
  if v.isFalsy then .ok []
  else
    match v with
    | .table entries => .ok entries
    | v => .error (.other "AttributeError" ("'" ++ v.kind ++ "' object has no attribute 'items'"))

/-- Texts that are joined, from the element of a given index on. -/
def textsFrom : Nat → List Value → Except Fault (List String)
  | _, [] => .ok []
  | index, .text s :: rest => (textsFrom (index + 1) rest).map (s :: ·)
  | index, v :: _ =>
    .error (kindFault ("sequence item " ++ natText index ++ ": expected str instance, " ++ v.kind ++ " found"))

/-- The arguments of a command. -/
def commandArguments (v : Value) : Except Fault (List String) :=
  match v.elements? with
  | none => .error (kindFault "can only join an iterable")
  | some items => textsFrom 0 items

/-- The complaint of a command. -/
def complaintOf : Value → Except Fault String
  | .text s => .ok s
  | v => .error (.other "AttributeError" ("'" ++ v.kind ++ "' object has no attribute 'strip'"))

/-- The family of a class whose failures have a message and facts. -/
def family : ErrorClass → Family
  | repository => .repository
  | analysis => .analysis
  | configuration => .configuration
  | _ => .any

/-- The failure of a class with the right number of arguments. -/
def build (c : ErrorClass) (argument : Nat → Value) : Except Fault TriageError :=
  match c with
  | access => .ok (.access (argument 0) (argument 1))
  | command => do
    let arguments ← commandArguments (argument 1)
    let complaint ← complaintOf (argument 3)
    return .command (argument 0) arguments (argument 2) complaint
  | notFound => .ok (.notFound (argument 0) (argument 1))
  | parsing => .ok (.parsing (argument 0) (argument 1) (argument 2))
  | cancelled => .ok (.cancelled (argument 0))
  | invalidSetting => .ok (.invalidSetting (argument 0) (argument 1) (argument 2))
  | c => (factsOf (argument 1)).map fun facts => .general c.family (argument 0) facts

/-- The failure of a class with arguments. -/
def make (c : ErrorClass) (arguments : List Value) : Except Fault TriageError :=
  if arguments.length < c.required.length then .error (c.missing (c.required.drop arguments.length))
  else if c.required.length + c.optionalCount < arguments.length then .error (c.tooMany arguments.length)
  else c.build fun n => arguments.getD n .null

end ErrorClass

namespace TriageError

/-- The class of a failure. -/
def errorClass : TriageError → ErrorClass
  | general .any _ _ => .triage
  | general .repository _ _ => .repository
  | general .analysis _ _ => .analysis
  | general .configuration _ _ => .configuration
  | access _ _ => .access
  | command _ _ _ _ => .command
  | notFound _ _ => .notFound
  | parsing _ _ _ => .parsing
  | cancelled _ => .cancelled
  | invalidSetting _ _ _ => .invalidSetting

/-- What a failure keeps of its arguments, by name. -/
def attributes : TriageError → List (String × Value)
  | general _ _ _ => []
  | access path reason => [("path", path), ("reason", reason)]
  | command path arguments exit complaint =>
    [("path", path), ("reason", .text (commandReason arguments exit complaint)),
     ("command", .list (arguments.map .text)), ("returncode", exit), ("stderr", .text complaint)]
  | notFound ref path => [("ref", ref), ("path", path)]
  | parsing file language reason => [("filepath", file), ("language", language), ("reason", reason)]
  | cancelled phase => [("phase", phase)]
  | invalidSetting key value reason => [("key", key), ("value", value), ("reason", reason)]

/-- A failure in words; a message that is no text stands only in front of facts. -/
def words (e : TriageError) : Except Fault String :=
  match e.report.message with
  | .text _ => .ok e.message
  | v =>
    if e.report.details.isEmpty then
      .error (ErrorClass.kindFault ("__str__ returned non-string (type " ++ v.kind ++ ")"))
    else .ok e.message

end TriageError

end Hotspots
