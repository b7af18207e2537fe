import Hotspots.Text.Blank
import Hotspots.Value

/-!
# Failures

`TriageError` holds the failures that this tool reports as its own: each names the facts needed to act
on it, and `report` turns it into a message with ordered details. `Fault` holds the failures of plain
values: texts that are no number, values that do not compare, divisions by zero. `Failure` is either of
them, or the user's interruption of a run.
-/

namespace Hotspots

/-- The broad families of this tool's own failures. -/
inductive Family where
  | any
  | repository
  | analysis
  | configuration
  deriving DecidableEq, Repr

/-- A failure that aborts a run. -/
inductive TriageError where
  /-- A failure of a family with a message and further facts. -/
  | general (family : Family) (message : Value) (facts : List (String × Value))
  /-- A location is missing, unreadable or no repository. -/
  | access (path reason : Value)
  /-- A command of the version control system ended badly. -/
  | command (path : Value) (arguments : List String) (exit : Value) (complaint : String)
  /-- A revision, or a path at a revision, does not exist. -/
  | notFound (ref path : Value)
  /-- A file's content is not well formed in its language. -/
  | parsing (file language reason : Value)
  /-- A run was cancelled before it produced a ranking. -/
  | cancelled (phase : Value)
  /-- A setting has a value that is not allowed. -/
  | invalidSetting (key value reason : Value)
  deriving Repr

/-- A message and the facts behind it, in order; a fact without a value is left out. -/
structure Report where
  message : Value
  details : List (String × String)
  deriving Repr

namespace Report

/-- A report with the facts that have a value. -/
def ofFacts (message : Value) (facts : List (String × Value)) : Report :=
  ⟨message, facts.filterMap fun (key, value) => match value with
    | .null => none
    | value => some (key, value.plain)⟩

/-- The facts of a report, written `key=value` and separated by commas. -/
def detailsText (details : List (String × String)) : String :=
  ", ".intercalate (details.map fun (key, value) => key ++ "=" ++ value)

/-- The message, followed by the facts in parentheses if there are any. -/
def text (r : Report) : String :=
  if r.details.isEmpty then r.message.plain
  else r.message.plain ++ " (" ++ detailsText r.details ++ ")"

end Report

namespace TriageError

/-- Why a command failed, in words. -/
def commandReason (arguments : List String) (exit : Value) (complaint : String) : String :=
  "git " ++ " ".intercalate arguments ++ " exited with " ++ exit.plain ++ ": "
    ++ Blank.trimText complaint

/-- The report of a failure to open a location. -/
def accessReport (path reason : Value) : Report :=
  .ofFacts (.text ("Cannot open repository: " ++ path.plain))
    [("path", .text path.plain), ("reason", reason)]

/-- The message and the facts of a failure. -/
def report : TriageError → Report
  | general _ message facts => .ofFacts message facts
  | access path reason => accessReport path reason
  | command path arguments exit complaint =>
    accessReport path (.text (commandReason arguments exit complaint))
  | notFound ref .null => .ofFacts (.text ("Not found: " ++ ref.plain)) [("ref", ref)]
  | notFound ref path =>
    .ofFacts (.text ("Not found: " ++ ref.plain ++ ":" ++ path.plain)) [("ref", ref), ("path", path)]
  | parsing file language reason =>
    .ofFacts (.text ("Failed to parse " ++ language.plain ++ " file: " ++ file.plain))
      [("filepath", file), ("language", language), ("reason", reason)]
  | cancelled phase => .ofFacts (.text "Analysis cancelled") [("phase", phase)]
  | invalidSetting key value reason =>
    .ofFacts (.text ("Invalid configuration for " ++ key.plain ++ ": " ++ value.plain))
      [("key", key), ("value", .text value.plain), ("reason", reason)]

/-- A failure in words. -/
def message (e : TriageError) : String := e.report.text

end TriageError

/-- A failure of plain values. -/
inductive Fault where
  /-- Bytes are not text in an encoding: the bytes at fault, where they start, and why. -/
  | undecodable (encoding : String) (stretch : Bytes) (start : Nat) (reason : String)
  /-- A text is no whole number; the text is given as it is shown. -/
  | notWhole (shown : String)
  /-- A text is no number; the text is given as it is shown. -/
  | notReal (shown : String)
  /-- A whole number has more digits than are read. -/
  | tooManyDigits (count : Nat)
  /-- A whole number has more digits than are written. -/
  | wholeTooLong
  /-- A record has fewer or more fields than it must have. -/
  | fieldCount (expected got : Nat)
  /-- A backslash ends a quoted path. -/
  | trailingBackslash
  /-- A hexadecimal escape of a quoted path is incomplete. -/
  | incompleteEscape (position : Nat)
  /-- A text names no kind of change. -/
  | notAChangeKind (text : String)
  /-- A number of bytes to read is negative. -/
  | negativeLength
  /-- A number does not fit in a machine word. -/
  | lengthTooLarge
  /-- An integer was divided by zero. -/
  | wholeByZero
  /-- A real number was divided by zero. -/
  | realByZero
  /-- The quotient of two integers is out of range. -/
  | quotientTooLarge
  /-- An integer is out of range of the real numbers. -/
  | wholeTooLarge
  /-- A real number that is not a number was converted to an integer. -/
  | nanToWhole
  /-- An infinity was converted to an integer. -/
  | infinityToWhole
  /-- A weight does not fit in a machine word. -/
  | weightTooLarge
  /-- Two kinds of values do not compare. -/
  | notComparable (operator left right : String)
  /-- Two kinds of values do not combine. -/
  | notCombinable (operator left right : String)
  /-- A value that should be passed through is of a kind that holds no elements. -/
  | notIterable (kind : String)
  /-- A key is of a kind that cannot be a key. -/
  | unhashable (kind : String)
  /-- An entry of a list of pairs is no pair. -/
  | notAPair (index length : Nat)
  /-- An entry of a list of pairs holds no elements. -/
  | notASequence (index : Nat)
  /-- Anything else that a caller may do wrong: the kind of the failure and its words. -/
  | other (kind text : String)
  deriving Repr

namespace Fault

/-- Where undecodable bytes are, in words. -/
def stretchText (stretch : Bytes) (start : Nat) : String :=
  match stretch with
  | [b] => "byte 0x" ++ Utf8.hexByte b ++ " in position " ++ natText start
  | _ => "bytes in position " ++ natText start ++ "-" ++ natText (start + stretch.length - 1)

/-- The part of a shown text that a message has room for. -/
def abridged (shown : String) : String := String.ofList (shown.toList.take 200)

/-- The broad kind of a fault. -/
def kind : Fault → String
  | undecodable _ _ _ _ => "UnicodeDecodeError"
  | notWhole _ => "ValueError"
  | notReal _ => "ValueError"
  | tooManyDigits _ => "ValueError"
  | wholeTooLong => "ValueError"
  | fieldCount _ _ => "ValueError"
  | trailingBackslash => "ValueError"
  | incompleteEscape _ => "ValueError"
  | notAChangeKind _ => "ValueError"
  | negativeLength => "ValueError"
  | lengthTooLarge => "OverflowError"
  | wholeByZero => "ZeroDivisionError"
  | realByZero => "ZeroDivisionError"
  | quotientTooLarge => "OverflowError"
  | wholeTooLarge => "OverflowError"
  | nanToWhole => "ValueError"
  | infinityToWhole => "OverflowError"
  | weightTooLarge => "OverflowError"
  | notComparable _ _ _ => "TypeError"
  | notCombinable _ _ _ => "TypeError"
  | notIterable _ => "TypeError"
  | unhashable _ => "TypeError"
  | notAPair _ _ => "ValueError"
  | notASequence _ => "TypeError"
  | other kind _ => kind

/-- Whether a fault is about values of the wrong kind. -/
def isKindFault (f : Fault) : Bool := f.kind == "TypeError"

/-- A fault in words. -/
def message : Fault → String
  | undecodable encoding stretch start reason =>
    "'" ++ encoding ++ "' codec can't decode " ++ stretchText stretch start ++ ": " ++ reason
  | notWhole shown => "invalid literal for int() with base 10: " ++ abridged shown
  | notReal shown => "could not convert string to float: " ++ shown
  | tooManyDigits count =>
    "Exceeds the limit (4300 digits) for integer string conversion: value has " ++ natText count
      ++ " digits; use sys.set_int_max_str_digits() to increase the limit"
  | wholeTooLong =>
    "Exceeds the limit (4300 digits) for integer string conversion; use sys.set_int_max_str_digits() "
      ++ "to increase the limit"
  | fieldCount expected got =>
    if got < expected then
      "not enough values to unpack (expected " ++ natText expected ++ ", got " ++ natText got ++ ")"
    else "too many values to unpack (expected " ++ natText expected ++ ")"
  | trailingBackslash => "Trailing \\ in string"
  | incompleteEscape position => "invalid \\x escape at position " ++ natText position
  | notAChangeKind text => Quoted.text text ++ " is not a valid ChangeKind"
  | negativeLength => "read length must be non-negative or -1"
  | lengthTooLarge => "cannot fit 'int' into an index-sized integer"
  | wholeByZero => "division by zero"
  | realByZero => "float division by zero"
  | quotientTooLarge => "integer division result too large for a float"
  | wholeTooLarge => "int too large to convert to float"
  | nanToWhole => "cannot convert float NaN to integer"
  | infinityToWhole => "cannot convert float infinity to integer"
  | weightTooLarge => "Python int too large to convert to C long"
  | notComparable operator left right =>
    "'" ++ operator ++ "' not supported between instances of '" ++ left ++ "' and '" ++ right ++ "'"
  | notCombinable operator left right =>
    "unsupported operand type(s) for " ++ operator ++ ": '" ++ left ++ "' and '" ++ right ++ "'"
  | notIterable kind => "'" ++ kind ++ "' object is not iterable"
  | unhashable kind => "unhashable type: '" ++ kind ++ "'"
  | notAPair index length =>
    "dictionary update sequence element #" ++ natText index ++ " has length " ++ natText length
      ++ "; 2 is required"
  | notASequence index =>
    "cannot convert dictionary update sequence element #" ++ natText index ++ " to a sequence"
  | other _ text => text

/-- A failed strict reading of text as a fault. -/
def ofMalformed (m : Utf8.Malformed) : Fault :=
  .undecodable "utf-8" m.stretch m.start m.fault.message

/-- The stack of calls has ended, with what is said of it. -/
def stackEnded (words : String) : Fault := .other "RecursionError" words

/-- There is no memory left. -/
def outOfMemory : Fault := .other "MemoryError" ""

end Fault

/-- Anything that can end an operation early. -/
inductive Failure where
  | triage (e : TriageError)
  | fault (f : Fault)
  /-- The user interrupted the run. -/
  | interrupted
  deriving Repr

namespace Failure

/-- A failure in words. -/
def message : Failure → String
  | triage e => e.message
  | fault f => f.message
  | interrupted => ""

/-- A revision, or a path at a revision, does not exist. -/
def notFound (ref : String) (path : Option String) : Failure :=
  .triage (.notFound (.text ref) ((path.map Value.text).getD .null))

/-- A location cannot be opened. -/
def access (path reason : String) : Failure := .triage (.access (.text path) (.text reason))

/-- A run was cancelled in a phase. -/
def cancelled (phase : String) : Failure := .triage (.cancelled (.text phase))

/-- The settings cannot be read, in words. -/
def configuration (text : String) : Failure := .triage (.general .configuration (.text text) [])

end Failure

end Hotspots
