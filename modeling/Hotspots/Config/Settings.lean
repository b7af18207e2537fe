import Hotspots.Config.Stack
import Hotspots.Number.Writing
import Hotspots.Record

/-!
# Settings

A run is governed by thirteen settings. A setting holds a value of any kind until `validate` has seen
it: each check compares a value with a bound, and a value of a kind that does not compare with numbers
is refused as well. `ofRecord` gives the settings that a record of names and values describes, with a
default for every name that the record leaves out.
-/

namespace Hotspots

/-- The settings by name. -/
inductive Field where
  | workers
  | gitTimeoutSeconds
  | gitMaxCommits
  | renameThreshold
  | renameLimit
  | excludePatterns
  | maxFileSizeMb
  | changeWeight
  | disharmonyWeight
  | godClassWmcThreshold
  | godClassAtfdThreshold
  | godClassTccThreshold
  | verbosity
  deriving DecidableEq, Repr

namespace Field

/-- Every setting, in the order in which they are documented. -/
def all : List Field :=
  [workers, gitTimeoutSeconds, gitMaxCommits, renameThreshold, renameLimit, excludePatterns,
   maxFileSizeMb, changeWeight, disharmonyWeight, godClassWmcThreshold, godClassAtfdThreshold,
   godClassTccThreshold, verbosity]

/-- No setting is left out. -/
theorem mem_all (f : Field) : f ∈ all := by cases f <;> decide

/-- The name of a setting in files and messages. -/
def name : Field → String
  | workers => "workers"
  | gitTimeoutSeconds => "git_timeout_seconds"
  | gitMaxCommits => "git_max_commits"
  | renameThreshold => "rename_threshold"
  | renameLimit => "rename_limit"
  | excludePatterns => "exclude_patterns"
  | maxFileSizeMb => "max_file_size_mb"
  | changeWeight => "change_weight"
  | disharmonyWeight => "disharmony_weight"
  | godClassWmcThreshold => "god_class_wmc_threshold"
  | godClassAtfdThreshold => "god_class_atfd_threshold"
  | godClassTccThreshold => "god_class_tcc_threshold"
  | verbosity => "verbosity"

/-- Different settings have different names. -/
theorem name_injective {f g : Field} (h : f.name = g.name) : f = g := by
  revert h; cases f <;> cases g <;> decide

/-- The setting of a name. -/
def ofName? (s : String) : Option Field := all.find? fun f => f.name == s

/-- The patterns of paths that are never scored unless settings say otherwise. -/
def defaultPatterns : List String :=
  ["vendor/*", "node_modules/*", "build/*", "dist/*", "*/migrations/*", "*.min.js"]

/-- The value of a setting that no source sets. -/
def default : Field → Value
  | workers => .null
  | gitTimeoutSeconds => .int 60
  | gitMaxCommits => .int 0
  | renameThreshold => .float (Binary64.ofRatio false 1 2)
  | renameLimit => .int 10000
  | excludePatterns => .list (defaultPatterns.map .text)
  | maxFileSizeMb => .float (.ofInt 2)
  | changeWeight => .int 1
  | disharmonyWeight => .int 1
  | godClassWmcThreshold => .int 47
  | godClassAtfdThreshold => .int 5
  | godClassTccThreshold => .float (Binary64.ofRatio false 1 3)
  | verbosity => .text "normal"

/-- What a setting is meant to hold, which decides how its text in the environment is read. -/
inductive Shape where
  | optionalWhole
  | whole
  | real
  | texts
  | choice (of : List String)
  deriving DecidableEq, Repr

/-- The shape of a setting. -/
def shape : Field → Shape
  | workers => .optionalWhole
  | gitTimeoutSeconds => .whole
  | gitMaxCommits => .whole
  | renameThreshold => .real
  | renameLimit => .whole
  | excludePatterns => .texts
  | maxFileSizeMb => .real
  | changeWeight => .whole
  | disharmonyWeight => .whole
  | godClassWmcThreshold => .whole
  | godClassAtfdThreshold => .whole
  | godClassTccThreshold => .real
  | verbosity => .choice ["quiet", "normal", "verbose"]

end Field

namespace Value

/-- Compares two values by number; values of other kinds do not compare. -/
def compareBy (operator : String) (holds : Number → Number → Bool) (a b : Value) :
    Except Fault Bool :=
  match a.number?, b.number? with
  | some x, some y => .ok (holds x y)
  | _, _ => .error (.notComparable operator a.kind b.kind)

/-- Whether a value is below another. -/
def lt (a b : Value) : Except Fault Bool := compareBy "<" Number.lt a b

/-- Whether a value is at or below another. -/
def le (a b : Value) : Except Fault Bool := compareBy "<=" Number.le a b

/-- Whether a value is the number zero. -/
def isZero (v : Value) : Bool := (v.number?.map Number.isZero).getD false

end Value

/-- A value for every setting. -/
abbrev Settings := Field → Value

namespace Settings

/-- The values of the settings that no source sets. -/
def default : Settings := Field.default

/-- One. -/
def one : Value := .int 1

/-- Zero. -/
def zero : Value := .int 0

/-- A setting with a value that is not allowed. A value that is nested too deeply cannot be shown, and neither can one
that cannot be written. -/
def invalid (stack : Stack) (key : String) (value : Value) (reason : String) : Failure :=
  match stack.showing? value with
  | some words => .fault (.stackEnded words)
  | none =>
    if value.isWritable then .triage (.invalidSetting (.text key) value (.text reason))
    else .fault .wholeTooLong

/-- A check: a test of values, and the failure if the test holds. -/
def reject (test : Except Fault Bool) (failure : Failure) : Except Failure Unit :=
  match test with
  | .error f => .error (.fault f)
  | .ok true => .error failure
  | .ok false => .ok ()

/-- The first test, or else the second. -/
def either (first second : Except Fault Bool) : Except Fault Bool :=
  match first with
  | .ok false => second
  | other => other

/-- Whether a value is no ratio above zero and up to one. -/
def outsideUnit (v : Value) : Except Fault Bool := do
  if ← Value.lt (.float .zero) v then return !(← v.le (.float (.ofInt 1))) else return true

/-- Checks the settings in order. -/
def validate (s : Settings) (stack : Stack := {}) : Except Failure Unit := do
  reject (match s .workers with
    | .null => .ok false
    | v => v.lt one) (invalid stack "workers" (s .workers) "must be at least 1")
  reject ((s .gitTimeoutSeconds).lt one)
    (invalid stack "git_timeout_seconds" (s .gitTimeoutSeconds) "must be at least 1")
  reject ((s .gitMaxCommits).lt zero)
    (invalid stack "git_max_commits" (s .gitMaxCommits) "must be non-negative")
  reject (outsideUnit (s .renameThreshold))
    (invalid stack "rename_threshold" (s .renameThreshold) "must be in (0.0, 1.0]")
  reject ((s .renameLimit).lt zero) (invalid stack "rename_limit" (s .renameLimit) "must be non-negative")
  reject ((s .maxFileSizeMb).le zero)
    (invalid stack "max_file_size_mb" (s .maxFileSizeMb) "must be positive")
  let weights := "change_weight/disharmony_weight"
  reject (either ((s .changeWeight).lt zero) ((s .disharmonyWeight).lt zero))
    (invalid stack weights (.tuple [s .changeWeight, s .disharmonyWeight]) "must be non-negative")
  reject (.ok ((s .changeWeight).isZero && (s .disharmonyWeight).isZero))
    (invalid stack weights (.tuple [zero, zero]) "at least one weight must be positive")
  reject (either ((s .godClassWmcThreshold).lt one) ((s .godClassAtfdThreshold).lt zero))
    (invalid stack "god_class thresholds" (.tuple [s .godClassWmcThreshold, s .godClassAtfdThreshold])
      "WMC must be at least 1 and ATFD non-negative")
  reject (outsideUnit (s .godClassTccThreshold))
    (invalid stack "god_class_tcc_threshold" (s .godClassTccThreshold) "must be in (0.0, 1.0]")

/-- What is said of names that settings cannot have. -/
def badName (name : String) : Fault :=
  if name = "self" then
    .other "TypeError" "TriageConfig.__init__() got multiple values for argument 'self'"
  else
    .other "TypeError"
      ("TriageConfig.__init__() got an unexpected keyword argument '" ++ name ++ "'")

/-- The values that a record sets, and the defaults of the others. -/
def merged (record : List (String × Value)) : Settings :=
  fun f => (Record.get? f.name record).getD f.default

/-- The settings that a record describes: every name must be known and every value allowed. -/
def ofRecord (record : List (String × Value)) (stack : Stack := {}) : Except Failure Settings :=
  match record.find? fun (name, _) => (Field.ofName? name).isNone with
  | some (name, _) => .error (.fault (badName name))
  | none => do
    validate (merged record) stack
    return merged record

/-- A real number cut to an integer. -/
def cut (x : Binary64) : Except Fault Int :=
  match x with
  | .nan => .error .nanToWhole
  | .infinite _ => .error .infinityToWhole
  | .finite s u => .ok (Binary64.signedUnits s (u / Binary64.one))

/-- The largest size of a file that is scored, in bytes. -/
def maxFileSizeBytes (s : Settings) : Except Fault Int :=
  match (s .maxFileSizeMb).number? with
  | some (.whole i) => .ok (i * 1024 * 1024)
  | some (.real x) => cut ((x.mul (.ofInt 1024)).mul (.ofInt 1024))
  | none => .error (.notCombinable "*" (s .maxFileSizeMb).kind "int")

/-- The number of workers, unless it is left to the machine. -/
def effectiveWorkers (s : Settings) : Option Value :=
  if (s .workers).isFalsy then none else some (s .workers)

end Settings

end Hotspots
