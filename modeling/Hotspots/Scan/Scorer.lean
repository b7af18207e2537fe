import Hotspots.History.Change
import Hotspots.Record
import Hotspots.Scan.Finding

/-!
# One finding per file

A scorer runs an engine over files and keeps the most severe finding of each. A file that cannot be
scanned is logged and left out, and so is one on which the engine fails; neither ends the run. Every
processed file is counted once in the total and once as scored, clean or skipped.
-/

namespace Hotspots

/-- An engine with limits for its files. -/
structure Scorer where
  engine : Engine
  /-- The number of workers; nothing and zero leave it to the machine. -/
  workers : Value := .null
  /-- The largest size of a file that is scanned, in bytes. -/
  maxFileSize : Int := 2 * 1024 * 1024

/-- How many files were processed, and with what outcome. -/
structure Tally where
  scored : Nat := 0
  clean : Nat := 0
  skipped : Nat := 0
  total : Nat := 0
  deriving DecidableEq, Repr

/-- The state of scoring. -/
structure Scoring where
  session : Session := {}
  tally : Tally := {}
  deriving Inhabited

instance : HasSession Scoring where
  session := Scoring.session
  withSession session s := { s with session := session }

/-- Findings with the identities of their files. -/
abbrev Scores := List (FileIdentity × Finding)

namespace Scorer

/-! ## One file -/

/-- Why a file is not scanned. -/
inductive Obstacle where
  | unsupported
  | oversize (bytes : Nat)
  | binary
  | undecodable (m : Utf8.Malformed)
  deriving Repr

namespace Obstacle

/-- What the log says of an obstacle; files that the engine does not support pass in silence. -/
def entries (path : String) : Obstacle → List Entry
  | unsupported => []
  | oversize bytes =>
    [⟨.debug, "Skipping " ++ path ++ ": " ++ natText bytes ++ " bytes exceeds size limit"⟩]
  | binary => [⟨.debug, "Skipping " ++ path ++ ": binary content"⟩]
  | undecodable m =>
    [⟨.debug, "Skipping " ++ path ++ ": not UTF-8 (" ++ (Fault.ofMalformed m).message ++ ")"⟩]

end Obstacle

/-- The source text of a file, or why it is not scanned. -/
def sourceOf (s : Scorer) (path : String) (content : Bytes) : Except Obstacle String :=
  if !s.engine.supports path then .error .unsupported
  else if s.maxFileSize < content.length then .error (.oversize content.length)
  else if content.contains 0 then .error .binary
  else (Utf8.decode content).mapError .undecodable

/-- Whether a finding counts: its score is zero or more. -/
def isAdmissible (f : Finding) : Bool := Binary64.zero.le f.score

/-- Whether a finding is more severe than another: the greater score, then the earlier line. -/
def exceeds (f g : Finding) : Bool :=
  if f.score.eq g.score then f.line < g.line else g.score.lt f.score

/-- The more severe one of two findings, the first of equals. -/
def worse (f g : Finding) : Finding := if exceeds g f then g else f

/-- The most severe of the findings that count, the first of equals. -/
def representative? (findings : List Finding) : Option Finding :=
  match findings.filter isAdmissible with
  | [] => none
  | f :: rest => some (rest.foldl worse f)

/-- What became of one file. -/
inductive Outcome where
  | unscannable
  | clean
  | found (f : Finding)
  /-- The engine failed in an unexpected way. -/
  | failed (e : Failure)
  deriving Repr

/-- Whether a failure of an engine only says that a source cannot be analyzed. -/
def isRejection : Failure → Bool
  | .triage (.parsing _ _ _) => true
  | .fault f => f.kind == "RecursionError"
  | _ => false

/-- What the engine makes of a source text, and what the log says of it. -/
def analyzed (s : Scorer) (path source : String) : Outcome × List Entry :=
  match s.engine.analyze path source with
  | .ok findings =>
    match representative? findings with
    | none => (.clean, [])
    | some f => (.found f, [])
  | .error e =>
    if isRejection e then
      (.unscannable, [⟨.debug, "Cannot analyze " ++ path ++ ": " ++ e.message⟩])
    else (.failed e, [])

/-- What becomes of a file, and what the log says of it. -/
def examine (s : Scorer) (path : String) (content : Bytes) : Outcome × List Entry :=
  match s.engine.failure? path with
  | some e => (.failed e, [])
  | none =>
    match s.sourceOf path content with
    | .error obstacle => (.unscannable, obstacle.entries path)
    | .ok source => s.analyzed path source

/-- Whether the run is cancelled while a file is examined. -/
def cancelsOn (s : Scorer) (path : String) (content : Bytes) : Bool :=
  match s.engine.failure? path, s.sourceOf path content with
  | none, .ok _ => s.engine.cancels path
  | _, _ => false

/-- The tally with one more file; a failed one is not yet counted as skipped. -/
def Outcome.count (t : Tally) : Outcome → Tally
  | unscannable => { t with total := t.total + 1, skipped := t.skipped + 1 }
  | clean => { t with total := t.total + 1, clean := t.clean + 1 }
  | found _ => { t with total := t.total + 1, scored := t.scored + 1 }
  | failed _ => { t with total := t.total + 1 }

/-- The most severe finding of a file, if it can be scanned and has one. -/
def score (s : Scorer) (identity : FileIdentity) (content : Bytes) : Run Scoring (Option Finding) := do
  let (outcome, entries) := s.examine identity.path content
  if s.cancelsOn identity.path content then Run.cancel
  Run.logAll entries
  Run.update fun state => { state with tally := outcome.count state.tally }
  match outcome with
  | .unscannable => return none
  | .clean => return none
  | .found f => return some f
  | .failed e => Run.fail e

/-- The finding of a file; a file on which the engine fails is skipped with a warning. -/
def scoreGuarded (s : Scorer) (identity : FileIdentity) (content : Bytes) :
    Run Scoring (Option Finding) := do
  match ← Run.outcome (s.score identity content) with
  | .ok finding => return finding
  | .error .interrupted => Run.fail .interrupted
  | .error e =>
    Run.log .warning ("Error scoring " ++ identity.path ++ ": " ++ e.message)
    Run.update fun state => { state with tally := { state.tally with skipped := state.tally.skipped + 1 } }
    return none

/-! ## Many files -/

/-- Files with their contents; no identity occurs twice. -/
abbrev Snapshot := List (FileIdentity × Bytes)

/-- A finding with its identity, if there is one. -/
def scored (identity : FileIdentity) (finding : Option Finding) : Scores :=
  (finding.map fun f => (identity, f)).toList

/-- Scores files one after the other, with a checkpoint before each. -/
def inTurn (s : Scorer) : Snapshot → Run Scoring Scores
  | [] => return []
  | (identity, content) :: rest => do
    Run.checkpoint "scoring"
    let finding ← s.scoreGuarded identity content
    let more ← s.inTurn rest
    return scored identity finding ++ more

/-- The work of one task of the pool: nothing once the run is cancelled. -/
def task (s : Scorer) (identity : FileIdentity) (content : Bytes) : Run Scoring (Option Finding) := do
  if ← Run.isCancelled then return none else s.scoreGuarded identity content

/-- Runs tasks in an order. -/
def runTasks (s : Scorer) : Snapshot → Run Scoring Scores
  | [] => return []
  | (identity, content) :: rest => do
    let finding ← s.task identity content
    let more ← s.runTasks rest
    return scored identity finding ++ more

/-- What is said of a pool without workers. -/
def noWorkers : Failure := .fault (.other "ValueError" "max_workers must be greater than 0")

/-- Whether a number of workers makes a pool; nothing and zero leave the number to the machine. -/
def makesPool (workers : Value) : Bool :=
  workers.isFalsy || (workers.number?.map fun n => !n.le (.whole 0)).getD true

/-- Scores files with a pool of workers, with a checkpoint at the end. -/
def withPool (s : Scorer) (snapshot : Snapshot) : Run Scoring Scores := do
  if !makesPool s.workers then Run.fail noWorkers
  else
    let results ← s.runTasks snapshot
    Run.checkpoint "scoring"
    return results

/-- The least number of files for which a pool is worth its cost. -/
def poolSize : Nat := 10

/-- A tally in words. -/
def tallyText (t : Tally) : String :=
  "Scored " ++ natText t.total ++ " files: " ++ natText t.scored ++ " disharmonies, " ++ natText t.clean
    ++ " clean, " ++ natText t.skipped ++ " skipped"

/-- Scores in the order of the uids. -/
def byUid (scores : Scores) : Scores := scores.mergeSort fun a b => decide (a.1.uid ≤ b.1.uid)

/-- The findings of files in the order of the uids, after every file was scored or skipped. -/
def scoreAll (s : Scorer) (snapshot : Snapshot) (parallel : Bool) : Run Scoring Scores := do
  let results ← if !parallel || snapshot.length < poolSize then s.inTurn snapshot else s.withPool snapshot
  Run.log .info (tallyText (← Run.state).tally)
  return byUid results

end Scorer

end Hotspots
