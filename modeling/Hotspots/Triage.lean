import Hotspots.Config.Settings
import Hotspots.Git.Reader
import Hotspots.History.Walk
import Hotspots.Ranking.Worklist
import Hotspots.Scan.GodClass
import Hotspots.Text.Glob

/-!
# The whole analysis

The history of a revision gives the churn of its files, the contents at its last commit give their scores, and
the two together give the work-list. The phases run one after the other, and all contents are read before the
first file is scored.
-/

namespace Hotspots

/-- An analysis: its settings and the engine that finds disharmonies. -/
structure Triage where
  settings : Settings
  engine : Engine

namespace Triage

/-- A setting as a number; settings that were checked are numbers. -/
def numberOf (v : Value) : Number := v.number?.getD (.whole 0)

/-- The rule for god classes with the thresholds of settings. -/
def godClassOf (s : Settings) : GodClass :=
  { wmcThreshold := numberOf (s .godClassWmcThreshold)
    atfdThreshold := numberOf (s .godClassAtfdThreshold)
    tccThreshold := numberOf (s .godClassTccThreshold) }

/-- An analysis that finds god classes in sources that are read by a parser. -/
def ofSettings (s : Settings) (parse : Source.Parser := Source.parser) : Triage :=
  { settings := s, engine := { godClassOf s with parse := parse }.engine }

/-- The limits of rename detection. -/
def renameLimits (s : Settings) : Renames.Limits :=
  { threshold := numberOf (s .renameThreshold), maxPairs := numberOf (s .renameLimit) }

/-- The weights of the ranks. -/
def weights (s : Settings) : Worklist.Weights :=
  { change := numberOf (s .changeWeight), disharmony := numberOf (s .disharmonyWeight) }

/-! ## Files that are left out -/

/-- Whether one of some patterns stands for a path. -/
def anyMatches (path : String) : List Value → Except Fault Bool
  | [] => .ok false
  | .text pattern :: rest => if Glob.matchesText pattern path then .ok true else anyMatches path rest
  | other :: _ =>
    .error (.other "TypeError" ("expected str, bytes or os.PathLike object, not " ++ other.className))

/-- Whether a path is excluded by patterns. -/
def isExcluded (patterns : Value) (path : String) : Except Fault Bool :=
  match patterns.elements? with
  | some items => anyMatches path items
  | none => .error (.notIterable patterns.kind)

/-- Whether a path is left out: the engine does not understand it, or the patterns of the settings exclude it. -/
def isLeftOut (t : Triage) (path : String) : Except Failure Bool := do
  if ← t.engine.answer path then (isExcluded (t.settings .excludePatterns) path).mapError .fault
  else return true

/-- The paths of identities that are scored: tracked as regular files and not left out. -/
def scorablePaths (t : Triage) (tracked : List (String × String)) :
    List String → Except Failure (List String)
  | [] => .ok []
  | path :: rest =>
    if Record.has path tracked then do
      let leftOut ← t.isLeftOut path
      let more ← t.scorablePaths tracked rest
      return if leftOut then more else path :: more
    else t.scorablePaths tracked rest

/-! ## Phases -/

/-- The churn of a revision, or nothing if there are no commits. -/
def readHistory (t : Triage) (r : Reader) (revision : String) : Talk (Option ChurnHistory) := do
  let commits ← r.commits revision (t.settings .gitMaxCommits)
  match commits.head?, commits.getLast? with
  | some first, some last =>
    let tracked ← if first.isRoot then pure none else some <$> r.listFiles last.sha
    return some (← ChurnHistory.ofCommits (commits.map pure) tracked)
  | _, _ => return none

/-- The identities at paths with their contents. -/
def withContents (live : List (String × FileIdentity)) (contents : List (String × Bytes))
    (paths : List String) : Scorer.Snapshot :=
  paths.filterMap fun path =>
    match Record.get? path live, Record.get? path contents with
    | some identity, some content => some (identity, content)
    | _, _ => none

/-- The contents of the live files that are scored, at the last commit. -/
def readSnapshot (t : Triage) (r : Reader) (churn : ChurnHistory) : Talk Scorer.Snapshot := do
  let live := churn.liveByPath
  let head := churn.head.getD ""
  let tracked ← r.treeEntries head
  let paths ← Run.ofExcept (t.scorablePaths tracked (Reader.sorted (live.map Prod.fst)))
  let contents ← r.snapshot head (some paths)
  Run.log .info ("Read " ++ natText contents.length ++ " files at " ++ head ++ " for scoring")
  return withContents live contents paths

/-- Runs a computation of scoring in a conversation. -/
def scoring {α : Type} (r : Run Scoring α) : Talk α :=
  Run.within (fun c => { session := c.session }) (fun s c => { c with session := s.session }) r

/-- The findings of files. -/
def score (t : Triage) (maxFileSize : Int) (snapshot : Scorer.Snapshot) : Talk Scores :=
  let scorer : Scorer :=
    { engine := t.engine, workers := t.settings .workers, maxFileSize := maxFileSize }
  scoring (scorer.scoreAll snapshot true)

/-- The work-list of churn and findings. -/
def rank (t : Triage) (churn : ChurnHistory) (scores : Scores) : Talk (List WorkItem) :=
  Worklist.rank (churn.records.map fun r => (r.identity, r)) (scores.map fun (i, f) => (i, some f))
    (weights t.settings)

/-- The phases after the history. The reader is closed once everything is read. A reader is also closed if reading
fails, which is left out: that can only put one failure in the place of another. -/
def afterHistory (t : Triage) (r : Reader) (churn : ChurnHistory) : Talk (List WorkItem) := do
  Run.checkpoint "snapshot"
  let snapshot ← Run.phase "snapshot" (t.readSnapshot r churn)
  Reader.close
  let maxFileSize ← Run.ofFault t.settings.maxFileSizeBytes
  let scores ← Run.phase "scoring" (t.score maxFileSize snapshot)
  Run.checkpoint "ranking"
  Run.phase "ranking" (t.rank churn scores)

/-- The work-list of a revision of a repository; empty if there are no commits. -/
def calculate (t : Triage) (repository : Repository) (path revision : String) : Talk (List WorkItem) := do
  let r ← Reader.openAt repository path (t.settings .gitTimeoutSeconds) (renameLimits t.settings)
  match ← Run.phase "history" (t.readHistory r revision) with
  | none => return []
  | some churn => t.afterHistory r churn

end Triage

end Hotspots
