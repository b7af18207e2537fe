import Hotspots.Record
import Hotspots.Session

/-!
# Findings and the engines that make them

A finding is one structural smell of a file; a larger score means less healthy. An engine says which
paths it understands and which findings a source text has.
-/

namespace Hotspots

/-- One structural smell of a file. -/
structure Finding where
  rule : String
  score : Binary64
  subject : String
  line : Int
  /-- The measurements the rule was evaluated on. -/
  metrics : List (String × Value)
  deriving Repr

/-- A detector of structural smells. -/
structure Engine where
  /-- Whether a path is in a language that the engine understands. -/
  supports : String → Bool
  /-- The findings of a source text, most severe first. -/
  analyze : String → String → Except Failure (List Finding)
  /-- Whether the run is cancelled while a path is analyzed. -/
  cancels : String → Bool := fun _ => false
  /-- How the engine fails when it is asked about a path, if it does. -/
  failure? : String → Option Failure := fun _ => none

/-- Whether an engine understands a path, unless it fails on the question. -/
def Engine.answer (e : Engine) (path : String) : Except Failure Bool :=
  match e.failure? path with
  | some f => .error f
  | none => .ok (e.supports path)

/-- What an engine does with one path: it fails or has findings. -/
abbrev Verdicts := List (String × Except Failure (List Finding))

/-- An engine for paths with a suffix that knows its findings beforehand, and finds nothing on other paths. The
run is cancelled on one path, if one is given. -/
def Engine.ofTable (suffix : String) (verdicts : Verdicts) (cancelOn : Option String) : Engine :=
  { supports := fun path => path.endsWith suffix
    analyze := fun path _ => (Record.get? path verdicts).getD (.ok [])
    cancels := fun path => cancelOn == some path }

end Hotspots
