import Hotspots.Scan.ClassMetrics
import Hotspots.Scan.Finding
import Hotspots.Source.Parse
import Hotspots.Text.PathName

/-!
# God classes

A class that centralizes too much logic has a weighted method count at its threshold or above, reads
more foreign data than its threshold, and coheres less than its threshold. Its score adds up how far it
is out on each of the three measures.
-/

namespace Hotspots

/-- The thresholds of the rule, the suffixes of the files it applies to, and the parser of their sources. -/
structure GodClass where
  wmcThreshold : Number := .whole 47
  atfdThreshold : Number := .whole 5
  tccThreshold : Number := .real (Binary64.ofRatio false 1 3)
  extensions : List String := [".py", ".pyi"]
  parse : Source.Parser := Source.parser

namespace Number

/-- A number as a real number; an integer out of range does not convert. -/
def toReal : Number → Except Fault Binary64
  | .real x => .ok x
  | .whole i =>
    let x := Binary64.ofInt i
    if x.isFinite then .ok x else .error .wholeTooLarge

/-- The real quotient of two numbers. That of two integers is rounded once, from the exact value. -/
def quotient (a b : Number) : Except Fault Binary64 :=
  match a, b with
  | .whole i, .whole j =>
    if j = 0 then .error .wholeByZero
    else
      let x := Binary64.ofIntQuotient i j
      if x.isFinite then .ok x else .error .quotientTooLarge
  | _, _ => do
    let x ← a.toReal
    let y ← b.toReal
    if y.isZero then .error .realByZero else .ok (x.div y)

end Number

namespace GodClass

/-- The name of the rule. -/
def rule : String := "GodClass"

/-- Whether the measures of a class are out on all three thresholds. -/
def flags (g : GodClass) (m : ClassMetrics) : Bool :=
  g.wmcThreshold.le (.whole m.wmc) && g.atfdThreshold.lt (.whole m.atfd)
    && (Number.real m.tcc).lt g.tccThreshold

/-- The threshold that foreign data is divided by: at least one. -/
def atfdUnit (g : GodClass) : Number :=
  if g.atfdThreshold.lt (.whole 1) then .whole 1 else g.atfdThreshold

/-- How far a class is out, before rounding. -/
def rawScore (g : GodClass) (m : ClassMetrics) : Except Fault Binary64 := do
  let weight ← (Number.whole m.wmc).quotient g.wmcThreshold
  let foreign ← (Number.whole m.atfd).quotient g.atfdUnit
  let limit ← g.tccThreshold.toReal
  let looseness ← (Number.real (limit.sub m.tcc)).quotient g.tccThreshold
  return (weight.add foreign).add looseness

/-- The finding for a class that the rule flags; scores and cohesions have four places. -/
def evaluate (g : GodClass) (m : ClassMetrics) : Except Fault (Option Finding) :=
  if g.flags m then do
    let score ← g.rawScore m
    return some
      { rule := rule
        score := score.toPlaces 4
        subject := m.name
        line := m.line
        metrics := [("wmc", .int m.wmc), ("atfd", .int m.atfd), ("tcc", .float (m.tcc.toPlaces 4)),
          ("methods", .int m.methodCount)] }
  else .ok none

/-- Whether a finding may stand in front of another: the higher score first, then the earlier line,
then the smaller name. -/
def precedes (a b : Finding) : Bool :=
  if a.score.eq b.score then a.line < b.line || (a.line == b.line && a.subject ≤ b.subject)
  else !(a.score.lt b.score)

/-- The findings of a syntax tree, most severe first. -/
def findings (g : GodClass) (t : Source.Tree) : Except Fault (List Finding) := do
  let found ← (ClassMetrics.ofTree (ClassMetrics.importedNames t) t).mapM g.evaluate
  return (found.filterMap id).mergeSort precedes

/-- The failure of analyzing a source text that has no tree. -/
def unparsed (path : String) : Source.Unparsed → Failure
  | .malformed => .triage (.parsing (.text path) (.text "python") .null)
  | .tooHigh words => .fault (.stackEnded words)
  | .tooLarge => .fault .outOfMemory

/-- The findings of a source text, or why there are none. -/
def analyze (g : GodClass) (path source : String) : Except Failure (List Finding) :=
  match g.parse source with
  | .error reason => .error (unparsed path reason)
  | .ok tree => (g.findings tree).mapError .fault

/-- Whether the rule applies to files with the suffix of a path. -/
def supports (g : GodClass) (path : String) : Bool := g.extensions.contains (PathName.suffix path)

/-- The rule as an engine. -/
def engine (g : GodClass) : Engine := { supports := g.supports, analyze := g.analyze }

end GodClass

end Hotspots
