import Hotspots.Number.Binary64
import Hotspots.Text.Lines

/-!
# The overlap of two contents

Two contents are compared as multisets of lines. Their similarity is twice the number of lines that
they have in common, divided by the number of lines that they have together; two contents without
lines are equal.
-/

namespace Hotspots.LineOverlap

/-- How many elements two lists have in common, counted with multiplicity. -/
def common {α : Type} [BEq α] : List α → List α → Nat
  | [], _ => 0
  | a :: rest, others =>
    if others.contains a then common rest (others.erase a) + 1 else common rest others

/-- The similarity of two lists of lines. -/
def ofLines (old new : List Bytes) : Binary64 :=
  let total := old.length + new.length
  if total = 0 then Binary64.ofInt 1 else Binary64.ofRatio false (2 * common old new) total

/-- The similarity of two contents. -/
def similarity (old new : Bytes) : Binary64 := ofLines (Lines.lines old) (Lines.lines new)

end Hotspots.LineOverlap
