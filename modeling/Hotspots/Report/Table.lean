import Hotspots.Ranking.Worklist
import Hotspots.Text.Blank

/-!
# The work-list as a table

A table has a title, a header for each column, and rows of cells. Only the first entries of a work-list are
shown; a negative limit leaves out that many at the end.
-/

namespace Hotspots

/-- A table of texts. -/
structure TextTable where
  title : String
  headers : List String
  rows : List (List String)
  deriving DecidableEq, Repr

namespace Worklist

/-- The first entries up to a limit, or all but the last ones. -/
def firstItems {α : Type} (top : Int) (items : List α) : List α :=
  if 0 ≤ top then items.take top.toNat else items.take (items.length - top.natAbs)

/-- The cells of an entry. -/
def cells (i : WorkItem) : List String :=
  [intText i.priority, i.identity.path, intText i.changeCount, i.score.fixedText 2,
   Blank.trimText (i.rule ++ " " ++ i.subject)]

/-- The table of a work-list. -/
def table (items : List WorkItem) (top : Int) : TextTable :=
  { title := "Refactoring priorities"
    headers := ["Priority", "File", "Changes", "Score", "Disharmony"]
    rows := (firstItems top items).map cells }

end Worklist

end Hotspots
