import Hotspots.Ranking.Worklist

/-!
# The work-list as comma-separated values

A record has its fields between commas and ends with a line feed. A field that holds a comma, a double quote
or a line break is written between double quotes, and a double quote in it twice. Writers disagree on carriage
returns: to older ones only what ends their records is a line break.
-/

namespace Hotspots.Csv

/-- What a writer takes for a line break in a field. -/
inductive Quoting where
  /-- A line feed, with which the writer ends its records: the rule of older writers. -/
  | recordEnd
  /-- A line feed or a carriage return, whatever ends a record: the rule of newer writers. -/
  | lineBreaks
  deriving DecidableEq, Repr

/-- Whether a field with this character is written between quotes. -/
def needsQuotes (quoting : Quoting) (c : Char) : Bool :=
  c == ',' || c == '"' || c == '\n' || (quoting == .lineBreaks && c == '\r')

/-- One character between quotes. -/
def quotedChar (c : Char) : List Char := if c == '"' then ['"', '"'] else [c]

/-- A field. -/
def field (quoting : Quoting) (cs : List Char) : List Char :=
  if cs.any (needsQuotes quoting) then '"' :: cs.flatMap quotedChar ++ ['"'] else cs

/-- A record of at least two fields. -/
def record (quoting : Quoting) (fields : List (List Char)) : List Char :=
  [','].intercalate (fields.map (field quoting)) ++ ['\n']

/-- The names of the columns. -/
def columns : List String :=
  ["priority", "path", "change_count", "score", "rule", "subject", "change_rank", "disharmony_rank",
   "first_modified", "last_modified"]

end Hotspots.Csv

namespace Hotspots

/-- The columns of an entry of the work-list. -/
def WorkItem.columns (i : WorkItem) : List String :=
  [intText i.priority, i.identity.path, intText i.changeCount, i.score.text, i.rule, i.subject,
   intText i.changeRank, intText i.disharmonyRank, intText i.firstModified, intText i.lastModified]

/-- The records of a work-list, with the names of the columns first. -/
def Worklist.csvRecords (items : List WorkItem) : List (List String) :=
  Csv.columns :: items.map WorkItem.columns

/-- A work-list as comma-separated values. -/
def Worklist.csv (items : List WorkItem) (quoting : Csv.Quoting := .recordEnd) : String :=
  String.ofList ((Worklist.csvRecords items).flatMap fun r => Csv.record quoting (r.map String.toList))

end Hotspots
