import Hotspots.Ranking.Worklist

/-!
# The work-list as JSON

Entries are objects with their fields in a fixed order, and every level is indented by two blanks. Texts are
written in ASCII: other characters are escaped, those beyond the first plane as a pair of surrogates.
-/

namespace Hotspots.Json

/-- An escaped unit of 16 bits. -/
def escapeUnit (n : Nat) : List Char := '\\' :: 'u' :: Quoted.hexPadded 4 n

/-- One character of a text. -/
def escapeChar (c : Char) : List Char :=
  if c == '"' || c == '\\' then ['\\', c]
  else if c == '\n' then ['\\', 'n']
  else if c == '\r' then ['\\', 'r']
  else if c == '\t' then ['\\', 't']
  else if c.toNat = 8 then ['\\', 'b']
  else if c.toNat = 12 then ['\\', 'f']
  else if 32 ≤ c.toNat ∧ c.toNat < 127 then [c]
  else if c.toNat < 0x10000 then escapeUnit c.toNat
  else
    let offset := c.toNat - 0x10000
    escapeUnit (0xD800 + offset / 0x400) ++ escapeUnit (0xDC00 + offset % 0x400)

/-- A text between double quotes. -/
def text (s : String) : String := String.ofList ('"' :: s.toList.flatMap escapeChar ++ ['"'])

/-- A real number. -/
def real : Binary64 → String
  | .nan => "NaN"
  | .infinite s => if s then "-Infinity" else "Infinity"
  | x => x.text

/-- A new line at a depth. -/
def newLine (depth : Nat) : String := String.ofList ('\n' :: List.replicate (2 * depth) ' ')

/-- Written parts, one to a line, between two marks. -/
def enclosed (opening closing : String) (depth : Nat) (parts : List String) : String :=
  if parts.isEmpty then opening ++ closing
  else
    opening ++ newLine (depth + 1) ++ ("," ++ newLine (depth + 1)).intercalate parts ++ newLine depth ++ closing

mutual

/-- A value at a depth; dates and times are written as texts. -/
def value (depth : Nat) : Value → String
  | .null => "null"
  | .bool b => if b then "true" else "false"
  | .int i => intText i
  | .float x => real x
  | .text s => text s
  | .list items => enclosed "[" "]" depth (values (depth + 1) items)
  | .tuple items => enclosed "[" "]" depth (values (depth + 1) items)
  | .table entries => enclosed "\x7b" "\x7d" depth (fields (depth + 1) entries)
  | .moment m => text m.text

/-- Values at a depth. -/
def values (depth : Nat) : List Value → List String
  | [] => []
  | v :: rest => value depth v :: values depth rest

/-- The fields of an object at a depth. -/
def fields (depth : Nat) : List (String × Value) → List String
  | [] => []
  | (k, v) :: rest => (text k ++ ": " ++ value depth v) :: fields depth rest

end

end Hotspots.Json

namespace Hotspots

/-- The fields of an entry of the work-list, in order. -/
def WorkItem.fields (i : WorkItem) : List (String × Value) :=
  [("path", .text i.identity.path),
   ("previous_paths", .list (i.identity.previousPaths.map .text)),
   ("priority", .int i.priority),
   ("change_count", .int i.changeCount),
   ("score", .float i.score),
   ("rule", .text i.rule),
   ("subject", .text i.subject),
   ("change_rank", .int i.changeRank),
   ("disharmony_rank", .int i.disharmonyRank),
   ("first_modified", .int i.firstModified),
   ("last_modified", .int i.lastModified),
   ("metrics", .table i.metrics)]

/-- A work-list as JSON. -/
def Worklist.json (items : List WorkItem) : String :=
  Json.value 0 (.list (items.map fun i => .table i.fields))

end Hotspots
