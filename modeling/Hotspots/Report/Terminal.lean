import Hotspots.Report.Markup
import Hotspots.Report.Table
import Hotspots.Text.CellWidth

/-!
# Text on a terminal

Lines that are too long for a terminal are broken between words, and tabs reach to the next multiple of eight
cells. A table is drawn with lines around its cells: its title is centred above it, a heavy line runs around
the headers, and every cell has a blank on each side.
-/

namespace Hotspots.Terminal

/-- The width of the terminal in cells. -/
def width : Nat := 1000

/-- Blanks. -/
def blanks (n : Nat) : List Char := List.replicate n ' '

/-- A line with tabs replaced by blanks up to the next multiple of eight cells. -/
def expandTabs : Nat → List Char → List Char
  | _, [] => []
  | cell, '\t' :: rest =>
    let reached := cell + 1
    let next := (reached + 7) / 8 * 8
    blanks (next - cell) ++ expandTabs next rest
  | cell, c :: rest => c :: expandTabs (cell + CellWidth.ofChar c) rest

/-- The parts of a line that are kept together: blanks, a word, and the blanks after it. The first list is
the part in progress, in reverse. -/
def partsFrom : List Char → List Char → List (List Char)
  | part, [] => [part.reverse]
  | part, c :: rest =>
    if !Blank.isBlank c && part.head?.any Blank.isBlank && part.any (fun d => !Blank.isBlank d) then
      part.reverse :: partsFrom [c] rest
    else partsFrom (c :: part) rest

/-- Pieces of a word that are at most so many cells wide. The first list is the piece in progress, in
reverse. -/
def chopFrom (limit : Nat) : List Char → List Char → List (List Char)
  | piece, [] => [piece.reverse]
  | piece, c :: rest =>
    if limit < CellWidth.ofChars piece + CellWidth.ofChar c && !piece.isEmpty then
      piece.reverse :: chopFrom limit [c] rest
    else chopFrom limit (c :: piece) rest

/-- How text is broken that is too long: words are folded, or cut with an ellipsis. -/
inductive Overflow where
  | fold
  | ellipsis
  deriving DecidableEq, Repr

/-- Adds parts to broken lines. `line` is the line in progress. -/
def breakParts (limit : Nat) (overflow : Overflow) : List Char → List (List Char) → List (List Char)
  | line, [] => [line]
  | line, part :: rest =>
    let length := CellWidth.ofChars (Blank.trimEnd part)
    if CellWidth.ofChars line + length ≤ limit then breakParts limit overflow (line ++ part) rest
    else if length ≤ limit ∨ overflow = .ellipsis then
      if line.isEmpty then breakParts limit overflow part rest
      else line :: breakParts limit overflow part rest
    else
      let pieces := chopFrom limit [] part
      (if line.isEmpty then [] else [line]) ++ pieces.dropLast
        ++ breakParts limit overflow (pieces.getLastD []) rest

/-- A line without blanks at its end as far as it is too long. -/
def dropExcessBlanks (limit : Nat) (line : List Char) : List Char :=
  let trailing := (line.reverse.takeWhile Blank.isBlank).length
  line.take (line.length - min trailing (line.length - limit))

/-- The start of a line that is at most so many cells wide. -/
def cropTo : Nat → List Char → List Char
  | _, [] => []
  | limit, c :: rest =>
    if CellWidth.ofChar c ≤ limit then c :: cropTo (limit - CellWidth.ofChar c) rest else blanks limit

/-- A line cut to a width. -/
def truncated (limit : Nat) (overflow : Overflow) (line : List Char) : List Char :=
  if CellWidth.ofChars line ≤ limit then line
  else
    match overflow with
    | .fold => cropTo limit line
    | .ellipsis => cropTo (limit - 1) line ++ ['…']

/-- The lines of a text, broken where they are too long. -/
def wrapped (limit : Nat) (overflow : Overflow) (text : List Char) : List (List Char) :=
  (Pieces.splitOn '\n' text).flatMap fun line =>
    ((breakParts limit overflow [] (partsFrom [] (expandTabs 0 line))).map (dropExcessBlanks limit)).map
      (truncated limit overflow)

/-- Marked-up text as it is printed. -/
def printed (s : String) : Except Fault String :=
  (Markup.plain s).map fun text =>
    String.ofList (['\n'].intercalate (wrapped width .fold text.toList) ++ ['\n'])

/-! ## Tables -/

/-- On which side of a column its cells stand. -/
inductive Side where
  | left
  | right
  deriving DecidableEq, Repr

/-- The sides of the columns of the work-list. -/
def sides : List Side := [.right, .left, .right, .right, .left]

/-- Whether a character ends a line when the width of a cell is measured. -/
def endsMeasuredLine (c : Char) : Bool :=
  (10 ≤ c.toNat && c.toNat ≤ 13) || (0x1C ≤ c.toNat && c.toNat ≤ 0x1E) || c.toNat = 0x85
    || c.toNat = 0x2028 || c.toNat = 0x2029

/-- The width of the widest line of a text, with the cells of the line in progress. -/
def measureFrom : Nat → List Char → Nat
  | cells, [] => cells
  | cells, c :: rest =>
    if endsMeasuredLine c then max cells (measureFrom 0 rest)
    else measureFrom (cells + CellWidth.ofChar c) rest

/-- The width of the widest line of a text. -/
def measure (cell : String) : Nat := measureFrom 0 cell.toList

/-- A line filled with blanks to a width. -/
def padded (side : Side) (limit : Nat) (line : List Char) : List Char :=
  match side with
  | .left => line ++ blanks (limit - CellWidth.ofChars line)
  | .right =>
    let shown := Blank.trimEnd line
    blanks (limit - CellWidth.ofChars shown) ++ shown

/-- The lines of a cell, all of the same width. -/
def cellLines (side : Side) (limit : Nat) (cell : String) : List (List Char) :=
  (wrapped limit .ellipsis cell.toList).map (padded side limit)

/-- Cells between vertical lines. -/
def joined (outer inner : Char) (cells : List (List Char)) : List Char :=
  let spaced := cells.map fun c => ' ' :: c ++ [' ']
  outer :: [inner].intercalate spaced ++ [outer]

/-- The lines of a row; cells with fewer lines are filled with blanks at the bottom. -/
def rowLines (outer inner : Char) (widths : List Nat) (row : List String) : List (List Char) :=
  let cells := List.zipWith (fun (side, limit) cell => cellLines side limit cell) (sides.zip widths) row
  let height := (cells.map List.length).foldl max 1
  (List.range height).map fun n =>
    joined outer inner (List.zipWith (fun limit lines => lines.getD n (blanks limit)) widths cells)

/-- A horizontal line. -/
def rule (first line cross last : Char) (widths : List Nat) : List Char :=
  first :: [cross].intercalate (widths.map fun w => List.replicate (w + 2) line) ++ [last]

/-- A text in the middle of a width. -/
def centred (limit : Nat) (text : List Char) : List Char :=
  let left := (limit - CellWidth.ofChars text) / 2
  blanks left ++ text ++ blanks (limit - CellWidth.ofChars text - left)

/-- The widths of the columns: each holds its header and its cells. -/
def columnWidths (headers : List String) (rows : List (List String)) : List Nat :=
  headers.zipIdx.map fun (header, n) => (rows.map fun r => measure (r.getD n "")).foldl max (measure header)

/-- The lines of a table of plain texts. -/
def tableLines (t : TextTable) : List (List Char) :=
  let widths := columnWidths t.headers t.rows
  let total := (widths.map (· + 3)).foldr (· + ·) 1
  [centred total t.title.toList, rule '┏' '━' '┳' '┓' widths] ++ rowLines '┃' '┃' widths t.headers
    ++ [rule '┡' '━' '╇' '┩' widths] ++ t.rows.flatMap (rowLines '│' '│' widths)
    ++ [rule '└' '─' '┴' '┘' widths]

/-- A table of marked-up texts as it is printed. -/
def table (t : TextTable) : Except Fault String := do
  let rows ← t.rows.mapM fun r => r.mapM Markup.plain
  return String.ofList ((tableLines { t with rows := rows }).flatMap fun line => line ++ ['\n'])

end Hotspots.Terminal
