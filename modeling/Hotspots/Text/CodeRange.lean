import Hotspots.Text.Pieces

/-!
# Sets of code points as ascending ranges

A property of characters is kept as the ranges of code points that have it, written in hexadecimal:
`"41-5A 5F 61-7A"`. `ofText` reads such a table and `covers` looks a code point up.
-/

namespace Hotspots.CodeRange

/-- The value of a hexadecimal digit. -/
def hexDigit? (c : Char) : Option Nat :=
  if '0' ≤ c ∧ c ≤ '9' then some (c.toNat - '0'.toNat)
  else if 'a' ≤ c ∧ c ≤ 'f' then some (c.toNat - 'a'.toNat + 10)
  else if 'A' ≤ c ∧ c ≤ 'F' then some (c.toNat - 'A'.toNat + 10)
  else none

/-- The number that hexadecimal digits spell; other characters are passed over. -/
def ofHex (digits : List Char) : Nat :=
  digits.foldl (fun n c => match hexDigit? c with
    | some d => n * 16 + d
    | none => n) 0

/-- One range: `first-last`, or a single code point. -/
def ofPiece (piece : List Char) : Nat × Nat :=
  match Pieces.splitOn '-' piece with
  | [first, last] => (ofHex first, ofHex last)
  | _ => (ofHex piece, ofHex piece)

/-- Reads a table of ranges separated by blanks. -/
def ofText (table : String) : Array (Nat × Nat) :=
  (((Pieces.splitOn ' ' table.toList).filter (!·.isEmpty)).map ofPiece).toArray

/-- Whether a code point lies in one of the ranges. -/
def covers (ranges : Array (Nat × Nat)) (code : Nat) : Bool :=
  ranges.any fun (first, last) => first ≤ code && code ≤ last

end Hotspots.CodeRange
