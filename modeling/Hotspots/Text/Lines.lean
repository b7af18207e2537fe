import Hotspots.Text.Utf8

/-!
# Lines and words of byte strings

A line ends at a line feed, a carriage return or the pair of both; terminators belong to no line, and
a last line without a terminator counts. Words are the runs of bytes between ASCII blanks.
-/

namespace Hotspots.Lines

/-- The lines of a byte string with a line in progress, in reverse, put in front. -/
def linesFrom : Bytes → Bytes → List Bytes
  | [], [] => []
  | [], line => [line.reverse]
  | 10 :: rest, line => line.reverse :: linesFrom rest []
  | 13 :: 10 :: rest, line => line.reverse :: linesFrom rest []
  | 13 :: rest, line => line.reverse :: linesFrom rest []
  | b :: rest, line => linesFrom rest (b :: line)

/-- The lines of a byte string, without their terminators. -/
def lines (bytes : Bytes) : List Bytes := linesFrom bytes []

/-- Whether a byte separates the words of a byte string. -/
def isBlankByte (b : UInt8) : Bool := (9 ≤ b && b ≤ 13) || b == 32

/-- The words of a byte string with a word in progress, in reverse, put in front. -/
def wordsFrom : Bytes → Bytes → List Bytes
  | [], [] => []
  | [], word => [word.reverse]
  | b :: rest, word =>
    if isBlankByte b then
      (if word.isEmpty then wordsFrom rest [] else word.reverse :: wordsFrom rest [])
    else wordsFrom rest (b :: word)

/-- The runs of bytes between blank bytes. -/
def words (bytes : Bytes) : List Bytes := wordsFrom bytes []

end Hotspots.Lines
