/-!
# Blank characters

The characters that separate words and are trimmed from both ends of a text: the ASCII ones with the
information separators, the next-line control, and the space separators of the standard.
-/

namespace Hotspots.Blank

/-- Whether a character is blank. -/
def isBlank (c : Char) : Bool :=
  let n := c.toNat
  (9 ≤ n && n ≤ 13) || (0x1C ≤ n && n ≤ 0x20) || n == 0x85 || n == 0xA0 || n == 0x1680
    || (0x2000 ≤ n && n ≤ 0x200A) || n == 0x2028 || n == 0x2029 || n == 0x202F || n == 0x205F
    || n == 0x3000

/-- A text without the blanks at its start. -/
def trimStart (cs : List Char) : List Char := cs.dropWhile isBlank

/-- A text without the blanks at its end. -/
def trimEnd (cs : List Char) : List Char := (cs.reverse.dropWhile isBlank).reverse

/-- A text without the blanks at either end. -/
def trim (cs : List Char) : List Char := trimEnd (trimStart cs)

/-- A string without the blanks at either end. -/
def trimText (s : String) : String := String.ofList (trim s.toList)

/-- The words of a text with a word in progress, in reverse, put in front. -/
def wordsFrom : List Char → List Char → List (List Char)
  | [], [] => []
  | [], word => [word.reverse]
  | c :: rest, word =>
    if isBlank c then
      (if word.isEmpty then wordsFrom rest [] else word.reverse :: wordsFrom rest [])
    else wordsFrom rest (c :: word)

/-- The runs of characters between blanks. -/
def words (s : String) : List String := (wordsFrom s.toList []).map String.ofList

end Hotspots.Blank
