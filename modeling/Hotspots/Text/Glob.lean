/-!
# Wildcard patterns

In a pattern a star stands for any characters, a question mark for one, and brackets for one character of
a set, or outside of it after an exclamation mark. Between two characters of a set a hyphen stands for the
range from one to the other; a range that runs backwards holds nothing. All other characters stand for
themselves, and so does an opening bracket that is not closed.
-/

namespace Hotspots.Glob

/-- A set of characters: single ones, and ranges with both ends. -/
structure CharSet where
  negated : Bool := false
  singles : List Char := []
  ranges : List (Char × Char) := []
  deriving DecidableEq, Repr

/-- Whether a set holds a character. -/
def CharSet.holds (s : CharSet) (c : Char) : Bool :=
  (s.singles.contains c || s.ranges.any fun (a, b) => a ≤ c && c ≤ b) != s.negated

/-- One part of a pattern. -/
inductive Token where
  | star
  | any
  | never
  | char (c : Char)
  | set (s : CharSet)
  deriving DecidableEq, Repr

/-- Whether a part that is no star stands for a character. -/
def Token.holds : Token → Char → Bool
  | star, _ => true
  | any, _ => true
  | never, _ => false
  | char a, c => a == c
  | set s, c => s.holds c

/-- Whether parts stand for a text. -/
def matchesTokens : List Token → List Char → Bool
  | [], cs => cs.isEmpty
  | .star :: rest, cs => (List.range (cs.length + 1)).any fun n => matchesTokens rest (cs.drop n)
  | token :: rest, cs =>
    match cs with
    | [] => false
    | c :: more => token.holds c && matchesTokens rest more

/-! ## Sets -/

/-- How many characters at the start of a set cannot close it: an exclamation mark, and a closing bracket
that is the first character or follows the mark. -/
def openingLength : List Char → Nat
  | '!' :: ']' :: _ => 2
  | '!' :: _ => 1
  | ']' :: _ => 1
  | _ => 0

/-- The text in brackets and what follows it. -/
def bracketed? (cs : List Char) : Option (List Char × List Char) :=
  let opening := openingLength cs
  let length := opening + ((cs.drop opening).takeWhile (· != ']')).length
  if length < cs.length then some (cs.take length, cs.drop (length + 1)) else none

/-- The pieces of a set between the hyphens that make ranges. The first `skip` characters of the text make
no range. The fuel bounds the number of pieces. -/
def chunksFrom : Nat → Nat → List Char → List (List Char)
  | 0, _, cs => [cs]
  | fuel + 1, skip, cs =>
    let before := ((cs.drop skip).takeWhile (· != '-')).length + skip
    if before < cs.length then
      cs.take before :: chunksFrom fuel 2 (cs.drop (before + 1))
    else [cs]

/-- A hyphen at the end of a set stands for itself. -/
def closeChunks : List (List Char) → List (List Char)
  | [] => []
  | [chunk] => [chunk]
  | [chunk, []] => [chunk ++ ['-']]
  | chunk :: rest => chunk :: closeChunks rest

/-- Joins the pieces around a range that runs backwards, without its ends; later ranges first. -/
def dropBackward : List (List Char) → List (List Char)
  | [] => []
  | chunk :: rest =>
    match dropBackward rest with
    | [] => [chunk]
    | next :: more =>
      match chunk.getLast?, next.head? with
      | some a, some b =>
        if b < a then (chunk.dropLast ++ next.drop 1) :: more else chunk :: next :: more
      | _, _ => chunk :: next :: more

/-- The pieces of the text of a set. -/
def chunks (cs : List Char) : List (List Char) :=
  if cs.contains '-' then
    let skip := if cs.head? = some '!' then 2 else 1
    dropBackward (closeChunks (chunksFrom cs.length skip cs))
  else [cs]

/-- The ranges between neighbouring pieces. -/
def rangesOf : List (List Char) → List (Char × Char)
  | chunk :: next :: rest =>
    match chunk.getLast?, next.head? with
    | some a, some b => (a, b) :: rangesOf (next :: rest)
    | _, _ => rangesOf (next :: rest)
  | _ => []

/-- The set that pieces describe. -/
def setOfChunks (negated : Bool) (pieces : List (List Char)) : CharSet :=
  { negated := negated, singles := pieces.flatten, ranges := rangesOf pieces }

/-- The part of a pattern that the text of a set stands for. -/
def tokenOfSet (cs : List Char) : Token :=
  match chunks cs with
  | [] => .never
  | [[]] => .never
  | [['!']] => .any
  | ('!' :: chunk) :: rest => .set (setOfChunks true (chunk :: rest))
  | pieces => .set (setOfChunks false pieces)

/-! ## Patterns -/

/-- A text in brackets leaves less than it was given. -/
theorem bracketed?_length {cs inside rest : List Char} (h : bracketed? cs = some (inside, rest)) :
    rest.length < cs.length := by
  unfold bracketed? at h
  dsimp only at h
  split at h
  · injection h with h
    injection h with _ h
    rw [← h, List.length_drop]
    omega
  · cases h

/-- The parts of a pattern. -/
def tokens (cs : List Char) : List Token :=
  match cs with
  | [] => []
  | '*' :: rest => .star :: tokens rest
  | '?' :: rest => .any :: tokens rest
  | '[' :: rest =>
    match h : bracketed? rest with
    | none => .char '[' :: tokens rest
    | some (inside, after) =>
      have : after.length < rest.length := bracketed?_length h
      tokenOfSet inside :: tokens after
  | c :: rest => .char c :: tokens rest
termination_by cs.length

/-- Whether a pattern stands for a text. -/
def matchesText (pattern text : String) : Bool := matchesTokens (tokens pattern.toList) text.toList

end Hotspots.Glob
