import Hotspots.Failure
import Hotspots.Text.Blank
import Hotspots.Text.DecimalDigit

/-!
# Numbers read from text

A whole number is a sign and decimal digits of any script, a real number may have a point and an
exponent or be one of the names of infinity and not-a-number. Single underscores may stand between
digits, and blanks around the number.
-/

namespace Hotspots.Reading

/-- The most digits that a whole number may have. -/
def maxDigits : Nat := 4300

/-- Whether a character may stand around a number: an ASCII blank or a blank beyond ASCII. -/
def isOuterBlank (c : Char) : Bool :=
  (9 ≤ c.toNat && c.toNat ≤ 13) || c == ' ' || (127 ≤ c.toNat && Blank.isBlank c)

/-- A number without the blanks around it. -/
def inner (cs : List Char) : List Char :=
  ((cs.dropWhile isOuterBlank).reverse.dropWhile isOuterBlank).reverse

/-- The sign in front of a number: whether it is a minus, and what follows it. -/
def sign : List Char → Bool × List Char
  | '-' :: rest => (true, rest)
  | '+' :: rest => (false, rest)
  | cs => (false, cs)

/-- The digits at the start of a text, and what follows; a single underscore may stand between two
digits. `afterDigit` says whether a digit stands in front. -/
def digitsFrom : Bool → List Char → List Nat × List Char
  | true, '_' :: c :: rest =>
    match DecimalDigit.value? c with
    | some d =>
      let (ds, after) := digitsFrom true rest
      (d :: ds, after)
    | none => ([], '_' :: c :: rest)
  | _, c :: rest =>
    match DecimalDigit.value? c with
    | some d =>
      let (ds, after) := digitsFrom true rest
      (d :: ds, after)
    | none => ([], c :: rest)
  | _, [] => ([], [])

/-- The digits at the start of a text, and what follows. -/
def digits (cs : List Char) : List Nat × List Char := digitsFrom false cs

/-- Applies a sign. -/
def signed (negative : Bool) (n : Nat) : Int := if negative then -(n : Int) else n

/-- Reads a whole number; `shown` is how the text is shown if it is none. -/
def whole (shown : String) (cs : List Char) : Except Fault Int :=
  let (negative, body) := sign (inner cs)
  let (ds, after) := digits body
  if maxDigits < ds.length then .error (.tooManyDigits ds.length)
  else if ds.isEmpty || !after.isEmpty then .error (.notWhole shown)
  else .ok (signed negative (ofDigitValues ds))

/-- Reads a whole number from a text. -/
def wholeOfText (s : String) : Except Fault Int := whole (Quoted.text s) s.toList

/-- Whether a text is a word, whatever the case of its ASCII letters. -/
def isWord (word : String) (cs : List Char) : Bool := cs.map Char.toLower == word.toList

/-- The exponent of a real number and nothing after it. -/
def exponent : List Char → Option Int
  | [] => some 0
  | c :: rest =>
    if c == 'e' || c == 'E' then
      let (negative, body) := sign rest
      let (ds, after) := digits body
      if ds.isEmpty || !after.isEmpty then none else some (signed negative (ofDigitValues ds))
    else none

/-- Reads a real number without blanks. -/
def realBody (cs : List Char) : Option Binary64 :=
  let (negative, body) := sign cs
  if isWord "inf" body || isWord "infinity" body then some (.infinite negative)
  else if isWord "nan" body then some .nan
  else
    let (before, rest) := digits body
    let (after, rest) := (match rest with
      | '.' :: rest => digits rest
      | _ => ([], rest))
    if before.isEmpty && after.isEmpty then none
    else (exponent rest).map fun e =>
      Binary64.ofDecimal negative (ofDigitValues (before ++ after)) (e - after.length)

/-- Reads a real number from a text. -/
def realOfText (s : String) : Except Fault Binary64 :=
  match realBody (inner s.toList) with
  | some x => .ok x
  | none => .error (.notReal (Quoted.text s))

end Hotspots.Reading
