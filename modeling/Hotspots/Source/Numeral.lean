import Hotspots.Source.Token

/-!
# Number literals

A number is a hexadecimal, octal or binary integer, or a decimal with an optional fraction, exponent
and imaginary mark. Digits may be grouped by single underscores. A number may run straight into a
keyword that can follow a value, and into no other word.
-/

namespace Hotspots.Source.Numeral

/-- A character that can stand in a word, before non-ASCII words are checked. -/
def isWordChar (c : Char) : Bool := c.isAlphanum || c == '_' || 128 ≤ c.toNat

/-- Whether what follows a number may follow it without a blank. -/
def mayFollow : List Char → Bool
  | 'a' :: 'n' :: 'd' :: _ => true
  | 'e' :: 'l' :: 's' :: 'e' :: _ => true
  | 'f' :: 'o' :: 'r' :: _ => true
  | 'i' :: 'f' :: _ => true
  | 'i' :: 'n' :: _ => true
  | 'i' :: 's' :: _ => true
  | 'n' :: 'o' :: 't' :: _ => true
  | 'o' :: 'r' :: _ => true
  | c :: _ => !isWordChar c
  | [] => true

/-- What follows a run of digits; an underscore must stand between two digits. -/
def afterDigits (isDigit : Char → Bool) : List Char → Option (List Char)
  | '_' :: c :: rest => if isDigit c then afterDigits isDigit rest else none
  | ['_'] => none
  | c :: rest => if isDigit c then afterDigits isDigit rest else some (c :: rest)
  | [] => some []

/-- What follows the digits after a radix mark: an optional underscore, then at least one digit. -/
def afterRadix (isDigit : Char → Bool) (cs : List Char) : Option (List Char) :=
  match (match cs with | '_' :: rest => rest | _ => cs) with
  | c :: rest => if isDigit c then afterDigits isDigit rest else none
  | [] => none

/-- A number is over: the literal, provided that what follows may follow. -/
def finish (kind : NumberKind) (rest : List Char) : Option (NumberKind × List Char) :=
  if mayFollow rest then some (kind, rest) else none

/-- An imaginary mark, or the end of the number. -/
def afterExponent : List Char → Option (NumberKind × List Char)
  | c :: rest => if c == 'j' || c == 'J' then finish .imaginary rest else finish .real (c :: rest)
  | [] => some (.real, [])

/-- An exponent if there is one. A mark without digits is no exponent, and what it begins must be a
word that may follow. -/
def afterFraction : List Char → Option (NumberKind × List Char)
  | c :: rest =>
    if c == 'e' || c == 'E' then
      match rest with
      | s :: d :: rest' =>
        if s == '+' || s == '-' then
          (if d.isDigit then (afterDigits Char.isDigit rest').bind afterExponent else none)
        else if s.isDigit then (afterDigits Char.isDigit (d :: rest')).bind afterExponent
        else finish .real (c :: rest)
      | [s] =>
        if s.isDigit then some (.real, [])
        else if s == '+' || s == '-' then none
        else finish .real (c :: rest)
      | [] => finish .real [c]
    else afterExponent (c :: rest)
  | [] => some (.real, [])

/-- The digits of a fraction, after the point. -/
def afterPoint : List Char → Option (NumberKind × List Char)
  | c :: rest =>
    if c.isDigit then (afterDigits Char.isDigit rest).bind afterFraction else afterFraction (c :: rest)
  | [] => some (.real, [])

/-- Whether a number goes on after its integer part. -/
def continues : List Char → Bool
  | c :: _ => c == '.' || c == 'e' || c == 'E' || c == 'j' || c == 'J'
  | [] => false

/-- The rest of a number after its integer part. -/
def afterInteger : List Char → Option (NumberKind × List Char)
  | '.' :: rest => afterPoint rest
  | cs => afterFraction cs

/-- What follows a run of zeros, grouped by single underscores. -/
def afterZeros : List Char → Option (List Char)
  | '_' :: c :: rest => if c == '0' then afterZeros rest else if c.isDigit then some (c :: rest) else none
  | ['_'] => none
  | '0' :: rest => afterZeros rest
  | cs => some cs

/-- The most digits that a decimal integer may have. -/
def maxDigits : Nat := 4300

/-- The digits of a decimal integer in front of what follows it. -/
def digitCount (cs rest : List Char) : Nat :=
  ((cs.take (cs.length - rest.length)).filter Char.isDigit).length

/-- Reads the number literal at the start of a text that begins with a digit. -/
def ofDigits : List Char → Option (NumberKind × List Char)
  | '0' :: rest =>
    match rest with
    | c :: rest' =>
      if c == 'x' || c == 'X' then
        (afterRadix (fun d => d.isDigit || ('a' ≤ d && d ≤ 'f') || ('A' ≤ d && d ≤ 'F')) rest').bind
          (finish .real)
      else if c == 'o' || c == 'O' then
        (afterRadix (fun d => '0' ≤ d && d ≤ '7') rest').bind fun r =>
          if (r.head?.map Char.isDigit).getD false then none else finish .real r
      else if c == 'b' || c == 'B' then
        (afterRadix (fun d => d == '0' || d == '1') rest').bind fun r =>
          if (r.head?.map Char.isDigit).getD false then none else finish .real r
      else
        (afterZeros rest).bind fun r =>
          if (r.head?.map Char.isDigit).getD false then
            (afterDigits Char.isDigit r).bind fun r' => if continues r' then afterInteger r' else none
          else afterInteger r
    | [] => some (.real, [])
  | cs =>
    (afterDigits Char.isDigit cs).bind fun rest =>
      if !continues rest && maxDigits < digitCount cs rest then none else afterInteger rest

end Hotspots.Source.Numeral
