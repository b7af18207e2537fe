import Hotspots.Text.Printable
import Hotspots.Text.Utf8

/-!
# Quoted text

A text is shown between apostrophes, or between double quotes if it holds an apostrophe and no double
quote. The backslash, the quote in use and characters that are not printable are escaped, the latter
with the shortest of the two-, four- and eight-digit forms. A byte string is shown the same way with a
mark in front and every byte outside printable ASCII escaped.
-/

namespace Hotspots.Quoted

/-- Lower-case hexadecimal digits of a number, padded with zeros to a width. -/
def hexPadded : Nat → Nat → List Char
  | 0, _ => []
  | width + 1, n => hexPadded width (n / 16) ++ [Utf8.hexDigit (n % 16)]

/-- The quote to write around characters. -/
def quoteFor (cs : List Char) : Char :=
  if cs.contains '\'' && !cs.contains '"' then '"' else '\''

/-- One character of a quoted text. -/
def escapeChar (quote c : Char) : List Char :=
  if c == quote || c == '\\' then ['\\', c]
  else if c == '\n' then ['\\', 'n']
  else if c == '\r' then ['\\', 'r']
  else if c == '\t' then ['\\', 't']
  else if Printable.isPrintable c then [c]
  else if c.toNat < 0x100 then '\\' :: 'x' :: hexPadded 2 c.toNat
  else if c.toNat < 0x10000 then '\\' :: 'u' :: hexPadded 4 c.toNat
  else '\\' :: 'U' :: hexPadded 8 c.toNat

/-- A text between quotes. -/
def text (s : String) : String :=
  let quote := quoteFor s.toList
  String.ofList (quote :: (s.toList.flatMap (escapeChar quote)) ++ [quote])

/-- One byte of a quoted byte string. -/
def escapeByte (quote : Char) (b : UInt8) : List Char :=
  let c := Char.ofNat b.toNat
  if c == quote || c == '\\' then ['\\', c]
  else if c == '\n' then ['\\', 'n']
  else if c == '\r' then ['\\', 'r']
  else if c == '\t' then ['\\', 't']
  else if 32 ≤ b && b < 127 then [c]
  else '\\' :: 'x' :: hexPadded 2 b.toNat

/-- A byte string between quotes, with a mark in front. -/
def bytes (bs : Bytes) : String :=
  let quote := quoteFor (bs.map fun b => Char.ofNat b.toNat)
  String.ofList ('b' :: quote :: (bs.flatMap (escapeByte quote)) ++ [quote])

end Hotspots.Quoted
