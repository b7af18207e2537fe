import Hotspots.Number.Binary64

/-!
# Decimal text of binary values

`Binary64.shortest` finds the fewest decimal digits that read back as the same value, and of those
the nearest to it. `Binary64.text` lays them out, `Binary64.fixedText` writes a set number of
places, `Binary64.toPlaces` rounds a value to decimal places, and `Binary64.ofDecimal` reads a
decimal back, rounding once.
-/

namespace Hotspots

/-- The decimal digits of a natural number, most significant first. -/
def natText (n : Nat) : String := String.ofList (Nat.toDigits 10 n)

/-- An integer in decimal, a negative one after a minus sign. -/
def intText (i : Int) : String :=
  if i < 0 then "-" ++ natText i.natAbs else natText i.natAbs

/-- The natural number that a list of decimal digit values spells, most significant first. -/
def ofDigitValues (digits : List Nat) : Nat :=
  digits.foldl (fun n d => n * 10 + d) 0

/-- A positive decimal number `digits · 10 ^ exponent`. -/
structure Decimal where
  digits : Nat
  exponent : Int
  deriving DecidableEq, Repr

namespace Decimal

/-- The power of ten of a possibly negative exponent, as a numerator and a denominator. -/
def powerOfTen (e : Int) : Nat × Nat := (Nat.pow 10 e.toNat, Nat.pow 10 (-e).toNat)

/-- The least `k` with the ratio below `10 ^ k`, searched upward from an estimate that is too low. -/
def scaleFrom : Nat → Int → Nat → Nat → Int
  | 0, k, _, _ => k
  | fuel + 1, k, num, den =>
    let (up, down) := powerOfTen k
    if num * down < den * up then k else scaleFrom fuel (k + 1) num den

/-- The least `k` with the positive ratio `num / den` below `10 ^ k`. -/
def scale (num den : Nat) : Int :=
  let bits : Int := (num.log2 : Int) - den.log2 - 1
  scaleFrom 5 (bits * 30103 / 100000 - 1) num den

/-- Trailing zeros of the digits moved into the exponent. -/
def stripZeros : Nat → Decimal → Decimal
  | 0, d => d
  | fuel + 1, d =>
    if d.digits % 10 = 0 ∧ d.digits ≠ 0 then stripZeros fuel ⟨d.digits / 10, d.exponent + 1⟩ else d

end Decimal

namespace Binary64

/-- The decimals that round to a value of this many units, as bounds in quarter units, and whether
the bounds themselves do. -/
structure Interval where
  low : Nat
  high : Nat
  closed : Bool

/-- The rounding interval of a finite value: halfway to either neighbour. -/
def interval (units : Nat) : Interval :=
  let step := Nat.pow 2 (spareBits units)
  let narrow := units == Nat.pow 2 units.log2 && spareBits units != 0
  { low := 4 * units - (if narrow then step else 2 * step)
    high := 4 * units + 2 * step
    closed := (units / step) % 2 == 0 }

/-- Whether a decimal lies among the reals that round to the value. -/
def Interval.holds (i : Interval) (d : Decimal) : Bool :=
  let (up, down) := Decimal.powerOfTen d.exponent
  let point := 4 * d.digits * up * one
  let low := i.low * down
  let high := i.high * down
  if i.closed then low ≤ point && point ≤ high else low < point && point < high

/-- The decimal with the given digit count nearest to the value, among those that read back. -/
def atDigits (units : Nat) (scale : Int) (count : Nat) : Option Decimal :=
  let exponent := scale - count
  let (up, down) := Decimal.powerOfTen exponent
  let below := units * down / (one * up)
  let lower : Decimal := ⟨below, exponent⟩
  let upper : Decimal := ⟨below + 1, exponent⟩
  let within := interval units
  match within.holds lower, within.holds upper with
  | true, true =>
    let twice := 2 * units * down
    let middle := (2 * below + 1) * one * up
    if twice < middle then some lower
    else if middle < twice then some upper
    else some (if below % 2 = 0 then lower else upper)
  | true, false => some lower
  | false, true => some upper
  | false, false => none

/-- The fewest decimal digits that read back as a positive value, the nearest ones of these. -/
def shortest (units : Nat) : Decimal :=
  let scale := Decimal.scale units one
  let found := (List.range 17).findSome? fun n => atDigits units scale (n + 1)
  (found.getD ⟨units * Nat.pow 5 unitExponent, -(unitExponent : Int)⟩).stripZeros 1100

/-- Digits laid out without an exponent, with at least one digit on each side of the point. -/
def positional (digits : String) (exponent : Int) : String :=
  let count : Int := digits.length
  let point := count + exponent
  if 0 ≤ exponent then digits ++ String.ofList (List.replicate exponent.toNat '0') ++ ".0"
  else if 0 < point then
    String.ofList (digits.toList.take point.toNat) ++ "." ++ String.ofList (digits.toList.drop point.toNat)
  else "0." ++ String.ofList (List.replicate (-point).toNat '0') ++ digits

/-- Digits laid out with one digit before the point and a signed exponent of two digits or more. -/
def scientific (digits : String) (exponent : Int) : String :=
  let power := (digits.length : Int) + exponent - 1
  let head := String.ofList (digits.toList.take 1)
  let tail := String.ofList (digits.toList.drop 1)
  let size := natText power.natAbs
  head ++ (if tail.isEmpty then "" else "." ++ tail) ++ (if power < 0 then "e-" else "e+")
    ++ (if size.length < 2 then "0" ++ size else size)

/-- The magnitude of a finite value: positional from 10⁻⁴ to below 10¹⁶, else with an exponent. -/
def magnitudeText (units : Nat) : String :=
  if units = 0 then "0.0"
  else
    let d := shortest units
    let digits := natText d.digits
    let power := (digits.length : Int) + d.exponent - 1
    if -4 ≤ power ∧ power < 16 then positional digits d.exponent else scientific digits d.exponent

/-- A value with the fewest digits that identify it. -/
def text : Binary64 → String
  | .nan => "nan"
  | .infinite s => if s then "-inf" else "inf"
  | .finite s u => (if s then "-" else "") ++ magnitudeText u

/-- A natural number padded with zeros on the left to a width. -/
def zeroPadded (width n : Nat) : String :=
  let digits := natText n
  String.ofList (List.replicate (width - digits.length) '0') ++ digits

/-- A value with a set number of decimal places, the exact value rounded with ties to even. -/
def fixedText (places : Nat) : Binary64 → String
  | .nan => "nan"
  | .infinite s => if s then "-inf" else "inf"
  | .finite s u =>
    let shift := Nat.pow 10 places
    let scaled := divToEven (u * shift) one
    (if s then "-" else "") ++ natText (scaled / shift)
      ++ (if places = 0 then "" else "." ++ zeroPadded places (scaled % shift))

/-- The value nearest to the exact value rounded to decimal places with ties to even. -/
def toPlaces (places : Nat) : Binary64 → Binary64
  | .finite s u => ofRatio s (divToEven (u * Nat.pow 10 places) one) (Nat.pow 10 places)
  | other => other

/-- The value nearest to `digits · 10 ^ exponent`; exponents far out of range are not expanded. -/
def ofDecimal (negative : Bool) (digits : Nat) (exponent : Int) : Binary64 :=
  if digits = 0 then .finite negative 0
  else
    let top := ((natText digits).length : Int) + exponent
    if 400 < top then .infinite negative
    else if top < -400 then .finite negative 0
    else
      let (up, down) := Decimal.powerOfTen exponent
      ofRatio negative (digits * up) down

end Binary64

end Hotspots
