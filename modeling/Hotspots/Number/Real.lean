import Hotspots.Number.Decimal

/-!
# Whole and real numbers compared

A number is an integer of any size or a binary floating point value. Integers and real values are
compared exactly, without rounding the integer.
-/

namespace Hotspots

/-- An integer of any size or a binary floating point value. -/
inductive Number where
  | whole (i : Int)
  | real (x : Binary64)
  deriving DecidableEq, Repr, Inhabited

namespace Number

/-- How two numbers compare; nothing compares with not-a-number. -/
def compare? : Number → Number → Option Ordering
  | .whole a, .whole b => some (compare a b)
  | .whole a, .real y => Binary64.compareInt? a y
  | .real x, .whole b => (Binary64.compareInt? b x).map Ordering.swap
  | .real x, .real y => if x.lt y then some .lt else if x.eq y then some .eq
      else if y.lt x then some .gt else none

/-- The strict order. -/
def lt (a b : Number) : Bool := compare? a b == some .lt

/-- The order with equality. -/
def le (a b : Number) : Bool := compare? a b == some .lt || compare? a b == some .eq

/-- Numerical equality. -/
def eq (a b : Number) : Bool := compare? a b == some .eq

/-- Whether a number is zero. -/
def isZero : Number → Bool
  | .whole i => i == 0
  | .real x => x.isZero

/-- A number in decimal. -/
def text : Number → String
  | .whole i => intText i
  | .real x => x.text

/-- Integers compare as integers. -/
@[simp] theorem lt_whole (a b : Int) : lt (.whole a) (.whole b) = decide (a < b) := by
  by_cases h : a < b
  · simp [lt, compare?, compare, compareOfLessAndEq, h]
  · by_cases e : a = b <;> simp [lt, compare?, compare, compareOfLessAndEq, h, e]

end Number

end Hotspots
