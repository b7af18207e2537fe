/-!
# Binary floating point with exact rounding

A finite value is a sign and a whole number of units of 2⁻¹⁰⁷⁴, the smallest positive value of the
format. Every operation computes its exact result as a ratio of naturals and rounds it once, to 53
significant bits with ties to the even neighbour. Comparison and negation are exact on the units.
-/

namespace Hotspots

/-- A 64-bit binary floating point value: not a number, an infinity, or signed units of 2⁻¹⁰⁷⁴. -/
inductive Binary64 where
  | nan
  | infinite (negative : Bool)
  | finite (negative : Bool) (units : Nat)
  deriving DecidableEq, Repr, Inhabited

/-- The quotient of two naturals rounded to nearest, a tie to the even one. -/
def divToEven (n d : Nat) : Nat :=
  let q := n / d
  let r := n % d
  if 2 * r < d then q else if d < 2 * r then q + 1 else q + q % 2

/-- A quotient is never rounded away from the two integers around it. -/
theorem divToEven_le (n d : Nat) : divToEven n d ≤ n / d + 1 := by
  unfold divToEven
  dsimp only
  have := Nat.mod_lt (n / d) (by decide : 0 < 2)
  split
  · omega
  · split <;> omega

/-- A quotient is never rounded below its integer part. -/
theorem le_divToEven (n d : Nat) : n / d ≤ divToEven n d := by
  unfold divToEven
  dsimp only
  split
  · exact Nat.le_refl _
  · split <;> omega

namespace Binary64

/-- The binary exponent of one unit, negated. -/
def unitExponent : Nat := 1074

/-- The number of units in 1. -/
def one : Nat := Nat.pow 2 unitExponent

/-- Values of this many units and more round to an infinity. -/
def overflowUnits : Nat := Nat.pow 2 (1024 + unitExponent)

/-- The number of low bits that a value with this many whole units cannot hold. -/
def spareBits (units : Nat) : Nat := units.log2 - 52

/-- The ratio `num / den`, counted in units, rounded to 53 significant bits. -/
def roundUnits (num den : Nat) : Nat :=
  let step := Nat.pow 2 (spareBits (num / den))
  divToEven num (den * step) * step

/-- The value nearest to a signed ratio of units. -/
def ofUnitRatio (negative : Bool) (num den : Nat) : Binary64 :=
  let units := roundUnits num den
  if overflowUnits ≤ units then .infinite negative else .finite negative units

/-- The value nearest to a signed ratio `num / den`. -/
def ofRatio (negative : Bool) (num den : Nat) : Binary64 :=
  ofUnitRatio negative (num * one) den

/-- The value nearest to an integer; an infinity when the integer is out of range. -/
def ofInt (i : Int) : Binary64 :=
  ofRatio (decide (i < 0)) i.natAbs 1

/-- Positive zero. -/
def zero : Binary64 := .finite false 0

/-- Whether a value is neither an infinity nor not a number. -/
def isFinite : Binary64 → Bool
  | .finite _ _ => true
  | _ => false

/-- Whether a value is not a number. -/
def isNaN : Binary64 → Bool
  | .nan => true
  | _ => false

/-- Whether a value is one of the two zeros. -/
def isZero : Binary64 → Bool
  | .finite _ 0 => true
  | _ => false

/-- A finite value as a signed count of units; both zeros count none. -/
def signedUnits (negative : Bool) (units : Nat) : Int :=
  if negative then -(units : Int) else units

/-- The sign of every value but not-a-number is flipped. -/
def neg : Binary64 → Binary64
  | .nan => .nan
  | .infinite s => .infinite (!s)
  | .finite s u => .finite (!s) u

/-- The strict order; not-a-number is below nothing and above nothing. -/
def lt : Binary64 → Binary64 → Bool
  | .nan, _ => false
  | _, .nan => false
  | .infinite s, .infinite t => s && !t
  | .infinite s, .finite _ _ => s
  | .finite _ _, .infinite t => !t
  | .finite s u, .finite t v => decide (signedUnits s u < signedUnits t v)

/-- Numerical equality; the zeros are equal and not-a-number equals nothing. -/
def eq : Binary64 → Binary64 → Bool
  | .nan, _ => false
  | _, .nan => false
  | .infinite s, .infinite t => s == t
  | .infinite _, .finite _ _ => false
  | .finite _ _, .infinite _ => false
  | .finite s u, .finite t v => decide (signedUnits s u = signedUnits t v)

/-- The order with equality; not-a-number compares with nothing. -/
def le (a b : Binary64) : Bool := a.lt b || a.eq b

/-- The sum, rounded once; an exact zero is negative only if both terms are. -/
def add : Binary64 → Binary64 → Binary64
  | .nan, _ => .nan
  | _, .nan => .nan
  | .infinite s, .infinite t => if s == t then .infinite s else .nan
  | .infinite s, .finite _ _ => .infinite s
  | .finite _ _, .infinite t => .infinite t
  | .finite s u, .finite t v =>
    let sum := signedUnits s u + signedUnits t v
    if sum = 0 then .finite (s && t) 0 else ofUnitRatio (decide (sum < 0)) sum.natAbs 1

/-- The difference, rounded once. -/
def sub (a b : Binary64) : Binary64 := a.add b.neg

/-- The product, rounded once. -/
def mul : Binary64 → Binary64 → Binary64
  | .nan, _ => .nan
  | _, .nan => .nan
  | .infinite s, .infinite t => .infinite (s != t)
  | .infinite s, .finite t v => if v = 0 then .nan else .infinite (s != t)
  | .finite s u, .infinite t => if u = 0 then .nan else .infinite (s != t)
  | .finite s u, .finite t v => ofUnitRatio (s != t) (u * v) one

/-- The quotient by a value that is not zero, rounded once. -/
def div : Binary64 → Binary64 → Binary64
  | .nan, _ => .nan
  | _, .nan => .nan
  | .infinite _, .infinite _ => .nan
  | .infinite s, .finite t _ => .infinite (s != t)
  | .finite s _, .infinite t => .finite (s != t) 0
  | .finite s u, .finite t v =>
    if v = 0 then (if u = 0 then .nan else .infinite (s != t))
    else ofUnitRatio (s != t) (u * one) v

/-- The exact quotient of two integers, rounded once; an infinity when it is out of range. -/
def ofIntQuotient (a b : Int) : Binary64 :=
  ofRatio (decide (a < 0) != decide (b < 0)) a.natAbs b.natAbs

/-- An integer compared with a value, exactly and without rounding the integer. -/
def compareInt? (i : Int) : Binary64 → Option Ordering
  | .nan => none
  | .infinite s => some (if s then .gt else .lt)
  | .finite s u => some (compare (i * one) (signedUnits s u))

/-- The integer part of a finite value, toward zero. -/
def truncate? : Binary64 → Option Int
  | .finite s u => some (signedUnits s (u / one))
  | _ => none

end Binary64

end Hotspots
