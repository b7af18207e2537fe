import Hotspots.Failure

/-!
# Dense ranks

The dense rank of a value among values is its index in the list of the distinct ones in order. Equal values share a
rank, no rank is left out, and not-a-number comes after everything else. Ranks from the largest value are the ranks of
the negated values.
-/

namespace Hotspots.DenseRank

/-- Whether a value is not a number. -/
def isNaN : Number → Bool
  | .real x => x.isNaN
  | .whole _ => false

/-- Whether a value may stand in front of another in order; not-a-number stands at the end. -/
def inOrder (a b : Number) : Bool := isNaN b || a.le b

/-- Whether two values count as one: they are equal, or neither is a number. -/
def isSame (a b : Number) : Bool := a.eq b || (isNaN a && isNaN b)

/-- Values in order after a first one, without those that count as one with the value in front of them. -/
def distinctAfter : Number → List Number → List Number
  | _, [] => []
  | a, b :: rest => if isSame a b then distinctAfter b rest else b :: distinctAfter b rest

/-- Values in order, each of them once. -/
def distinctInOrder : List Number → List Number
  | [] => []
  | a :: rest => a :: distinctAfter a rest

/-- The distinct ones of some values, in order. -/
def distinct (values : List Number) : List Number := distinctInOrder (values.mergeSort inOrder)

/-- The dense ranks of values: for each its index among the distinct ones. -/
def ranks (values : List Number) : List Nat :=
  let distinct := distinct values
  values.map fun v => distinct.findIdx (isSame v)

/-- A real number that an integer was converted to; an infinity says that the integer is out of range. -/
def inRange : Binary64 → Except Fault Binary64
  | .infinite _ => .error .wholeTooLarge
  | x => .ok x

/-- The real number nearest to a number; integers out of range have none. -/
def realOf : Number → Except Fault Binary64
  | .real x => .ok x
  | .whole i => inRange (Binary64.ofInt i)

/-- Ranks as real numbers from the largest, which gets 0. -/
def descending (values : List Number) : Except Fault (List Nat) := do
  let reals ← values.mapM realOf
  return ranks (reals.map fun x => .real x.neg)

/-- Whether an integer fits in a signed machine word. -/
def isWord (i : Int) : Bool := -0x8000000000000000 ≤ i && i < 0x8000000000000000

/-- Whether numbers are compared as they are: all of them are integers of one kind of machine word, or one of
them fits in none. -/
def isExact (values : List Number) : Bool :=
  let inWord (holds : Int → Bool) : Number → Bool
    | .whole i => holds i
    | .real _ => false
  values.all (inWord isWord) || values.all (inWord fun i => !isWord i && 0 ≤ i)
    || values.any (inWord fun i => i < -0x8000000000000000 || 0x10000000000000000 ≤ i)

/-- Ranks from the smallest, which gets 0. Numbers of different kinds are compared as real numbers. -/
def ascending (values : List Number) : Except Fault (List Nat) := do
  if isExact values then return ranks values
  else
    let reals ← values.mapM realOf
    return ranks (reals.map .real)

end Hotspots.DenseRank
