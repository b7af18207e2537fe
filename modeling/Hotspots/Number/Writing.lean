import Hotspots.Number.Reading

/-!
# Numbers written as text

A whole number is written with all its digits, but no more of them than are read. A value is written if that
goes for every whole number in it.
-/

namespace Hotspots

/-- Whether a whole number has few enough digits to be written. -/
def isWritableWhole (i : Int) : Bool := (natText i.natAbs).toList.length ≤ Reading.maxDigits

namespace Value

mutual

/-- Whether every whole number in a value can be written. -/
def isWritable : Value → Bool
  | int i => isWritableWhole i
  | list items => areWritable items
  | tuple items => areWritable items
  | table entries => entriesAreWritable entries
  | _ => true

/-- Whether every whole number in some values can be written. -/
def areWritable : List Value → Bool
  | [] => true
  | v :: rest => v.isWritable && areWritable rest

/-- Whether every whole number in the values of some keys can be written. -/
def entriesAreWritable : List (String × Value) → Bool
  | [] => true
  | (_, v) :: rest => v.isWritable && entriesAreWritable rest

end

end Value

end Hotspots
