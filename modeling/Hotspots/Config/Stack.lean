import Hotspots.Value

/-!
# How deep values may be nested

A document is read and a value is shown by calls inside calls, more of them the deeper values stand inside one another,
and the stack of calls is bounded. Where it ends depends on the interpreter and on the calls that are open already, so
a `Stack` tells for every place and every value whether it does; the one that is used if nothing else is said counts
the values around a place.
-/

namespace Hotspots

/-- What a value of a document stands in. -/
inductive Nest where
  | array
  | table
  deriving DecidableEq, Repr

/-- How many calls are open for each value that a value stands in. -/
def Nest.calls : Nest → Nat
  | array => 2
  | table => 3

namespace Value

mutual

/-- How many values stand inside one another in a value, itself included. -/
def depth : Value → Nat
  | list items => depthOfItems items + 1
  | tuple items => depthOfItems items + 1
  | table entries => depthOfEntries entries + 1
  | _ => 1

/-- The depth of the deepest of some values. -/
def depthOfItems : List Value → Nat
  | [] => 0
  | v :: rest => max v.depth (depthOfItems rest)

/-- The depth of the deepest of the values of some keys. -/
def depthOfEntries : List (String × Value) → Nat
  | [] => 0
  | (_, v) :: rest => max v.depth (depthOfEntries rest)

end

end Value

namespace Stack

/-- How many calls are left for values that stand inside one another. -/
def room : Nat := 980

/-- What is said if the stack ends. -/
def ended : String := "maximum recursion depth exceeded"

end Stack

/-- Where the stack of calls ends. -/
structure Stack where
  /-- What is said if the stack ends where a value of a document is read: by what the value stands in, the innermost
  first, and by the text from the value on. -/
  reading? : List Nest → List Char → Option String := fun nests _ =>
    if Stack.room < (nests.map Nest.calls).foldr (· + ·) 0 then some Stack.ended else none
  /-- What is said if the stack ends where a value is shown. -/
  showing? : Value → Option String := fun v =>
    if Stack.room < v.depth then some (Stack.ended ++ " while getting the repr of an object") else none

end Hotspots
