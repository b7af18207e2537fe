import Hotspots.Moment
import Hotspots.Number.Real
import Hotspots.Text.Quoted

/-!
# Free-form values

Settings, measurements and the facts of an error can hold a value of any of these kinds. `text` is the
plain text of a value, and `shown` is its text inside a larger value, where texts are quoted.
-/

namespace Hotspots

/-- A value of a kind that is only known at run time. -/
inductive Value where
  | null
  | bool (b : Bool)
  | int (i : Int)
  | float (x : Binary64)
  | text (s : String)
  | list (items : List Value)
  | tuple (items : List Value)
  | table (entries : List (String × Value))
  | moment (m : Moment)
  deriving Repr, Inhabited

namespace Value

/-- The name of the kind of a value. -/
def kind : Value → String
  | null => "NoneType"
  | bool _ => "bool"
  | int _ => "int"
  | float _ => "float"
  | text _ => "str"
  | list _ => "list"
  | tuple _ => "tuple"
  | table _ => "dict"
  | moment m => "datetime." ++ m.kind

/-- The last part of the name of the kind of a value. -/
def className : Value → String
  | moment m => m.kind
  | v => v.kind

/-- The number that a value is; truth values count as 0 and 1. -/
def number? : Value → Option Number
  | bool b => some (.whole (if b then 1 else 0))
  | int i => some (.whole i)
  | float x => some (.real x)
  | _ => none

/-- Whether a value is empty, zero or absent. -/
def isFalsy : Value → Bool
  | null => true
  | bool b => !b
  | int i => i == 0
  | float x => x.isZero
  | text s => s.isEmpty
  | list items => items.isEmpty
  | tuple items => items.isEmpty
  | table entries => entries.isEmpty
  | moment _ => false

/-- The elements of a value that has elements; a text has its characters, and a table its keys. -/
def elements? : Value → Option (List Value)
  | list items => some items
  | tuple items => some items
  | text s => some (s.toList.map fun c => text (String.ofList [c]))
  | table entries => some (entries.map fun (k, _) => text k)
  | _ => none

mutual

/-- The text of a value inside a larger one. -/
def shown : Value → String
  | null => "None"
  | bool b => if b then "True" else "False"
  | int i => intText i
  | float x => x.text
  | text s => Quoted.text s
  | list items => "[" ++ shownItems items ++ "]"
  | tuple items => "(" ++ shownItems items ++ (if items.length = 1 then ",)" else ")")
  | table entries => "\x7b" ++ shownEntries entries ++ "\x7d"
  | moment m => m.call

/-- Values separated by commas. -/
def shownItems : List Value → String
  | [] => ""
  | [v] => v.shown
  | v :: rest => v.shown ++ ", " ++ shownItems rest

/-- Keys with their values, separated by commas. -/
def shownEntries : List (String × Value) → String
  | [] => ""
  | [(k, v)] => Quoted.text k ++ ": " ++ v.shown
  | (k, v) :: rest => Quoted.text k ++ ": " ++ v.shown ++ ", " ++ shownEntries rest

end

/-- The plain text of a value: texts stand for themselves. -/
def plain : Value → String
  | text s => s
  | moment m => m.text
  | v => v.shown

end Value

end Hotspots
