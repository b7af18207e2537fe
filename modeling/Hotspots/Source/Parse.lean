import Hotspots.Source.Statement

/-!
# From text to syntax tree

`rules` ties the recursive rules of the grammar together with a bound on nesting, and `parse` reads a
source text with a bound that its length gives. A text that is not well formed has no tree. A `Parser`
may also have none of a text that is well formed, because the tree is too high or there is no memory left.
-/

namespace Hotspots.Source

/-- The recursive rules, nested at most as deep as the bound. -/
def rules : Nat → Rules
  | 0 => fun _ => Reader.refuse
  | bound + 1 => fun rule context position =>
    match rule with
    | .expression => Expression.expression (rules bound) context position
    | .inversion => Expression.inversion (rules bound) context position
    | .factor => Expression.factor (rules bound) context position
    | .primary => Expression.primary (rules bound) context position
    | .values => Expression.values (rules bound) context position
    | .pattern => Pattern.pattern (rules bound) context position
    | .block => Statement.block (rules bound) context position

/-- Whether a text is written as the names of characters are: with letters, digits, blanks and hyphens. -/
def isSpelledAsName (text : List Char) : Bool :=
  !text.isEmpty && text.all fun c => c.isAlphanum || c == ' ' || c == '-'

/-- The syntax tree of a source text; `none` if the text is not well formed. What is the name of a character can be
given, and is told by its spelling otherwise. -/
def parse (source : String) (isCharacterName : List Char → Bool := isSpelledAsName) : Option Tree := do
  let chars := source.toList
  let tokens ← Lexer.tokens chars
  let (tree, _) ← Statement.module (rules (16 * (chars.length + 8))) ⟨tokens.toArray, isCharacterName⟩ 0
  return tree

/-- Why a source text has no tree. -/
inductive Unparsed where
  /-- It is not well formed. -/
  | malformed
  /-- The stack of calls ends before the tree is made. -/
  | tooHigh (words : String)
  /-- There is no memory left for it. -/
  | tooLarge
  deriving Repr

/-- The tree of a source text, or why it has none. -/
abbrev Parser := String → Except Unparsed Tree

/-- How high the trees are at most that are made if nothing else is said. -/
def maxHeight : Nat := 2980

/-- The parser that is used if nothing else is said. -/
def parser : Parser := fun source =>
  match parse source with
  | none => .error .malformed
  | some tree =>
    if maxHeight < tree.height then .error (.tooHigh "maximum recursion depth exceeded during ast construction")
    else .ok tree

end Hotspots.Source
