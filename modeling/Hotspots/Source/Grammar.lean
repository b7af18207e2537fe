import Hotspots.Source.Token
import Hotspots.Source.Tree
import Hotspots.Text.Compatibility

/-!
# Readers of token sequences

A `Reader` looks at the tokens from a position on and either gives a result and a later position or
refuses. Rules of the grammar that refer to each other are readers given a `Rules` table, which
holds the recursive rules with a smaller bound on nesting.
-/

namespace Hotspots.Source

/-- What readers look at. -/
structure Context where
  tokens : Array Placed
  /-- Whether a text is the name of a character. -/
  isCharacterName : List Char → Bool

/-- Reads a phrase from a position in the tokens, or refuses. -/
abbrev Reader := ReaderT Context (StateT Nat Option)

/-- The rules that can contain themselves. -/
inductive Rule where
  | expression
  | inversion
  | factor
  /-- An element with its attributes, calls and subscripts. -/
  | primary
  /-- One value, or several separated by commas and possibly starred. -/
  | values
  | pattern
  | block
  deriving DecidableEq, Repr

/-- What a rule gives: a block gives its statements, every other rule one tree. -/
abbrev Rule.Result : Rule → Type
  | .block => List Tree
  | _ => Tree

/-- A table of readers for the recursive rules. -/
abbrev Rules := (rule : Rule) → Reader rule.Result

namespace Reader

/-- Refuses. -/
def refuse {α : Type} : Reader α := fun _ _ => none

/-- The token a number of places ahead. -/
def ahead (offset : Nat) : Reader (Option Token) :=
  fun c position => some ((c.tokens[position + offset]?).map (·.token), position)

/-- The next token. -/
def peek : Reader (Option Token) := ahead 0

/-- The line of the next token. -/
def line : Reader Nat := fun c position => some (((c.tokens[position]?).map (·.line)).getD 0, position)

/-- Passes the next token. -/
def skip : Reader Unit := fun _ position => some ((), position + 1)

/-- Passes a given token if it comes next and says whether it did. -/
def accept (token : Token) : Reader Bool := do
  if (← peek) = some token then
    skip
    return true
  else
    return false

/-- Passes a given token or refuses. -/
def expect (token : Token) : Reader Unit := do
  if !(← accept token) then refuse

/-- Passes an operator if it comes next. -/
def acceptOp (text : String) : Reader Bool := accept (.op text)

/-- Passes an operator or refuses. -/
def expectOp (text : String) : Reader Unit := expect (.op text)

/-- Passes a keyword if it comes next. -/
def acceptWord (text : String) : Reader Bool := accept (.word text)

/-- Passes a keyword or refuses. -/
def expectWord (text : String) : Reader Unit := expect (.word text)

/-- Whether an operator comes next. -/
def atOp (text : String) : Reader Bool := return (← peek) = some (.op text)

/-- Whether a keyword comes next. -/
def atWord (text : String) : Reader Bool := return (← peek) = some (.word text)

/-- The number of tokens that are left. -/
def remaining : Reader Nat := fun c position => some (c.tokens.size - position, position)

/-- Reads a phrase as often as the test before it holds, a bounded number of times. -/
def whileUpTo {α : Type} (test : Reader Bool) (phrase : Reader α) : Nat → Reader (List α)
  | 0 => return []
  | bound + 1 => do
    if ← test then
      let first ← phrase
      return first :: (← whileUpTo test phrase bound)
    else
      return []

/-- Reads a phrase as often as the test before it holds. -/
def whileHolds {α : Type} (test : Reader Bool) (phrase : Reader α) : Reader (List α) := do
  whileUpTo test phrase ((← remaining) + 1)

/-- Whether a comma comes next that is not followed by one of the given closing tokens; a comma
that is followed by one is passed. -/
def commaThenMore (closers : List Token) : Reader Bool := do
  if ← acceptOp "," then
    match ← peek with
    | some token => return !closers.contains token
    | none => return false
  else
    return false

/-- Phrases separated by commas, with an optional comma after the last; stops at a closing token. -/
def commaList {α : Type} (closers : List Token) (phrase : Reader α) : Reader (List α) := do
  let first ← phrase
  return first :: (← whileHolds (commaThenMore closers) phrase)

/-- Phrases separated by an operator. -/
def separated {α : Type} (separator : String) (phrase : Reader α) : Reader (List α) := do
  let first ← phrase
  return first :: (← whileHolds (acceptOp separator) phrase)

/-- A phrase that is read if a test before it holds. -/
def whenHolds {α : Type} (test : Reader Bool) (phrase : Reader α) : Reader (Option α) := do
  if ← test then
    return some (← phrase)
  else
    return none

end Reader

/-- The words that cannot be names. -/
def keywords : List String :=
  ["False", "None", "True", "and", "as", "assert", "async", "await", "break", "class", "continue",
   "def", "del", "elif", "else", "except", "finally", "for", "from", "global", "if", "import", "in",
   "is", "lambda", "nonlocal", "not", "or", "pass", "raise", "return", "try", "while", "with",
   "yield"]

/-- The name that a token is, in its composed form. -/
def Token.name? : Token → Option String
  | .word text => if keywords.contains text then none else some (Compatibility.normalize text)
  | _ => none

namespace Reader

/-- Reads a name. -/
def name : Reader String := do
  match (← peek).bind Token.name? with
  | some text =>
    skip
    return text
  | none => refuse

/-- Whether a name comes next. -/
def atName : Reader Bool := return ((← peek).bind Token.name?).isSome

/-- Whether a name comes next and then a given operator. -/
def atNameThen (text : String) : Reader Bool := do
  if ← atName then return (← ahead 1) = some (.op text) else return false

end Reader

namespace Tree

/-- A construct that no measure looks at. -/
def plain (children : List Tree) : Tree := node .other children

/-- A name. -/
def ofName (identifier : String) : Tree := node (.name identifier) []

mutual

/-- Whether a tree can be assigned to: a name, an attribute, a subscript, or a sequence of targets,
some of them possibly starred. -/
def isTarget : Tree → Bool
  | node (.name _) _ => true
  | node (.attribute _) _ => true
  | node .subscript _ => true
  | node .starred cs => areTargets cs
  | node .tuple cs => areTargets cs
  | node .list cs => areTargets cs
  | _ => false

/-- Whether each of several trees can be assigned to. -/
def areTargets : List Tree → Bool
  | [] => true
  | t :: rest => t.isTarget && areTargets rest

end

mutual

/-- Whether a tree can be deleted: as a target, but without stars. -/
def isDeletable : Tree → Bool
  | node (.name _) _ => true
  | node (.attribute _) _ => true
  | node .subscript _ => true
  | node .tuple cs => areDeletable cs
  | node .list cs => areDeletable cs
  | _ => false

/-- Whether each of several trees can be deleted. -/
def areDeletable : List Tree → Bool
  | [] => true
  | t :: rest => t.isDeletable && areDeletable rest

end

/-- Whether a tree is one place: a name, an attribute or a subscript. -/
def isPlace : Tree → Bool
  | node (.name _) _ => true
  | node (.attribute _) _ => true
  | node .subscript _ => true
  | _ => false

end Tree

end Hotspots.Source
