import Hotspots.Source.Expression

/-!
# Patterns of match statements

A pattern tests a value and binds names; the names it binds are no uses of names, so only the values
and classes it refers to are nodes of its tree.
-/

namespace Hotspots.Source.Pattern

open Reader

/-- The number literal that comes next. -/
def number : Reader NumberKind := do
  match ← peek with
  | some (.number kind) =>
    skip
    return kind
  | _ => refuse

/-- A number, possibly negative, or a complex number: a real part and an imaginary part. -/
def signedNumber : Reader Tree := do
  discard <| acceptOp "-"
  let kind ← number
  let plus ← atOp "+"
  let minus ← atOp "-"
  if plus || minus then
    skip
    let second ← number
    if kind = .real && second = .imaginary then return .plain [] else refuse
  else
    return .plain []

/-- A literal: a number, strings or a constant. -/
def literal (g : Rules) : Reader Tree := do
  match ← peek with
  | some (.number _) => signedNumber
  | some (.op "-") => signedNumber
  | some (.string _) => StringLiteral.strings g
  | some (.word text) =>
    if ["None", "True", "False"].contains text then
      skip
      return .plain []
    else refuse
  | _ => refuse

/-- Whether a literal comes next. -/
def atLiteral : Reader Bool := do
  match ← peek with
  | some (.number _) => return true
  | some (.op "-") => return true
  | some (.string _) => return true
  | some (.word text) => return ["None", "True", "False"].contains text
  | _ => return false

/-- A name with any number of attributes, and how many there are. -/
def dottedName : Reader (Tree × Nat) := do
  let first ← name
  let fields ← whileHolds (acceptOp ".") name
  return (fields.foldl (fun owner field => .node (.attribute field) [owner]) (.ofName first),
    fields.length)

/-- A name that a pattern binds, which no dot, parenthesis or equals sign may follow. -/
def capture : Reader Unit := do
  if ← atWord "_" then refuse
  else
    discard name
    let token ← peek
    if token = some (.op ".") || token = some (.op "(") || token = some (.op "=") then refuse

/-- A starred name, or a pattern. -/
def maybeStarred (g : Rules) : Reader Tree := do
  if ← acceptOp "*" then
    if ← acceptWord "_" then return .plain []
    else
      capture
      return .plain []
  else g .pattern

/-- The key of a mapping pattern: a literal or a dotted name. -/
def key (g : Rules) : Reader Tree := do
  if ← atLiteral then literal g
  else
    let (tree, fields) ← dottedName
    if fields = 0 then refuse else return tree

/-- The entries of a mapping pattern and its closing brace, in a bounded number of steps. -/
def entries (g : Rules) : Nat → Reader (List Tree)
  | 0 => refuse
  | bound + 1 => do
    if ← acceptOp "\x7d" then return []
    else if ← acceptOp "**" then
      capture
      discard <| acceptOp ","
      expectOp "\x7d"
      return []
    else
      let k ← key g
      expectOp ":"
      let p ← g .pattern
      if ← acceptOp "," then return k :: p :: (← entries g bound)
      else
        expectOp "\x7d"
        return [k, p]

/-- The arguments of a class pattern and its closing parenthesis: patterns first, then named ones. -/
def arguments (g : Rules) : Nat → Bool → Reader (List Tree)
  | 0, _ => refuse
  | bound + 1, keyed => do
    if ← acceptOp ")" then return []
    else
      let named ← atNameThen "="
      if named then
        skip
        skip
      else if keyed then refuse
      let p ← g .pattern
      if ← acceptOp "," then return p :: (← arguments g bound (keyed || named))
      else
        expectOp ")"
        return [p]

/-- A sequence or a group, after the opening parenthesis. -/
def parenthesized (g : Rules) : Reader Tree := do
  if ← acceptOp ")" then return .plain []
  else
    let starred ← atOp "*"
    let first ← maybeStarred g
    if ← atOp "," then
      let more ← whileHolds (commaThenMore Expression.closeParen) (maybeStarred g)
      expectOp ")"
      return .plain (first :: more)
    else if starred then refuse
    else
      expectOp ")"
      return first

/-- A pattern without alternatives. -/
def closed (g : Rules) : Reader Tree := do
  if ← atLiteral then literal g
  else
    match ← peek with
    | some (.op "(") =>
      skip
      parenthesized g
    | some (.op "[") =>
      skip
      if ← acceptOp "]" then return .plain []
      else
        let elements ← commaList [.op "]"] (maybeStarred g)
        expectOp "]"
        return .plain elements
    | some (.op "\x7b") =>
      skip
      return .plain (← entries g ((← remaining) + 1))
    | some (.word "_") =>
      skip
      return .plain []
    | _ =>
      let (tree, fields) ← dottedName
      if ← acceptOp "(" then
        return .plain (tree :: (← arguments g ((← remaining) + 1) false))
      else if ← atOp "=" then refuse
      else if fields = 0 then return .plain []
      else return .plain [tree]

/-- Alternatives, of which the whole may be bound to a name. -/
def pattern (g : Rules) : Reader Tree := do
  let alternatives ← separated "|" (closed g)
  if ← acceptWord "as" then capture
  return .plain alternatives

/-- The pattern of a case: a pattern, or several separated by commas. -/
def ofCase (g : Rules) : Reader Tree := do
  let starred ← atOp "*"
  let first ← maybeStarred g
  if ← atOp "," then
    let more ← whileHolds (commaThenMore [.op ":", .word "if"]) (maybeStarred g)
    return .plain (first :: more)
  else if starred then refuse
  else return first

end Hotspots.Source.Pattern
