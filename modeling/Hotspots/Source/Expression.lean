import Hotspots.Source.StringLiteral

/-!
# Expressions

Readers for expressions. Arithmetic is kept flat, since no measure depends on how operands of one
expression are grouped; what decides between paths (`and`, `or`, conditional expressions,
comprehension clauses) has a node of its own. Every reader takes the table of the recursive rules.
-/

namespace Hotspots.Source.Expression

open Reader

/-- The closing tokens after which no further element of a list can follow. -/
def closers : List Token :=
  [.op ")", .op "]", .op "\x7d", .op ":", .op "=", .newline, .op ";", .word "in"]

/-- The closing parenthesis. -/
def closeParen : List Token := [.op ")"]

/-- One tree for a list of operands: a single operand stands for itself. -/
def flat (label : Label) : List Tree → Tree
  | [single] => single
  | several => .node label several

/-- A name bound in the middle of an expression, or an expression. -/
def named (g : Rules) : Reader Tree := do
  if ← atNameThen ":=" then
    let target ← name
    skip
    return .plain [.ofName target, ← g .expression]
  else
    g .expression

/-- The binary operators of arithmetic. -/
def arithmetic : List String := ["|", "^", "&", "<<", ">>", "+", "-", "*", "/", "//", "%", "@"]

/-- Passes an arithmetic operator if one comes next. -/
def acceptArithmetic : Reader Bool := do
  match ← peek with
  | some (.op text) => if arithmetic.contains text then skip; return true else return false
  | _ => return false

/-- Operands joined by arithmetic operators. -/
def sum (g : Rules) : Reader Tree := do
  let first ← g .factor
  let more ← whileHolds acceptArithmetic (g .factor)
  return flat .other (first :: more)

/-- An operand with a star in front. -/
def starredSum (g : Rules) : Reader Tree := do
  expectOp "*"
  return .node .starred [← sum g]

/-- A starred operand or a possibly naming expression. -/
def starNamed (g : Rules) : Reader Tree := do
  if ← atOp "*" then starredSum g else named g

/-- A starred operand or an expression. -/
def starExpression (g : Rules) : Reader Tree := do
  if ← atOp "*" then starredSum g else g .expression

/-- Several values separated by commas, which are a tuple, or one value. -/
def values (g : Rules) : Reader Tree := do
  let first ← starExpression g
  if ← atOp "," then
    let more ← whileHolds (commaThenMore closers) (starExpression g)
    return .node .tuple (first :: more)
  else
    return first

/-- The keyword that hands a value out, and the value. -/
def yieldExpression (g : Rules) : Reader Tree := do
  expectWord "yield"
  if ← acceptWord "from" then
    return .plain [← g .expression]
  else
    match ← peek with
    | none => return .plain []
    | some token =>
      if token = .op ")" || token = .op "]" || token = .op "\x7d" || token = .newline
        || token = .op ";" || token = .op "=" || token = .op ":" then return .plain []
      else return .plain [← g .values]

/-- A value on the right of an assignment. -/
def assigned (g : Rules) : Reader Tree := do
  if ← atWord "yield" then yieldExpression g else g .values

/-- Passes a comparison operator if one comes next. -/
def acceptComparison : Reader Bool := do
  match ← peek with
  | some (.op text) =>
    if ["==", "!=", "<", ">", "<=", ">="].contains text then skip; return true else return false
  | some (.word "in") => skip; return true
  | some (.word "is") =>
    skip
    discard <| acceptWord "not"
    return true
  | some (.word "not") =>
    if (← ahead 1) = some (.word "in") then skip; skip; return true else return false
  | _ => return false

/-- A comparison of several operands. -/
def comparison (g : Rules) : Reader Tree := do
  let first ← sum g
  let more ← whileHolds acceptComparison (sum g)
  return flat .other (first :: more)

/-- A comparison, possibly negated. -/
def inversion (g : Rules) : Reader Tree := do
  if ← acceptWord "not" then return .plain [← g .inversion] else comparison g

/-- Passes a keyword that joins operands if it comes next. -/
def conjunction (g : Rules) : Reader Tree := do
  let first ← g .inversion
  let more ← whileHolds (acceptWord "and") (g .inversion)
  return flat .boolOp (first :: more)

/-- Conjunctions joined by `or`. -/
def disjunction (g : Rules) : Reader Tree := do
  let first ← conjunction g
  let more ← whileHolds (acceptWord "or") (conjunction g)
  return flat .boolOp (first :: more)

/-- What a parameter list declares: positional parameters and the expressions in it. -/
structure Parameters where
  positionalOnly : List String := []
  positional : List String := []
  expressions : List Tree := []

/-- One parameter: its name, its declared type if types are allowed, and its default. -/
def parameter (g : Rules) (typed starred : Bool) : Reader (String × List Tree × Option Tree) := do
  let id ← name
  let declaredType ← (do
    if typed then
      if ← acceptOp ":" then
        if starred then return [← starExpression g] else return [← g .expression]
      else return []
    else return [])
  if starred then
    return (id, declaredType, none)
  else
    let default ← whenHolds (acceptOp "=") (g .expression)
    return (id, declaredType, default)

/-- Where a reader of parameters stands in the list. -/
structure ParameterState where
  found : Parameters := {}
  /-- Whether a positional parameter had a default. -/
  defaulted : Bool := false
  /-- Whether the mark of positional-only parameters was passed. -/
  slashed : Bool := false
  /-- Whether a star was passed. -/
  starred : Bool := false
  /-- Whether a bare star still needs a parameter. -/
  owing : Bool := false
  /-- Whether nothing may follow. -/
  closed : Bool := false

/-- The state after the expressions of one more parameter. -/
def ParameterState.note (s : ParameterState) (trees : List Tree) : ParameterState :=
  { s with found := { s.found with expressions := s.found.expressions ++ trees } }

/-- Reads one element of a parameter list. -/
def parameterElement (g : Rules) (typed : Bool) (s : ParameterState) : Reader ParameterState := do
  if s.closed then refuse
  else if ← acceptOp "/" then
    if s.slashed || s.starred || s.found.positional.isEmpty then refuse
    else
      return { s with
        slashed := true
        found := { s.found with positionalOnly := s.found.positional, positional := [] } }
  else if ← acceptOp "**" then
    if s.owing then refuse
    else
      let (_, declaredType, default) ← parameter g typed false
      if default.isSome then refuse else return { s.note declaredType with closed := true }
  else if ← acceptOp "*" then
    if s.starred then refuse
    else if ← atOp "," then return { s with starred := true, owing := true }
    else
      let (_, declaredType, _) ← parameter g typed true
      return { s.note declaredType with starred := true }
  else
    let (id, declaredType, default) ← parameter g typed false
    let s := s.note (declaredType ++ default.toList)
    if s.starred then return { s with owing := false }
    else if default.isNone && s.defaulted then refuse
    else
      return { s with
        defaulted := default.isSome
        found := { s.found with positional := s.found.positional ++ [id] } }

/-- Reads the elements of a parameter list up to its closing token, in a bounded number of steps. -/
def parameterElements (g : Rules) (typed : Bool) (closer : Token) :
    Nat → ParameterState → Reader Parameters
  | 0, _ => refuse
  | bound + 1, s => do
    if (← peek) = some closer then
      if s.owing then refuse else return s.found
    else
      let s ← parameterElement g typed s
      if ← acceptOp "," then parameterElements g typed closer bound s
      else if (← peek) = some closer then
        if s.owing then refuse else return s.found
      else refuse

/-- A parameter list up to its closing token, which is not passed. -/
def parameters (g : Rules) (typed : Bool) (closer : Token) : Reader Parameters := do
  parameterElements g typed closer ((← remaining) + 1) {}

/-- A function without a name. -/
def lambda (g : Rules) : Reader Tree := do
  expectWord "lambda"
  let declared ← parameters g false (.op ":")
  expectOp ":"
  return .plain (declared.expressions ++ [← g .expression])

/-- An expression: alternatives chosen by a condition, a function without a name, or operands. -/
def expression (g : Rules) : Reader Tree := do
  if ← atWord "lambda" then lambda g
  else
    let first ← disjunction g
    if ← acceptWord "if" then
      let condition ← disjunction g
      expectWord "else"
      return .node (.branch .ifExpression) [condition, first, ← g .expression]
    else
      return first

/-- Whether a comprehension clause comes next. -/
def atClause : Reader Bool := do
  if ← atWord "for" then return true
  else if ← atWord "async" then return (← ahead 1) = some (.word "for")
  else return false

/-- One target of an assignment. -/
def target (g : Rules) : Reader Tree := do
  if ← acceptOp "*" then
    if ← atOp "*" then refuse
    else
      let place ← g .primary
      if place.isTarget then return .node .starred [place] else refuse
  else
    let place ← g .primary
    if place.isTarget then return place else refuse

/-- Targets separated by commas, which are a tuple, or one target. -/
def targets (g : Rules) : Reader Tree := do
  let first ← target g
  if ← atOp "," then
    return .node .tuple (first :: (← whileHolds (commaThenMore closers) (target g)))
  else
    return first

/-- One clause of a comprehension. -/
def clause (g : Rules) : Reader Tree := do
  discard <| acceptWord "async"
  expectWord "for"
  let place ← targets g
  expectWord "in"
  let source ← disjunction g
  let filters ← whileHolds (acceptWord "if") (disjunction g)
  return .node (.clause filters.length) (place :: source :: filters)

/-- The clauses of a comprehension. -/
def clauses (g : Rules) : Reader (List Tree) := whileHolds atClause (clause g)

/-- The rest of an argument list; `named` and `doubled` say what was passed before. -/
def argumentsAfter (g : Rules) : Nat → Bool → Bool → Reader (List Tree)
  | 0, _, _ => refuse
  | bound + 1, keyed, doubled => do
    if ← acceptOp ")" then return []
    else
      let (tree, keyed, doubled) ← (do
        if ← acceptOp "**" then
          return (.plain [← g .expression], true, true)
        else if ← atNameThen "=" then
          skip
          skip
          return (.plain [← g .expression], true, doubled)
        else if ← acceptOp "*" then
          if doubled then refuse else return (.node .starred [← g .expression], keyed, doubled)
        else if keyed then refuse
        else return (← named g, keyed, doubled))
      if ← acceptOp "," then
        return tree :: (← argumentsAfter g bound keyed doubled)
      else
        expectOp ")"
        return [tree]

/-- The arguments of a call and its closing parenthesis. Positional arguments come first; after a
keyword only a starred argument may still do without one, and after a doubly starred one none may. A
comprehension may stand alone in a call. -/
def arguments (g : Rules) (call : Bool) : Reader (List Tree) := do
  if ← acceptOp ")" then return []
  else if ← atOp "*" then argumentsAfter g ((← remaining) + 1) false false
  else if ← atNameThen "=" then argumentsAfter g ((← remaining) + 1) false false
  else if ← atOp "**" then argumentsAfter g ((← remaining) + 1) false false
  else
    let first ← named g
    if call && (← atClause) then
      let steps ← clauses g
      expectOp ")"
      return [.plain (first :: steps)]
    else if ← acceptOp "," then
      return first :: (← argumentsAfter g ((← remaining) + 1) false false)
    else
      expectOp ")"
      return [first]

/-- One element of a subscript: a slice or an expression. -/
def slice (g : Rules) : Reader Tree := do
  if ← atNameThen ":=" then named g
  else
    let lower ← (do if ← atOp ":" then return none else return some (← g .expression))
    if ← acceptOp ":" then
      let stops := [Token.op ":", .op ",", .op "]"]
      let bound := (do
        match ← peek with
        | some token => if stops.contains token then return none else return some (← g .expression)
        | none => return none : Reader (Option Tree))
      let upper ← bound
      let step ← (do if ← acceptOp ":" then bound else return none)
      return .plain (lower.toList ++ upper.toList ++ step.toList)
    else
      match lower with
      | some tree => return tree
      | none => refuse

/-- The index of a subscript: one element, or several separated by commas. -/
def subscripts (g : Rules) : Reader Tree := do
  let element := (do
    if ← acceptOp "*" then return .node .starred [← g .expression] else slice g : Reader Tree)
  let starred ← atOp "*"
  let first ← element
  if ← atOp "," then
    return .node .tuple (first :: (← whileHolds (commaThenMore [.op "]"]) element))
  else if starred then return .node .tuple [first]
  else return first

/-- An attribute, a call or a subscript of what was read so far. -/
def trailer (g : Rules) (owner : Tree) : Reader (Option Tree) := do
  match ← peek with
  | some (.op ".") =>
    skip
    return some (.node (.attribute (← name)) [owner])
  | some (.op "(") =>
    skip
    let given ← arguments g true
    return some (.node .call (owner :: given))
  | some (.op "[") =>
    skip
    let index ← subscripts g
    expectOp "]"
    return some (.node .subscript [owner, index])
  | _ => return none

/-- A tuple, a group or a comprehension, after the opening parenthesis. -/
def parenthesized (g : Rules) : Reader Tree := do
  if ← acceptOp ")" then return .node .tuple []
  else if ← atWord "yield" then
    let tree ← yieldExpression g
    expectOp ")"
    return tree
  else
    let starred ← atOp "*"
    let first ← starNamed g
    if ← atOp "," then
      let more ← whileHolds (commaThenMore closeParen) (starNamed g)
      expectOp ")"
      return .node .tuple (first :: more)
    else if starred then refuse
    else if ← atClause then
      let steps ← clauses g
      expectOp ")"
      return .plain (first :: steps)
    else
      expectOp ")"
      return first

/-- A list or a list comprehension, after the opening bracket. -/
def listDisplay (g : Rules) : Reader Tree := do
  if ← acceptOp "]" then return .node .list []
  else
    let starred ← atOp "*"
    let first ← starNamed g
    if !starred && (← atClause) then
      let steps ← clauses g
      expectOp "]"
      return .plain (first :: steps)
    else
      let more ← whileHolds (commaThenMore [.op "]"]) (starNamed g)
      expectOp "]"
      return .node .list (first :: more)

/-- One entry of a mapping: a key with its value, or a mapping to copy. -/
def entry (g : Rules) : Reader (List Tree) := do
  if ← acceptOp "**" then return [← sum g]
  else
    let key ← g .expression
    expectOp ":"
    return [key, ← g .expression]

/-- A mapping, a set or a comprehension of one, after the opening brace. -/
def braced (g : Rules) : Reader Tree := do
  if ← acceptOp "\x7d" then return .plain []
  else if ← atOp "**" then
    let entries ← commaList [.op "\x7d"] (entry g)
    expectOp "\x7d"
    return .plain entries.flatten
  else
    let starred ← atOp "*"
    let naming ← atNameThen ":="
    let first ← starNamed g
    let keyed ← atOp ":"
    if keyed && !starred && !naming then
      skip
      let value ← g .expression
      if ← atClause then
        let steps ← clauses g
        expectOp "\x7d"
        return .plain (first :: value :: steps)
      else
        let more ← whileHolds (commaThenMore [.op "\x7d"]) (entry g)
        expectOp "\x7d"
        return .plain (first :: value :: more.flatten)
    else if !starred && (← atClause) then
      let steps ← clauses g
      expectOp "\x7d"
      return .plain (first :: steps)
    else
      let more ← whileHolds (commaThenMore [.op "\x7d"]) (starNamed g)
      expectOp "\x7d"
      return .plain (first :: more)

/-- An element between parentheses, brackets or braces. -/
def atom (g : Rules) : Reader Tree := do
  match ← peek with
  | some (.word text) =>
    if ["True", "False", "None"].contains text then
      skip
      return .plain []
    else
      return .ofName (← name)
  | some (.number _) =>
    skip
    return .plain []
  | some (.string _) => StringLiteral.strings g
  | some (.op "...") =>
    skip
    return .plain []
  | some (.op "(") =>
    skip
    parenthesized g
  | some (.op "[") =>
    skip
    listDisplay g
  | some (.op "\x7b") =>
    skip
    braced g
  | _ => refuse

/-- Adds attributes, calls and subscripts to what was read so far. -/
def trailers (g : Rules) : Nat → Tree → Reader Tree
  | 0, _ => refuse
  | bound + 1, owner => do
    match ← trailer g owner with
    | some tree => trailers g bound tree
    | none => return owner

/-- An element with its attributes, calls and subscripts. -/
def primary (g : Rules) : Reader Tree := do
  trailers g ((← remaining) + 1) (← atom g)

/-- A power, whose exponent binds tighter than a sign on its right. -/
def power (g : Rules) : Reader Tree := do
  let awaited ← acceptWord "await"
  let base ← primary g
  let base := if awaited then .plain [base] else base
  if ← acceptOp "**" then return .plain [base, ← g .factor] else return base

/-- A power, possibly signed. -/
def factor (g : Rules) : Reader Tree := do
  match ← peek with
  | some (.op text) =>
    if ["+", "-", "~"].contains text then
      skip
      return .plain [← g .factor]
    else power g
  | _ => power g

end Hotspots.Source.Expression
