import Hotspots.Source.Pattern

/-!
# Statements

Readers for statements. A block is a line of simple statements or an indented list of statements. The
children of a compound statement stand in the order of its parts in the grammar, so that nested
classes and functions are met in the same order as in the source.
-/

namespace Hotspots.Source.Statement

open Reader Expression

/-- The tokens after which a simple statement is over. -/
def atStatementEnd : Reader Bool := do
  let token ← peek
  return token = some .newline || token = some (.op ";")

/-- The operators that update a place. -/
def updates : List String :=
  ["+=", "-=", "*=", "@=", "/=", "%=", "&=", "|=", "^=", "<<=", ">>=", "**=", "//="]

/-- The right sides of a chain of assignments. All but the last must be targets. -/
def assignmentChain (g : Rules) : Nat → Tree → Reader (List Tree)
  | 0, _ => refuse
  | bound + 1, left => do
    if !left.isTarget then refuse
    else if ← atWord "yield" then return [left, ← yieldExpression g]
    else
      let right ← values g
      if ← acceptOp "=" then return left :: (← assignmentChain g bound right)
      else return [left, right]

/-- An assignment, an update, a declared type, or a value by itself. -/
def expressionStatement (g : Rules) : Reader Tree := do
  if ← atWord "yield" then yieldExpression g
  else
    let left ← values g
    match ← peek with
    | some (.op text) =>
      if text == "=" then
        skip
        return .plain (← assignmentChain g ((← remaining) + 1) left)
      else if text == ":" then
        skip
        if !left.isPlace then refuse
        else
          let declaredType ← g .expression
          let value ← whenHolds (acceptOp "=") (assigned g)
          return .plain (left :: declaredType :: value.toList)
      else if updates.contains text then
        skip
        if left.isPlace then return .plain [left, ← assigned g] else refuse
      else return left
    | _ => return left

/-- Names separated by dots. -/
def dotted : Reader (List String) := separated "." name

/-- The name that an imported module is bound to. -/
def importedModule : Reader String := do
  let path ← dotted
  if ← acceptWord "as" then name else return path.headD ""

/-- The name that an imported member is bound to. -/
def importedMember : Reader String := do
  let member ← name
  if ← acceptWord "as" then name else return member

/-- An import of modules. -/
def importModules : Reader Tree := do
  expectWord "import"
  return .node (.imports (← separated "," importedModule)) []

/-- Passes a dot of a relative module path if one comes next. -/
def acceptDots : Reader Bool := do
  if ← acceptOp "." then return true else acceptOp "..."

/-- An import of members of a module. -/
def importMembers : Reader Tree := do
  expectWord "from"
  let dots ← whileHolds acceptDots (pure ())
  if !(← atWord "import") || dots.isEmpty then discard dotted
  expectWord "import"
  if ← acceptOp "*" then return .node (.imports ["*"]) []
  else if ← acceptOp "(" then
    let names ← commaList closeParen importedMember
    expectOp ")"
    return .node (.imports names) []
  else
    return .node (.imports (← separated "," importedMember)) []

/-- One place of a deletion. -/
def deleted (g : Rules) : Reader Tree := do
  let place ← g .primary
  if place.isDeletable then return place else refuse

/-- One simple statement. -/
def simple (g : Rules) : Reader Tree := do
  match ← peek with
  | some (.word "pass") => skip; return .plain []
  | some (.word "break") => skip; return .plain []
  | some (.word "continue") => skip; return .plain []
  | some (.word "return") =>
    skip
    if ← atStatementEnd then return .plain [] else return .plain [← values g]
  | some (.word "import") => importModules
  | some (.word "from") => importMembers
  | some (.word "raise") =>
    skip
    if ← atStatementEnd then return .plain []
    else
      let raised ← g .expression
      let cause ← whenHolds (acceptWord "from") (g .expression)
      return .plain (raised :: cause.toList)
  | some (.word "del") =>
    skip
    return .plain (← commaList [.newline, .op ";"] (deleted g))
  | some (.word "assert") =>
    skip
    let condition ← g .expression
    let text ← whenHolds (acceptOp ",") (g .expression)
    return .node (.branch .assertion) (condition :: text.toList)
  | some (.word "global") =>
    skip
    discard <| separated "," name
    return .plain []
  | some (.word "nonlocal") =>
    skip
    discard <| separated "," name
    return .plain []
  | _ => expressionStatement g

/-- Whether another simple statement follows on the same line; a semicolon is passed. -/
def semicolonThenMore : Reader Bool := do
  if ← acceptOp ";" then return (← peek) ≠ some .newline else return false

/-- A line of simple statements. -/
def simpleLine (g : Rules) : Reader (List Tree) := do
  let first ← simple g
  let more ← whileHolds semicolonThenMore (simple g)
  expect .newline
  return first :: more

/-- The block after a colon. -/
def suite (g : Rules) : Reader (List Tree) := do
  expectOp ":"
  g .block

/-- The alternatives of an `if` statement after its first block, in a bounded number of steps. -/
def alternatives (g : Rules) : Nat → Reader (List Tree)
  | 0 => refuse
  | bound + 1 => do
    if ← acceptWord "elif" then
      let condition ← named g
      let body ← suite g
      let others ← alternatives g bound
      return [.node (.branch .ifStatement) (condition :: body ++ others)]
    else if ← acceptWord "else" then suite g
    else return []

/-- An `if` statement. -/
def ifStatement (g : Rules) : Reader Tree := do
  expectWord "if"
  let condition ← named g
  let body ← suite g
  let others ← alternatives g ((← remaining) + 1)
  return .node (.branch .ifStatement) (condition :: body ++ others)

/-- The block of an `else` if there is one. -/
def elseBlock (g : Rules) : Reader (List Tree) := do
  if ← acceptWord "else" then suite g else return []

/-- A `while` statement. -/
def whileStatement (g : Rules) : Reader Tree := do
  expectWord "while"
  let condition ← named g
  let body ← suite g
  return .node (.branch .whileLoop) (condition :: body ++ (← elseBlock g))

/-- A `for` statement. -/
def forStatement (g : Rules) : Reader Tree := do
  expectWord "for"
  let place ← targets g
  expectWord "in"
  let source ← values g
  let body ← suite g
  return .node (.branch .forLoop) (place :: source :: body ++ (← elseBlock g))

/-- One item of a `with` statement: a value, and where to put it. -/
def withItem (g : Rules) : Reader Tree := do
  let value ← g .expression
  if ← acceptWord "as" then return .plain [value, ← target g] else return value

/-- The items of a `with` statement between parentheses, and its colon. -/
def enclosedItems (g : Rules) : Reader (List Tree) := do
  expectOp "("
  let items ← commaList closeParen (withItem g)
  expectOp ")"
  expectOp ":"
  return items

/-- The items of a `with` statement without parentheses, and its colon. -/
def openItems (g : Rules) : Reader (List Tree) := do
  let items ← separated "," (withItem g)
  expectOp ":"
  return items

/-- A `with` statement. -/
def withStatement (g : Rules) : Reader Tree := do
  expectWord "with"
  let items ← (enclosedItems g <|> openItems g)
  return .plain (items ++ (← g .block))

/-- Whether a handler comes next that catches groups or not, as asked. -/
def atHandler (groups : Bool) : Reader Bool := do
  if ← atWord "except" then return ((← ahead 1) == some (.op "*")) == groups else return false

/-- One handler of a `try` statement. -/
def handler (g : Rules) (groups : Bool) : Reader Tree := do
  expectWord "except"
  if groups then expectOp "*"
  if !groups && (← atOp ":") then
    return .node (.branch .handler) (← suite g)
  else
    let caught ← g .expression
    if ← acceptWord "as" then discard name
    return .node (.branch .handler) (caught :: (← suite g))

/-- The last block of a `try` statement if there is one. -/
def finallyBlock (g : Rules) : Reader (List Tree) := do
  if ← acceptWord "finally" then suite g else return []

/-- A `try` statement, whose handlers all catch groups or all do not. -/
def tryStatement (g : Rules) : Reader Tree := do
  expectWord "try"
  let body ← suite g
  let groups ← atHandler true
  let handlers ← whileHolds (atHandler groups) (handler g groups)
  if handlers.isEmpty then
    expectWord "finally"
    return .plain (body ++ (← suite g))
  else
    let others ← elseBlock g
    return .plain (body ++ handlers ++ others ++ (← finallyBlock g))

/-- One case of a match statement. -/
def matchCase (g : Rules) : Reader Tree := do
  expectWord "case"
  let pattern ← Pattern.ofCase g
  let guard ← whenHolds (acceptWord "if") (named g)
  return .node (.branch .matchCase) (pattern :: guard.toList ++ (← suite g))

/-- The value that a match statement looks at. -/
def subject (g : Rules) : Reader Tree := do
  let starred ← atOp "*"
  let first ← starNamed g
  if ← atOp "," then
    return .node .tuple (first :: (← whileHolds (commaThenMore [.op ":"]) (starNamed g)))
  else if starred then refuse
  else return first

/-- A match statement; its first word may also be a name, so that it may refuse. -/
def matchStatement (g : Rules) : Reader Tree := do
  expectWord "match"
  let value ← subject g
  expectOp ":"
  expect .newline
  expect .indent
  let first ← matchCase g
  let more ← whileHolds (atWord "case") (matchCase g)
  expect .dedent
  return .plain (value :: first :: more)

/-- The decorators in front of a definition. -/
def decorators (g : Rules) : Reader (List Tree) :=
  whileHolds (acceptOp "@") do
    let tree ← named g
    expect .newline
    return tree

/-- A function definition. -/
def function (g : Rules) (decorated : List Tree) (async : Bool) : Reader Tree := do
  expectWord "def"
  let id ← name
  expectOp "("
  let declared ← parameters g true (.op ")")
  expectOp ")"
  let result ← whenHolds (acceptOp "->") (g .expression)
  let body ← suite g
  let head : FunctionHead :=
    { async := async
      name := id
      positionalOnly := declared.positionalOnly
      positional := declared.positional
      decorators := decorated.length }
  return .node (.function head) (decorated ++ declared.expressions ++ body ++ result.toList)

/-- A class definition. -/
def classStatement (g : Rules) (decorated : List Tree) : Reader Tree := do
  let start ← line
  expectWord "class"
  let id ← name
  let bases ← (do if ← acceptOp "(" then arguments g false else return [])
  let body ← suite g
  return .node (.classDef id start) (bases ++ body ++ decorated)

/-- A statement that starts with the mark of asynchronous ones. -/
def asyncStatement (g : Rules) (decorated : List Tree) : Reader Tree := do
  expectWord "async"
  match ← peek with
  | some (.word "def") => function g decorated true
  | some (.word "with") => if decorated.isEmpty then withStatement g else refuse
  | some (.word "for") => if decorated.isEmpty then forStatement g else refuse
  | _ => refuse

/-- A decorated definition. -/
def decoratedStatement (g : Rules) : Reader Tree := do
  let decorated ← decorators g
  match ← peek with
  | some (.word "def") => function g decorated false
  | some (.word "class") => classStatement g decorated
  | some (.word "async") => asyncStatement g decorated
  | _ => refuse

/-- A statement: a compound one, or a line of simple ones. -/
def statement (g : Rules) : Reader (List Tree) := do
  match ← peek with
  | some (.op "@") => return [← decoratedStatement g]
  | some (.word "def") => return [← function g [] false]
  | some (.word "class") => return [← classStatement g []]
  | some (.word "async") => return [← asyncStatement g []]
  | some (.word "if") => return [← ifStatement g]
  | some (.word "for") => return [← forStatement g]
  | some (.word "while") => return [← whileStatement g]
  | some (.word "with") => return [← withStatement g]
  | some (.word "try") => return [← tryStatement g]
  | some (.word "match") => (do return [← matchStatement g]) <|> simpleLine g
  | _ => simpleLine g

/-- A line of simple statements, or an indented list of statements. -/
def block (g : Rules) : Reader (List Tree) := do
  if ← accept .newline then
    expect .indent
    let first ← statement g
    let more ← whileHolds (return (← peek) ≠ some .dedent) (statement g)
    expect .dedent
    return first ++ more.flatten
  else
    simpleLine g

/-- A whole source text. -/
def module (g : Rules) : Reader Tree := do
  let statements ← whileHolds (return (← peek).isSome) (statement g)
  return .plain statements.flatten

end Hotspots.Source.Statement
