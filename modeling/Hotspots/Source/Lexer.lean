import Hotspots.Source.Numeral
import Hotspots.Text.Identifier

/-!
# From text to tokens

`tokens` cuts a source text into tokens, or answers `none` if the text is not well formed: unknown
characters, unclosed strings and brackets, inconsistent indentation, a line joined to nothing. A
logical line ends at a line end outside brackets; an indented block opens when a line stands deeper
than the one before and closes when one stands at an enclosing depth again.
-/

namespace Hotspots.Source.Lexer

/-- The most brackets that may be open at once. -/
def maxBrackets : Nat := 200

/-- The most blocks that may be open at once, the outermost included. -/
def maxBlocks : Nat := 100

/-- Every line end as a line feed, and one at the end of the text. A pair of carriage return and line feed
at the very end still leaves the last line open, so that another line feed closes it. -/
def unifyLineEnds : List Char → List Char
  | [] => ['\n']
  | ['\n'] => ['\n']
  | ['\r'] => ['\n']
  | ['\r', '\n'] => ['\n', '\n']
  | '\r' :: '\n' :: rest => '\n' :: unifyLineEnds rest
  | '\r' :: rest => '\n' :: unifyLineEnds rest
  | c :: rest => c :: unifyLineEnds rest

/-- The depth of a line: its column with tabs to every eighth column, and with tabs to every column.
Two depths are comparable only if both agree. -/
structure Depth where
  column : Nat
  plain : Nat
  deriving DecidableEq, Repr

/-- The state between two tokens. -/
structure State where
  rest : List Char
  line : Nat
  /-- The brackets that are open, the innermost first. -/
  brackets : List Char
  /-- The depths of the open blocks, the innermost first; the outermost stays. -/
  blocks : List Depth
  /-- The tokens so far, the last first. -/
  found : List Placed

/-- Adds a token that starts on the present line and goes on with the rest. -/
def State.emit (s : State) (token : Token) (rest : List Char) : State :=
  { s with rest := rest, found := ⟨token, s.line⟩ :: s.found }

/-- A line that is joined to the next one: the next one, if there is any. -/
def joined? : List Char → Option (List Char)
  | '\n' :: c :: rest => some (c :: rest)
  | _ => none

/-- The blanks at the start of a line: its depth, how many lines are joined, and what follows. The
first joined line decides the depth. -/
def leading (depth : Depth) (fixed lines : Nat) : List Char → Option (Depth × Nat × List Char)
  | [] => some (if fixed = 0 then depth else ⟨fixed, fixed⟩, lines, [])
  | c :: rest =>
    if c == ' ' then leading ⟨depth.column + 1, depth.plain + 1⟩ fixed lines rest
    else if c == '\t' then leading ⟨(depth.column / 8 + 1) * 8, depth.plain + 1⟩ fixed lines rest
    else if c == '\x0c' then leading ⟨0, 0⟩ fixed lines rest
    else if c == '\\' then
      let fixed := if fixed = 0 then depth.column else fixed
      match rest with
      | '\n' :: c' :: rest' => leading depth fixed (lines + 1) (c' :: rest')
      | _ => none
    else some (if fixed = 0 then depth else ⟨fixed, fixed⟩, lines, c :: rest)

/-- Closes blocks down to a column. -/
def closeTo (column : Nat) : State → List Depth → State × List Depth
  | s, [] => (s, [])
  | s, [outermost] => (s, [outermost])
  | s, block :: outer =>
    if column < block.column then closeTo column (s.emit .dedent s.rest) outer else (s, block :: outer)

/-- Opens or closes blocks for a line of the given depth. -/
def settle (depth : Depth) (s : State) : Option State :=
  match s.blocks with
  | [] => none
  | block :: _ =>
    if depth.column = block.column then (if depth.plain = block.plain then some s else none)
    else if block.column < depth.column then
      if maxBlocks ≤ s.blocks.length || depth.plain ≤ block.plain then none
      else some { s.emit .indent s.rest with blocks := depth :: s.blocks }
    else
      let (s, blocks) := closeTo depth.column s s.blocks
      match blocks with
      | [] => none
      | block :: _ => if depth = block then some { s with blocks := blocks } else none

/-- What follows the rest of a line, at its line end. -/
def skipLine (cs : List Char) : List Char := cs.dropWhile (· != '\n')

/-- The body of a string literal of one line and what follows its closing quote. -/
def shortString (quote : Char) : List Char → List Char → Option (List Char × List Char)
  | _, [] => none
  | body, c :: rest =>
    if c == quote then some (body.reverse, rest)
    else if c == '\n' then none
    else if c == '\\' then
      match rest with
      | [] => none
      | d :: rest => shortString quote (d :: c :: body) rest
    else shortString quote (c :: body) rest

/-- The body of a string literal between triple quotes and what follows them. -/
def longString (quote : Char) : List Char → List Char → Option (List Char × List Char)
  | _, [] => none
  | body, c :: rest =>
    if c == quote && rest.head? == some quote && rest.tail.head? == some quote then
      some (body.reverse, rest.drop 2)
    else if c == '\\' then
      match rest with
      | [] => none
      | d :: rest => longString quote (d :: c :: body) rest
    else longString quote (c :: body) rest

/-- The body of a string literal and what follows it, after the opening quote. -/
def stringBody (quote : Char) (cs : List Char) : Option (List Char × List Char) :=
  match cs with
  | c :: d :: rest =>
    if c == quote && d == quote then longString quote [] rest
    else shortString quote [] cs
  | _ => shortString quote [] cs

/-- The letters that may stand in front of a string literal. -/
def isStringPrefix (letters : List Char) : Bool :=
  [['b'], ['u'], ['r'], ['f'], ['b', 'r'], ['r', 'b'], ['f', 'r'], ['r', 'f']].contains letters

/-- The operators and delimiters of three characters. -/
def tripleOps : List String := ["**=", "//=", "<<=", ">>="]

/-- The operators and delimiters of two characters. -/
def doubleOps : List String :=
  ["!=", "%=", "&=", "**", "*=", "+=", "-=", "->", "//", "/=", ":=", "<<", "<=", "<>", "==", ">=",
   ">>", "@=", "^=", "|="]

/-- The operators and delimiters of one character. -/
def singleOps : List Char :=
  ['(', ')', '[', ']', '\x7b', '\x7d', ',', ':', '.', ';', '+', '-', '*', '/', '|', '&', '<', '>',
   '=', '%', '~', '^', '@']

/-- The bracket that closes an opening one. -/
def closing? : Char → Option Char
  | '(' => some ')'
  | '[' => some ']'
  | '\x7b' => some '\x7d'
  | _ => none

/-- The operator at the start of a text and what follows it. -/
def operator? (cs : List Char) : Option (String × List Char) :=
  if tripleOps.contains (String.ofList (cs.take 3)) then some (String.ofList (cs.take 3), cs.drop 3)
  else if doubleOps.contains (String.ofList (cs.take 2)) then
    some (String.ofList (cs.take 2), cs.drop 2)
  else match cs with
    | [] => none
    | c :: rest => if singleOps.contains c then some (String.ofList [c], rest) else none

/-- The line breaks in the part of a text in front of a rest. -/
def lineBreaks (cs rest : List Char) : Nat :=
  ((cs.take (cs.length - rest.length)).filter (· == '\n')).length

/-- Reads an operator and keeps the open brackets. -/
def operatorToken (s : State) : Option State :=
  match operator? s.rest with
  | none => none
  | some (text, rest) =>
    let next := s.emit (.op text) rest
    match text.toList with
    | [c] =>
      if (closing? c).isSome then
        if maxBrackets ≤ s.brackets.length then none else some { next with brackets := c :: s.brackets }
      else if [')', ']', '\x7d'].contains c then
        match s.brackets with
        | [] => none
        | opening :: outer =>
          if closing? opening = some c then some { next with brackets := outer } else none
      else some next
    | _ => some next

/-- Reads a string literal whose prefix letters are given; the text begins with its quote. -/
def stringToken (s : State) (letters : List Char) (quote : Char) (cs : List Char) : Option State :=
  match stringBody quote cs with
  | none => none
  | some (body, rest) =>
    some { s.emit (.string ⟨letters, body⟩) rest with line := s.line + lineBreaks cs rest }

/-- Reads a word, or a string literal that begins with letters. -/
def wordToken (s : State) : Option State :=
  let word := s.rest.takeWhile Numeral.isWordChar
  let rest := s.rest.dropWhile Numeral.isWordChar
  let letters := word.map Char.toLower
  let plain := if word.all (·.toNat < 128) || Identifier.isValid word
    then some (s.emit (.word (String.ofList word)) rest) else none
  match rest with
  | quote :: cs =>
    if (quote == '\'' || quote == '"') && isStringPrefix letters then stringToken s letters quote cs
    else plain
  | [] => plain

/-- Reads the token at a character that is neither blank nor a line end. -/
def token (s : State) (c : Char) (cs : List Char) : Option State :=
  if c == '\'' || c == '"' then stringToken s [] c cs
  else if c.isDigit then
    (Numeral.ofDigits (c :: cs)).map fun (kind, rest) => s.emit (.number kind) rest
  else if Numeral.isWordChar c then wordToken s
  else if c == '.' then
    match cs with
    | '.' :: '.' :: rest => some (s.emit (.op "...") rest)
    | d :: _ =>
      if d.isDigit then (Numeral.afterPoint cs).map fun (kind, rest) => s.emit (.number kind) rest
      else some (s.emit (.op ".") cs)
    | [] => some (s.emit (.op ".") cs)
  else operatorToken s

/-- The end of the text: no bracket may be open, and every block closes. -/
def atEnd (s : State) : Option (List Placed) :=
  if s.brackets.isEmpty then some s.found.reverse else none

mutual

/-- Reads from the start of a line, in a bounded number of steps. -/
def line : Nat → State → Option (List Placed)
  | 0, _ => none
  | bound + 1, s =>
    match leading ⟨0, 0⟩ 0 0 s.rest with
    | none => none
    | some (depth, joins, rest) =>
      let s := { s with rest := rest, line := s.line + joins }
      match rest.head? with
      | none =>
        if s.brackets.isEmpty then (settle depth s).bind atEnd else none
      | some c =>
        if c == '#' || c == '\n' then
          line bound { s with rest := (skipLine rest).drop 1, line := s.line + 1 }
        else if s.brackets.isEmpty then
          match settle depth s with
          | none => none
          | some s => inside bound s
        else inside bound s

/-- Reads on within a line, in a bounded number of steps. -/
def inside : Nat → State → Option (List Placed)
  | 0, _ => none
  | bound + 1, s =>
    match s.rest with
    | [] => atEnd s
    | c :: cs =>
      if c == ' ' || c == '\t' || c == '\x0c' then inside bound { s with rest := cs }
      else if c == '#' then inside bound { s with rest := skipLine cs }
      else if c == '\n' then
        let s' := { s with rest := cs, line := s.line + 1 }
        if s.brackets.isEmpty then
          line bound { s' with found := ⟨.newline, s.line⟩ :: s.found }
        else line bound s'
      else if c == '\\' then
        match joined? cs with
        | none => none
        | some rest => inside bound { s with rest := rest, line := s.line + 1 }
      else
        match token s c cs with
        | none => none
        | some s => inside bound s

end

/-- The tokens of a source text; `none` if it cannot be cut into tokens. -/
def tokens (source : List Char) : Option (List Placed) :=
  if source.contains '\x00' then none
  else
    let text := unifyLineEnds source
    line (2 * text.length + 4) ⟨text, 1, [], [⟨0, 0⟩], []⟩

end Hotspots.Source.Lexer
