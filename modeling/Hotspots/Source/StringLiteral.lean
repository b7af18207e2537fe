import Hotspots.Source.Grammar
import Hotspots.Source.Lexer

/-!
# String literals

Adjacent string literals form one value: all of them texts or all of them bytes. Escapes must be
complete, bytes must be ASCII, and the replacement fields of a formatted literal hold expressions,
which are read like any other source. The value's tree has the fields' expressions as children.
-/

namespace Hotspots.Source.StringLiteral

/-- Whether a list begins with a number of hexadecimal digits. -/
def startsWithHex (count : Nat) (cs : List Char) : Bool :=
  (cs.take count).length == count && (cs.take count).all fun c => (CodeRange.hexDigit? c).isSome

/-- Whether the escapes of a text are complete and name characters. -/
def textEscapesUpTo (isCharacterName : List Char → Bool) : Nat → List Char → Bool
  | 0, _ => true
  | _, [] => true
  | bound + 1, '\\' :: c :: rest =>
    if c == 'x' then startsWithHex 2 rest && textEscapesUpTo isCharacterName bound rest
    else if c == 'u' then startsWithHex 4 rest && textEscapesUpTo isCharacterName bound rest
    else if c == 'U' then
      startsWithHex 8 rest && CodeRange.ofHex (rest.take 8) ≤ 0x10FFFF && textEscapesUpTo isCharacterName bound rest
    else if c == 'N' then
      match rest with
      | '\x7b' :: rest =>
        let name := rest.takeWhile (· != '\x7d')
        let after := rest.dropWhile (· != '\x7d')
        !after.isEmpty && isCharacterName name && textEscapesUpTo isCharacterName bound (after.drop 1)
      | _ => false
    else textEscapesUpTo isCharacterName bound rest
  | bound + 1, _ :: rest => textEscapesUpTo isCharacterName bound rest

/-- Whether the escapes of a text are complete and name characters. -/
def textEscapesHold (cs : List Char) : Reader Bool :=
  return textEscapesUpTo (← read).isCharacterName cs.length cs

/-- Whether the escapes of a byte string are complete. -/
def byteEscapesHold : List Char → Bool
  | [] => true
  | '\\' :: c :: rest =>
    if c == 'x' then startsWithHex 2 rest && byteEscapesHold rest else byteEscapesHold rest
  | _ :: rest => byteEscapesHold rest

/-- Where a stretch of literal text in a formatted literal ends. -/
inductive Stop where
  /-- At a doubled brace, which stands for one. -/
  | doubled
  /-- At a single brace or at the end of the text. -/
  | here
  deriving DecidableEq, Repr

/-- The literal text up to the next replacement field or closing brace, and what follows it. -/
def literalText (raw top : Bool) : List Char → List Char → Option (List Char × Stop × List Char)
  | text, [] => some (text.reverse, .here, [])
  | text, '\\' :: c :: rest =>
    if raw then
      literalText raw top ('\\' :: text) (c :: rest)
    else if c == 'N' then
      match rest with
      | '\x7b' :: rest => namedCharacter raw top ('\x7b' :: c :: '\\' :: text) rest
      | d :: rest => literalText raw top (d :: c :: '\\' :: text) rest
      | [] => some ((c :: '\\' :: text).reverse, .here, [])
    else if c == '\x7b' || c == '\x7d' then
      literalText raw top ('\\' :: text) (c :: rest)
    else literalText raw top (c :: '\\' :: text) rest
  | text, c :: rest =>
    if c == '\x7b' || c == '\x7d' then
      if top then
        if rest.head? == some c then some ((c :: text).reverse, .doubled, rest.tail)
        else if c == '\x7d' then none
        else some (text.reverse, .here, c :: rest)
      else some (text.reverse, .here, c :: rest)
    else literalText raw top (c :: text) rest
where
  /-- Passes the name of a character up to its closing brace. -/
  namedCharacter (raw top : Bool) : List Char → List Char → Option (List Char × Stop × List Char)
    | text, [] => some (text.reverse, .here, [])
    | text, c :: rest =>
      if c == '\x7d' then literalText raw top (c :: text) rest
      else namedCharacter raw top (c :: text) rest

/-- The expression of a replacement field and what follows it, from the character that ends it on.
`within` is the quote of a string literal inside the expression and whether it is tripled; `opened`
holds the brackets that are open, the innermost first. -/
def fieldExpression (within : Option (Char × Bool)) (opened text : List Char) :
    List Char → Option (List Char × List Char)
  | [] => none
  | '\\' :: _ => none
  | c :: rest =>
    match within with
    | some (quote, tripled) =>
      if c != quote then fieldExpression within opened (c :: text) rest
      else if !tripled then fieldExpression none opened (c :: text) rest
      else match rest with
        | d :: e :: rest' =>
          if d == c && e == c then fieldExpression none opened (e :: d :: c :: text) rest'
          else fieldExpression within opened (c :: text) (d :: e :: rest')
        | short => fieldExpression within opened (c :: text) short
    | none =>
      if c == '\'' || c == '"' then
        match rest with
        | d :: e :: rest' =>
          if d == c && e == c then
            fieldExpression (some (c, true)) opened (e :: d :: c :: text) rest'
          else fieldExpression (some (c, false)) opened (c :: text) (d :: e :: rest')
        | short => fieldExpression (some (c, false)) opened (c :: text) short
      else if (Lexer.closing? c).isSome then
        if Lexer.maxBrackets ≤ opened.length then none
        else fieldExpression none (c :: opened) (c :: text) rest
      else if c == '#' then none
      else if opened.isEmpty && ['!', ':', '\x7d', '=', '>', '<'].contains c then
        match rest with
        | d :: rest' =>
          if d == '=' && ['!', '=', '<', '>'].contains c then
            fieldExpression none opened (d :: c :: text) rest'
          else if c == '>' || c == '<' then fieldExpression none opened (c :: text) (d :: rest')
          else some (text.reverse, c :: rest)
        | [] => if c == '>' || c == '<' then none else some (text.reverse, [c])
      else if [')', ']', '\x7d'].contains c then
        match opened with
        | [] => none
        | opening :: outer =>
          if Lexer.closing? opening = some c then fieldExpression none outer (c :: text) rest
          else none
      else fieldExpression none opened (c :: text) rest
termination_by cs => cs.length

/-- Reads the text of a replacement field as an expression between parentheses. -/
def readField (g : Rules) (text : List Char) : Reader Tree := fun context position =>
  if text.all fun c => c == ' ' || c == '\t' || c == '\n' || c == '\x0c' then none
  else do
    let tokens ← Lexer.tokens ('(' :: text ++ [')'])
    let (tree, _) ← g .values { context with tokens := tokens.toArray } 0
    return (tree, position)

/-- What follows the mark of a self-documenting field and the blanks after it. -/
def afterSelfDocumenting : List Char → List Char
  | '=' :: rest => rest.dropWhile fun c => c == ' ' || (9 ≤ c.toNat && c.toNat ≤ 13)
  | cs => cs

/-- What follows a conversion. -/
def afterConversion : List Char → Option (List Char)
  | '!' :: c :: rest => if c == 's' || c == 'r' || c == 'a' then some rest else none
  | ['!'] => none
  | cs => some cs

/-- The expressions of a formatted literal, and what follows it: the end at level 0, a closing brace
in the format of a field. Formats nest twice at most. -/
def fields (g : Rules) (raw : Bool) : Nat → Nat → List Char → Reader (List Tree × List Char)
  | 0, _, _ => Reader.refuse
  | bound + 1, level, cs =>
    match literalText raw (level == 0) [] cs with
    | none => Reader.refuse
    | some (text, stop, rest) => do
      if !raw && !(← textEscapesHold text) then Reader.refuse
      else if stop = .doubled then fields g raw bound level rest
      else
        match rest with
        | '\x7b' :: rest =>
          if 2 ≤ level then Reader.refuse
          else
            match fieldExpression none [] [] rest with
            | none => Reader.refuse
            | some (text, rest) => do
              let tree ← readField g text
              match afterConversion (afterSelfDocumenting rest) with
              | none => Reader.refuse
              | some rest => do
                let (format, rest) ← (match rest with
                  | ':' :: rest => fields g raw bound (level + 1) rest
                  | _ => return ([], rest))
                match rest with
                | '\x7d' :: rest => do
                  let (others, rest) ← fields g raw bound level rest
                  return (tree :: format ++ others, rest)
                | _ => Reader.refuse
        | [] => if level = 0 then return ([], []) else Reader.refuse
        | rest => if level = 0 then Reader.refuse else return ([], rest)

/-- The expressions in one string literal, which must be well formed. -/
def parts (g : Rules) (s : StringText) : Reader (List Tree) := do
  let raw := s.letters.contains 'r'
  if s.letters.contains 'b' then
    if s.body.all (·.toNat < 128) && (raw || byteEscapesHold s.body) then return []
    else Reader.refuse
  else if s.letters.contains 'f' then
    let (trees, _) ← fields g raw (2 * s.body.length + 2) 0 s.body
    return trees
  else if raw || (← textEscapesHold s.body) then return []
  else Reader.refuse

/-- Reads the string literal that comes next. -/
def one : Reader StringText := do
  match ← Reader.peek with
  | some (.string s) =>
    Reader.skip
    return s
  | _ => Reader.refuse

/-- Whether a string literal comes next. -/
def atString : Reader Bool := do
  match ← Reader.peek with
  | some (.string _) => return true
  | _ => return false

/-- Reads adjacent string literals as one value. -/
def strings (g : Rules) : Reader Tree := do
  let first ← one
  let more ← Reader.whileHolds atString one
  let isBytes := fun (s : StringText) => s.letters.contains 'b'
  if more.any fun s => isBytes s != isBytes first then Reader.refuse
  else
    let trees ← (first :: more).mapM (parts g)
    return Tree.plain trees.flatten

end Hotspots.Source.StringLiteral
