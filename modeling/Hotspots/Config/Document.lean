import Hotspots.Config.Stack
import Hotspots.Number.Reading
import Hotspots.Record

/-!
# Configuration documents

A document is a list of `key = value` lines, under headers that open a table or append one to an array
of tables. `ofText` reads a document into one table, or says why it does not: it is malformed, a number
has too many digits, or values are nested too deeply. A table is opened once; inline tables and arrays
are closed to later lines.
-/

namespace Hotspots.Document

/-- Why a document is not read. -/
inductive Flaw where
  | malformed
  /-- A whole number has more digits than are read. -/
  | tooManyDigits (count : Nat)
  /-- Values are nested more deeply than the stack of calls reaches. -/
  | tooDeep (words : String)
  deriving DecidableEq, Repr

/-- Reads a phrase from the text that is left, or says why not. -/
abbrev Reader := StateT (List Char) (Except Flaw)

/-- A path of keys from the root. -/
abbrev Key := List String

/-- The document is malformed here. -/
def refuse {α : Type} : Reader α := throw .malformed

/-- The text that is left. -/
def rest : Reader (List Char) := get

/-- A bound on the number of further steps. -/
def bound : Reader Nat := return (← rest).length + 1

/-- The next character. -/
def peek : Reader (Option Char) := return (← rest).head?

/-- Passes characters. -/
def skip (count : Nat) : Reader Unit := modify (·.drop count)

/-- Passes the characters that satisfy a predicate and gives them. -/
def takeWhile (p : Char → Bool) : Reader (List Char) := do
  let cs ← rest
  set (cs.dropWhile p)
  return cs.takeWhile p

/-- Whether the text that is left begins with a given text. -/
def atText (text : String) : Reader Bool := return text.toList.isPrefixOf (← rest)

/-- Whether a character is a blank within a line. -/
def isBlank (c : Char) : Bool := c == ' ' || c == '\t'

/-- Passes blanks within a line. -/
def skipBlanks : Reader Unit := discard <| takeWhile isBlank

/-- Whether a character is a control character. -/
def isControl (c : Char) : Bool := c.toNat < 32 || c.toNat == 127

/-- Whether a character may stand in a text of one line, or of several. -/
def mayStand (several : Bool) (c : Char) : Bool :=
  !isControl c || c == '\t' || (several && c == '\n')

/-- Whether a character may stand in a key without quotes. -/
def isBare (c : Char) : Bool := c.isAlphanum || c == '-' || c == '_'

/-- Passes a comment if one comes next. -/
def skipComment : Reader Unit := do
  if (← peek) = some '#' then
    let text ← takeWhile (· != '\n')
    if !text.all (mayStand false) then refuse

/-- Passes blanks, line ends and comments, a bounded number of times. -/
def skipSpaceUpTo : Nat → Reader Unit
  | 0 => return
  | n + 1 => do
    let before := (← rest).length
    discard <| takeWhile fun c => isBlank c || c == '\n'
    skipComment
    if (← rest).length != before then skipSpaceUpTo n

/-- Passes blanks, line ends and comments. -/
def skipSpace : Reader Unit := do skipSpaceUpTo (← bound)

/-! ## Texts -/

/-- A character given by a number of hexadecimal digits. -/
def hexCharacter (count : Nat) : Reader (List Char) := do
  let digits := (← rest).take count
  skip count
  let code := CodeRange.ofHex digits
  if digits.length != count || !(digits.all fun c => (CodeRange.hexDigit? c).isSome) then refuse
  else if code.isValidChar then return [Char.ofNat code]
  else refuse

/-- The characters that an escape stands for; the text begins after the backslash. -/
def escape (several : Bool) : Reader (List Char) := do
  match ← peek with
  | none => refuse
  | some c =>
    skip 1
    if several && (isBlank c || c == '\n') then
      if c != '\n' then
        skipBlanks
        match ← peek with
        | none => return []
        | some '\n' => skip 1
        | some _ => refuse
      discard <| takeWhile fun c => isBlank c || c == '\n'
      return []
    else if c == 'u' then hexCharacter 4
    else if c == 'U' then hexCharacter 8
    else if c == 'b' then return ['\x08']
    else if c == 't' then return ['\t']
    else if c == 'n' then return ['\n']
    else if c == 'f' then return ['\x0c']
    else if c == 'r' then return ['\r']
    else if c == '"' || c == '\\' then return [c]
    else refuse

/-- The rest of a text with escapes, and its closing quotes. -/
def escapedText (several : Bool) : Nat → Reader (List Char)
  | 0 => refuse
  | n + 1 => do
    match ← peek with
    | none => refuse
    | some c =>
      if c == '"' then
        if !several then
          skip 1
          return []
        else if ← atText "\"\"\"" then
          skip 3
          return []
        else
          skip 1
          return c :: (← escapedText several n)
      else if c == '\\' then
        skip 1
        let cs ← escape several
        return cs ++ (← escapedText several n)
      else if mayStand several c then
        skip 1
        return c :: (← escapedText several n)
      else refuse

/-- The rest of a text without escapes, and its closing apostrophes. -/
def literalText (several : Bool) : Nat → Reader (List Char)
  | 0 => refuse
  | n + 1 => do
    if ← atText (if several then "'''" else "'") then
      skip (if several then 3 else 1)
      return []
    else
      match ← peek with
      | none => refuse
      | some c =>
        if mayStand several c then
          skip 1
          return c :: (← literalText several n)
        else refuse

/-- Up to two quotes that belong to the end of a text of several lines. -/
def lateQuotes (quote : Char) : Reader (List Char) := do
  let quotes := ((← rest).take 2).takeWhile (· == quote)
  skip quotes.length
  return quotes

/-- A text of several lines; a line end right after its opening is not part of it. -/
def severalLines (quote : Char) : Reader String := do
  skip 3
  if (← peek) = some '\n' then skip 1
  let body ← (do if quote == '"' then escapedText true (← bound) else literalText true (← bound))
  return String.ofList (body ++ (← lateQuotes quote))

/-- A text of one line. -/
def oneLine (quote : Char) : Reader String := do
  skip 1
  let body ← (do if quote == '"' then escapedText false (← bound) else literalText false (← bound))
  return String.ofList body

/-! ## Keys -/

/-- One part of a key. -/
def keyPart : Reader String := do
  match ← peek with
  | none => refuse
  | some c =>
    if isBare c then return String.ofList (← takeWhile isBare)
    else if c == '\'' || c == '"' then oneLine c
    else refuse

/-- The further parts of a key. -/
def keyParts : Nat → Reader Key
  | 0 => return []
  | n + 1 => do
    skipBlanks
    if (← peek) = some '.' then
      skip 1
      skipBlanks
      let part ← keyPart
      return part :: (← keyParts n)
    else return []

/-- A key: parts joined by dots. -/
def key : Reader Key := do
  let first ← keyPart
  return first :: (← keyParts (← bound))

/-! ## Numbers and moments -/

/-- Two digits as a number within bounds, at the start of a text. -/
def twoDigits? (low high : Nat) : List Char → Option (Nat × List Char)
  | a :: b :: rest =>
    if a.isDigit && b.isDigit then
      let n := (a.toNat - 48) * 10 + (b.toNat - 48)
      if low ≤ n && n ≤ high then some (n, rest) else none
    else none
  | _ => none

/-- What follows a given character. -/
def after? (c : Char) : List Char → Option (List Char)
  | d :: rest => if d == c then some rest else none
  | [] => none

/-- Microseconds from the digits of a fraction, of which the first six count. -/
def microseconds (digits : List Char) : Nat :=
  let kept := digits.take 6
  ofDigitValues (kept.map fun c => c.toNat - 48) * Nat.pow 10 (6 - kept.length)

/-- The time of day at the start of a text. -/
def time? (cs : List Char) : Option (TimeOfDay × List Char) := do
  let (hour, cs) ← twoDigits? 0 23 cs
  let cs ← after? ':' cs
  let (minute, cs) ← twoDigits? 0 59 cs
  let cs ← after? ':' cs
  let (second, cs) ← twoDigits? 0 59 cs
  match cs with
  | '.' :: tail =>
    let digits := tail.takeWhile Char.isDigit
    if digits.isEmpty then return (⟨hour, minute, second, 0⟩, cs)
    else return (⟨hour, minute, second, microseconds digits⟩, tail.dropWhile Char.isDigit)
  | _ => return (⟨hour, minute, second, 0⟩, cs)

/-- The date at the start of a text, which may be none that the calendar has. -/
def date? (cs : List Char) : Option (Date × List Char) := do
  let (century, cs) ← twoDigits? 0 99 cs
  let (year, cs) ← twoDigits? 0 99 cs
  let cs ← after? '-' cs
  let (month, cs) ← twoDigits? 1 12 cs
  let cs ← after? '-' cs
  let (day, cs) ← twoDigits? 1 31 cs
  return (⟨century * 100 + year, month, day⟩, cs)

/-- The offset from universal time at the start of a text, in minutes. -/
def offset? : List Char → Option (Int × List Char)
  | c :: rest =>
    if c == 'Z' || c == 'z' then some (0, rest)
    else if c == '+' || c == '-' then do
      let (hours, rest) ← twoDigits? 0 23 rest
      let rest ← after? ':' rest
      let (minutes, rest) ← twoDigits? 0 59 rest
      let total : Int := hours * 60 + minutes
      return (if c == '-' then -total else total, rest)
    else none
  | [] => none

/-- The moment at the start of a text. -/
def moment? (cs : List Char) : Option (Moment × List Char) :=
  match date? cs with
  | some (d, cs) =>
    let withTime := (match cs with
      | c :: tail => if c == 'T' || c == 't' || c == ' ' then time? tail else none
      | [] => none)
    match withTime with
    | none => some (.date d, cs)
    | some (t, cs) =>
      match offset? cs with
      | none => some (.dateTime d t none, cs)
      | some (minutes, cs) => some (.dateTime d t (some minutes), cs)
  | none => (time? cs).map fun (t, cs) => (.time t, cs)

/-- Whether the calendar has the day of a moment. -/
def momentIsValid : Moment → Bool
  | .date d => d.isValid
  | .time _ => true
  | .dateTime d _ _ => d.isValid

/-- The digits at the start of a text, with single underscores between them, and what follows. -/
def digitRun (isDigit : Char → Bool) : List Char → List Char × List Char
  | '_' :: c :: rest =>
    if isDigit c then
      let (ds, after) := digitRun isDigit rest
      (c :: ds, after)
    else ([], '_' :: c :: rest)
  | c :: rest =>
    if isDigit c then
      let (ds, after) := digitRun isDigit rest
      (c :: ds, after)
    else ([], c :: rest)
  | [] => ([], [])

/-- The digits at the start of a text that begins with a digit, and what follows. -/
def digits? (isDigit : Char → Bool) (cs : List Char) : Option (List Char × List Char) :=
  match cs with
  | c :: _ => if isDigit c then some (digitRun isDigit cs) else none
  | [] => none

/-- A whole number in a base other than ten, at the start of a text. -/
def based? : List Char → Option (Int × List Char)
  | '0' :: mark :: rest =>
    let base := if mark == 'x' then 16 else if mark == 'o' then 8 else if mark == 'b' then 2 else 0
    let isDigit := fun (c : Char) => match CodeRange.hexDigit? c with
      | some d => decide (d < base)
      | none => false
    (digits? isDigit rest).map fun (ds, after) =>
      ((ds.foldl (fun n c => n * base + (CodeRange.hexDigit? c).getD 0) 0 : Nat), after)
  | _ => none

/-- The digits of a decimal integer, which begins with zero only if it is zero, and what follows. -/
def decimalDigits? : List Char → Option (List Char × List Char)
  | '0' :: rest => some (['0'], rest)
  | cs => digits? Char.isDigit cs

/-- The fraction at the start of a text. -/
def fraction? : List Char → Option (List Char × List Char)
  | '.' :: rest => digits? Char.isDigit rest
  | _ => none

/-- The exponent at the start of a text. -/
def exponent? : List Char → Option (Int × List Char)
  | c :: rest =>
    if c == 'e' || c == 'E' then
      let (negative, body) := Reading.sign rest
      (digits? Char.isDigit body).map fun (ds, after) =>
        (Reading.signed negative (ofDigitValues (ds.map fun c => c.toNat - 48)), after)
    else none
  | [] => none

/-- The decimal number at the start of a text, and what follows; a whole one if it has neither a
fraction nor an exponent. -/
def decimal? (cs : List Char) : Option (Except Flaw Value × List Char) := do
  let (negative, body) := Reading.sign cs
  let (before, rest) ← decimalDigits? body
  let value := fun (ds : List Char) => ofDigitValues (ds.map fun c => c.toNat - 48)
  let (after, rest') := (fraction? rest).getD ([], rest)
  match exponent? rest', after with
  | none, [] =>
    if Reading.maxDigits < before.length then return (.error (.tooManyDigits before.length), rest)
    else return (.ok (.int (Reading.signed negative (value before))), rest)
  | none, after =>
    return (.ok (.float (.ofDecimal negative (value (before ++ after)) (-(after.length : Int)))), rest')
  | some (e, rest''), after =>
    return (.ok (.float (.ofDecimal negative (value (before ++ after)) (e - after.length))), rest'')

/-- The names of numbers that have no digits. -/
def specials : List (String × Binary64) :=
  [("inf", .infinite false), ("nan", .nan), ("+inf", .infinite false), ("-inf", .infinite true),
   ("+nan", .nan), ("-nan", .nan)]

/-- A moment or a number. -/
def scalar : Reader Value := do
  let cs ← rest
  match moment? cs with
  | some (m, after) =>
    if momentIsValid m then
      set after
      return .moment m
    else refuse
  | none =>
    match based? cs with
    | some (i, after) =>
      set after
      return .int i
    | none =>
      match decimal? cs with
      | some (.ok v, after) =>
        set after
        return v
      | some (.error flaw, _) => throw flaw
      | none =>
        match specials.find? fun (name, _) => name.toList.isPrefixOf cs with
        | some (name, x) =>
          skip name.length
          return .float x
        | none => refuse

/-! ## Tables -/

/-- The record with the table at a path changed; missing tables on the way are made. The path may lead
through the last table of an array of tables if it is allowed to. -/
def changeAt (throughArrays : Bool) (change : List (String × Value) → Option (List (String × Value))) :
    Key → List (String × Value) → Option (List (String × Value))
  | [], record => change record
  | k :: path, record =>
    match Record.get? k record with
    | none => (changeAt throughArrays change path []).map fun sub => Record.put k (.table sub) record
    | some (.table sub) =>
      (changeAt throughArrays change path sub).map fun sub => Record.put k (.table sub) record
    | some (.list items) =>
      if throughArrays then
        match items.getLast? with
        | some (.table sub) =>
          (changeAt throughArrays change path sub).map fun sub =>
            Record.put k (.list (items.dropLast ++ [.table sub])) record
        | _ => none
      else none
    | some _ => none

/-- Adds a key to a table that does not have it. -/
def addNew (k : String) (v : Value) (record : List (String × Value)) : Option (List (String × Value)) :=
  if Record.has k record then none else some (Record.put k v record)

/-- Appends an empty table to the array of tables at a key. -/
def appendTable (k : String) (record : List (String × Value)) : Option (List (String × Value)) :=
  match Record.get? k record with
  | none => some (Record.put k (.list [.table []]) record)
  | some (.list items) => some (Record.put k (.list (items ++ [.table []])) record)
  | some _ => none

/-- Whether a path leads to or through one of the given paths. -/
def isUnder (paths : List Key) (path : Key) : Bool := paths.any fun p => p.isPrefixOf path

/-- Whether a value is closed to later lines. -/
def isClosed : Value → Bool
  | .table _ => true
  | .list _ => true
  | _ => false

/-- The last part of a key and the path in front of it. -/
def splitLast (path : Key) : Key × String := (path.dropLast, path.getLastD "")

mutual

/-- One value inside others, in a bounded number of steps. -/
def value (stack : Stack) : Nat → List Nest → Reader Value
  | 0, _ => refuse
  | n + 1, nests => do
    if let some words := stack.reading? nests (← rest) then throw (.tooDeep words)
    match ← peek with
    | none => refuse
    | some c =>
      if c == '"' then
        if ← atText "\"\"\"" then return .text (← severalLines c) else return .text (← oneLine c)
      else if c == '\'' then
        if ← atText "'''" then return .text (← severalLines c) else return .text (← oneLine c)
      else if ← atText "true" then
        skip 4
        return .bool true
      else if ← atText "false" then
        skip 5
        return .bool false
      else if c == '[' then
        skip 1
        skipSpace
        return .list (← array stack n (.array :: nests))
      else if c == '\x7b' then
        skip 1
        skipBlanks
        if (← peek) = some '\x7d' then
          skip 1
          return .table []
        else return .table (← inlineTable stack n (.table :: nests) [] [])
      else scalar

/-- The elements of an array and its closing bracket. -/
def array (stack : Stack) : Nat → List Nest → Reader (List Value)
  | 0, _ => refuse
  | n + 1, nests => do
    if (← peek) = some ']' then
      skip 1
      return []
    else
      let first ← value stack n nests
      skipSpace
      match ← peek with
      | some ']' =>
        skip 1
        return [first]
      | some ',' =>
        skip 1
        skipSpace
        return first :: (← array stack n nests)
      | _ => refuse

/-- The entries of an inline table and its closing brace, put into the entries before them. -/
def inlineTable (stack : Stack) :
    Nat → List Nest → List Key → List (String × Value) → Reader (List (String × Value))
  | 0, _, _, _ => refuse
  | n + 1, nests, closed, record => do
    let path ← key
    if (← peek) = some '=' then
      skip 1
      skipBlanks
      let v ← value stack n nests
      if isUnder closed path then refuse
      else
        let (parent, last) := splitLast path
        match changeAt false (addNew last v) parent record with
        | none => refuse
        | some record =>
          skipBlanks
          match ← peek with
          | some '\x7d' =>
            skip 1
            return record
          | some ',' =>
            skip 1
            skipBlanks
            inlineTable stack n nests (if isClosed v then path :: closed else closed) record
          | _ => refuse
    else refuse

end

/-! ## Documents -/

/-- What was read of a document. -/
structure State where
  root : List (String × Value) := []
  /-- The table that lines are added to. -/
  header : Key := []
  /-- Tables that cannot be opened again. -/
  opened : List Key := []
  /-- Tables that cannot be opened from the next header on. -/
  pending : List Key := []
  /-- Values that are closed to later lines. -/
  closed : List Key := []

/-- The header of a table, after its opening bracket. -/
def tableHeader (s : State) : Reader State := do
  skipBlanks
  let path ← key
  if s.opened.contains path || isUnder s.closed path then refuse
  else
    match changeAt true some path s.root with
    | none => refuse
    | some root =>
      if (← peek) = some ']' then
        skip 1
        return { s with root := root, header := path, opened := path :: s.opened }
      else refuse

/-- The header of an array of tables, after its opening brackets. -/
def arrayHeader (s : State) : Reader State := do
  skipBlanks
  let path ← key
  if isUnder s.closed path then refuse
  else
    let (parent, last) := splitLast path
    let outside := fun (paths : List Key) => paths.filter fun p => !path.isPrefixOf p
    match changeAt true (appendTable last) parent s.root with
    | none => refuse
    | some root =>
      if ← atText "]]" then
        skip 2
        return { s with
          root := root
          header := path
          opened := path :: outside s.opened
          closed := outside s.closed }
      else refuse

/-- The tables that a dotted key leads through, from the header on. -/
def tablesBefore (header path : Key) : List Key :=
  (List.range (path.length - 1)).map fun i => header ++ path.take (i + 1)

/-- A line with a key and a value. -/
def keyValue (stack : Stack) (s : State) : Reader State := do
  let path ← key
  if (← peek) = some '=' then
    skip 1
    skipBlanks
    let v ← value stack (2 * (← bound)) []
    let (parent, last) := splitLast path
    let between := tablesBefore s.header path
    if between.any s.opened.contains || isUnder s.closed (s.header ++ parent) then refuse
    else
      match changeAt true (addNew last v) (s.header ++ parent) s.root with
      | none => refuse
      | some root =>
        return { s with
          root := root
          pending := between ++ s.pending
          closed := if isClosed v then (s.header ++ path) :: s.closed else s.closed }
  else refuse

/-- One line without its end. -/
def statement (stack : Stack) (s : State) : Reader State := do
  match ← peek with
  | none => return s
  | some c =>
    if isBare c || c == '"' || c == '\'' then keyValue stack s
    else if c == '[' then
      let s := { s with opened := s.pending ++ s.opened, pending := [] }
      if ← atText "[[" then
        skip 2
        arrayHeader s
      else
        skip 1
        tableHeader s
    else if c == '#' || c == '\n' then return s
    else refuse

/-- The lines of a document, in a bounded number of steps. -/
def statements (stack : Stack) : Nat → State → Reader State
  | 0, _ => refuse
  | n + 1, s => do
    skipBlanks
    let s ← statement stack s
    skipBlanks
    skipComment
    match ← peek with
    | none => return s
    | some '\n' =>
      skip 1
      statements stack n s
    | some _ => refuse

/-- Pairs of a carriage return and a line feed as line feeds. -/
def unifyLineEnds : List Char → List Char
  | '\r' :: '\n' :: rest => '\n' :: unifyLineEnds rest
  | c :: rest => c :: unifyLineEnds rest
  | [] => []

/-- Reads a document into one table. -/
def ofText (text : String) (stack : Stack := {}) : Except Flaw (List (String × Value)) :=
  let cs := unifyLineEnds text.toList
  ((statements stack (cs.length + 1) {}).run cs).map (·.1.root)

end Hotspots.Document
