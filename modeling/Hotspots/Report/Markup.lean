import Hotspots.Failure

/-!
# Marked-up text

Text for the terminal can hold tags in brackets that set a style, such as `[red]`, and tags with a slash that
end one. `plain` is the text without its tags: a tag in brackets after a backslash stands for itself, a bare
closing tag ends the last style, and a closing tag that ends nothing is a fault.
-/

namespace Hotspots.Markup

/-- A piece of marked-up text. -/
inductive Piece where
  | text (cs : List Char)
  /-- A tag, and where it begins. -/
  | tag (cs : List Char) (position : Nat)
  deriving Repr

/-- Whether a character may begin a tag. -/
def beginsTag (c : Char) : Bool := ('a' ≤ c && c ≤ 'z') || c == '#' || c == '/' || c == '@'

/-- The text of a tag after its opening bracket. -/
def tag? : List Char → Option (List Char)
  | c :: rest =>
    let inside := rest.takeWhile fun d => d != '[' && d != ']'
    if beginsTag c && (rest.drop inside.length).head? == some ']' then some (c :: inside) else none
  | [] => none

/-- The backslashes at the start of a text, and the tag after them. -/
def escapedTag? (cs : List Char) : Option (Nat × List Char) :=
  let slashes := (cs.takeWhile (· == '\\')).length
  match cs.drop slashes with
  | '[' :: rest => (tag? rest).map fun t => (slashes, t)
  | _ => none

/-- Text in front of pieces. -/
def withText (cs : List Char) (pieces : List Piece) : List Piece :=
  if cs.isEmpty then pieces else .text cs :: pieces

/-- The pieces that a tag after backslashes stands for: each two backslashes stand for one, and one that is
left takes the meaning from the tag. -/
def tagPieces (slashes : Nat) (t : List Char) (position : Nat) : List Piece :=
  withText (List.replicate (slashes / 2) '\\')
    (if slashes % 2 = 1 then [.text ('[' :: t ++ [']'])] else [.tag t (position + slashes / 2 * 2)])

/-- The pieces of marked-up text after some text, in reverse, that belongs to no tag. -/
def piecesFrom (position : Nat) (before : List Char) (cs : List Char) : List Piece :=
  match cs with
  | [] => withText before.reverse []
  | c :: rest =>
    match escapedTag? (c :: rest) with
    | none => piecesFrom (position + 1) (c :: before) rest
    | some (slashes, t) =>
      let length := slashes + t.length + 2
      withText before.reverse (tagPieces slashes t position
        ++ piecesFrom (position + length) [] (rest.drop (length - 1)))
termination_by cs.length
decreasing_by
  · simp
  · simp only [List.length_cons, List.length_drop]
    omega

/-- The pieces of marked-up text. -/
def pieces (cs : List Char) : List Piece := piecesFrom 0 [] cs

/-- Text in which a backslash in front of a bracket is dropped. -/
def unescaped : List Char → List Char
  | '\\' :: '[' :: rest => '[' :: unescaped rest
  | c :: rest => c :: unescaped rest
  | [] => []

/-- The short names of styles. -/
def shortNames : List (String × String) :=
  [("b", "bold"), ("i", "italic"), ("u", "underline"), ("d", "dim"), ("s", "strike"), ("r", "reverse"),
   ("c", "conceal"), ("o", "overline"), ("uu", "underline2")]

/-- The name of a style: its words in lower case, in order, with short names written out. -/
def styleName (cs : List Char) : String :=
  let words := Blank.words (String.ofList (cs.map Char.toLower))
  " ".intercalate (words.map fun w => ((shortNames.find? fun e => e.1 == w).map Prod.snd).getD w)

/-- The name of a tag, and what follows an equals sign. -/
def parts (t : List Char) : List Char × List Char := Pieces.partition '=' t

/-- A fault of the markup. -/
def fault (text : String) : Fault := .other "MarkupError" text

/-- What is said of a closing tag that ends no style. -/
def unmatched (t : List Char) (position : Nat) : Fault :=
  fault ("closing tag '[" ++ String.ofList t ++ "]' at position " ++ natText position
    ++ " doesn't match any open tag")

/-- What is said of a bare closing tag without a style to end. -/
def nothingToClose (position : Nat) : Fault :=
  fault ("closing tag '[/]' at position " ++ natText position ++ " has nothing to close")

/-- The styles that are still set after a tag; the last one set is the first of the list. -/
def afterTag (set : List String) (t : List Char) (position : Nat) : Except Fault (List String) :=
  match (parts t).1 with
  | '/' :: rest =>
    let closed := Blank.trim rest
    if closed.isEmpty then
      match set with
      | [] => .error (nothingToClose position)
      | _ :: more => .ok more
    else if set.contains (styleName closed) then .ok (set.erase (styleName closed))
    else .error (unmatched t position)
  | name => .ok (styleName name :: set)

/-- The text of pieces without tags. -/
def plainOf : List String → List Piece → Except Fault (List Char)
  | _, [] => .ok []
  | set, .text cs :: rest => (plainOf set rest).map (unescaped cs ++ ·)
  | set, .tag t position :: rest => do plainOf (← afterTag set t position) rest

/-- Whether a character only controls the terminal. -/
def isControl (c : Char) : Bool :=
  c.toNat = 7 || c.toNat = 8 || c.toNat = 11 || c.toNat = 12 || c.toNat = 13

/-- Marked-up text without its tags and without characters that control the terminal. -/
def plain (s : String) : Except Fault String :=
  let shown := if s.toList.contains '[' then plainOf [] (pieces s.toList) else .ok s.toList
  shown.map fun cs => String.ofList (cs.filter fun c => !isControl c)

end Hotspots.Markup
