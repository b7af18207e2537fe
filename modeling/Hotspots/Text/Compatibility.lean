import Hotspots.Text.CombiningMark

/-!
# Compatibility composition

Two spellings of an identifier are the same when their compatibility compositions are: every
character is decomposed, runs of combining marks are put into class order, and pairs that compose are
composed again. Syllable blocks are decomposed and composed by arithmetic on their code points.
-/

namespace Hotspots.Compatibility

open CombiningMark (Row classRows pairRows decompositionRows)

/-- The row that covers a code point. -/
def row? (rows : Array Row) (code : Nat) : Option Row :=
  rows.find? fun r => r.first ≤ code && code ≤ r.last

/-- The order class of a combining mark; 0 for every other character. -/
def orderClass (code : Nat) : Nat :=
  ((row? classRows code).bind (·.noted.head?)).getD 0

/-- The first syllable block and the counts of vowels and of final consonants. -/
def syllableBase : Nat := 0xAC00

/-- A syllable block as its initial consonant, its vowel and its final consonant, if any. -/
def decomposeSyllable (code : Nat) : List Nat :=
  let index := code - syllableBase
  let final := index % 28
  [0x1100 + index / 588, 0x1161 + index % 588 / 28] ++ (if final = 0 then [] else [0x11A7 + final])

/-- The full compatibility decomposition of one code point. -/
def decompose (code : Nat) : List Nat :=
  if code < 128 then [code]
  else if syllableBase ≤ code ∧ code < syllableBase + 11172 then decomposeSyllable code
  else match row? decompositionRows code with
    | none => [code]
    | some r => if r.first = r.last then r.noted else r.noted.map (· + (code - r.first))

/-- Puts a mark into a run of marks in reverse order, after every mark of the same or a lower class. -/
def insertMark (code cls : Nat) : List (Nat × Nat) → List (Nat × Nat)
  | [] => [(code, cls)]
  | (c, k) :: rest =>
    if cls < k then (c, k) :: insertMark code cls rest else (code, cls) :: (c, k) :: rest

/-- Code points with their classes, each run of marks in class order; the list is in reverse. -/
def orderMarks (codes : List Nat) : List (Nat × Nat) :=
  (codes.foldl (fun reversed code =>
    let cls := orderClass code
    if cls = 0 then (code, 0) :: reversed else insertMark code cls reversed) []).reverse

/-- The character that a pair composes into. -/
def composePair? (first second : Nat) : Option Nat :=
  if 0x1100 ≤ first ∧ first < 0x1113 ∧ 0x1161 ≤ second ∧ second < 0x1176 then
    some (syllableBase + ((first - 0x1100) * 21 + (second - 0x1161)) * 28)
  else if syllableBase ≤ first ∧ first < syllableBase + 11172 ∧ (first - syllableBase) % 28 = 0
      ∧ 0x11A7 < second ∧ second < 0x11C3 then
    some (first + (second - 0x11A7))
  else (pairRows.find? fun r => r.noted == [first, second]).map (·.first)

/-- Composes what follows a starter into it: a mark that is not blocked by one of its class or
higher, or a starter that comes right after it. `kept` holds in reverse what stays uncomposed. -/
def composeFrom (starter : Nat) (kept : List (Nat × Nat)) : List (Nat × Nat) → List Nat
  | [] => starter :: kept.reverse.map (·.1)
  | (code, cls) :: rest =>
    let blocked := match kept with
      | [] => false
      | (_, k) :: _ => cls ≤ k || cls == 0
    match (if blocked then none else composePair? starter code) with
    | some composed => composeFrom composed kept rest
    | none =>
      if cls = 0 then starter :: kept.reverse.map (·.1) ++ composeFrom code [] rest
      else composeFrom starter ((code, cls) :: kept) rest

/-- Composes a list whose marks are in order; marks in front of the first starter stay. -/
def compose : List (Nat × Nat) → List Nat
  | [] => []
  | (code, cls) :: rest => if cls = 0 then composeFrom code [] rest else code :: compose rest

/-- The compatibility composition of an identifier. -/
def normalize (name : String) : String :=
  if name.toList.all (·.toNat < 128) then name
  else
    let codes := name.toList.flatMap fun c => decompose c.toNat
    String.ofList ((compose (orderMarks codes)).map Char.ofNat)

end Hotspots.Compatibility
