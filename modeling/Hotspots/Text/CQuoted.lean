import Hotspots.Failure

/-!
# Path names in C-style quotes

A path name with unusual bytes is written between double quotes, with escapes in the style of C: a letter
for some control characters, up to three octal digits, or an `x` with two hexadecimal digits. An escape
that is not known stands for itself, and an escaped line end for nothing.
-/

namespace Hotspots.CQuoted

/-- Whether a byte is an octal digit. -/
def isOctal (b : UInt8) : Bool := 48 ≤ b && b ≤ 55

/-- The value of a hexadecimal digit. -/
def hexValue? (b : UInt8) : Option Nat := CodeRange.hexDigit? (Char.ofNat b.toNat)

/-- The number that octal digits spell, cut to a byte. -/
def octalValue (digits : Bytes) : UInt8 :=
  (digits.foldl (fun (n : Nat) (b : UInt8) => n * 8 + (b.toNat - 48)) 0).toUInt8

/-- The byte that a letter after a backslash stands for. -/
def letter? (b : UInt8) : Option UInt8 :=
  if b = 92 ∨ b = 39 ∨ b = 34 then some b
  else if b = 97 then some 7
  else if b = 98 then some 8
  else if b = 102 then some 12
  else if b = 110 then some 10
  else if b = 114 then some 13
  else if b = 116 then some 9
  else if b = 118 then some 11
  else none

/-- The two digits of a hexadecimal escape, and what follows them. -/
def hexEscape? : Bytes → Option (UInt8 × Bytes)
  | a :: b :: rest =>
    match hexValue? a, hexValue? b with
    | some x, some y => some ((x * 16 + y).toUInt8, rest)
    | _, _ => none
  | _ => none

/-- What an escape stands for, and what follows it; the escape begins with the byte after the backslash,
and `position` is the place of the backslash. -/
def escape (position : Nat) (b : UInt8) (rest : Bytes) : Except Fault (Bytes × Bytes) :=
  if b = 10 then .ok ([], rest)
  else if isOctal b then
    let more := (rest.takeWhile isOctal).take 2
    .ok ([octalValue (b :: more)], rest.drop more.length)
  else if b = 120 then
    match hexEscape? rest with
    | some (byte, after) => .ok ([byte], after)
    | none => .error (.incompleteEscape position)
  else
    match letter? b with
    | some byte => .ok ([byte], rest)
    | none => .ok ([92, b], rest)

/-- A hexadecimal escape leaves less than it was given. -/
theorem hexEscape?_length {rest after : Bytes} {byte : UInt8} (h : hexEscape? rest = some (byte, after)) :
    after.length ≤ rest.length := by
  unfold hexEscape? at h
  split at h
  · split at h
    · cases h; simp; omega
    · cases h
  · cases h

/-- An escape leaves no more than it was given. -/
theorem escape_length {position : Nat} {b : UInt8} {rest out after : Bytes}
    (h : escape position b rest = .ok (out, after)) : after.length ≤ rest.length := by
  unfold escape at h
  split at h
  · cases h; exact Nat.le_refl _
  · split at h
    · cases h; simp
    · split at h
      · split at h
        · next hex => cases h; exact hexEscape?_length hex
        · cases h
      · split at h <;> (cases h; exact Nat.le_refl _)

/-- The bytes that quoted bytes stand for; `total` is the length of all of them. -/
def unescape (total : Nat) (bytes : Bytes) : Except Fault Bytes :=
  match bytes with
  | [] => .ok []
  | b :: rest =>
    if b = 92 then
      match rest with
      | [] => .error .trailingBackslash
      | c :: after =>
        match h : escape (total - (after.length + 2)) c after with
        | .error e => .error e
        | .ok (out, left) =>
          have : left.length ≤ after.length := escape_length h
          (unescape total left).map (out ++ ·)
    else (unescape total rest).map (b :: ·)
termination_by bytes.length

/-- The characters between two double quotes. -/
def inside? : List Char → Option (List Char)
  | '"' :: rest => if rest.getLast? = some '"' then some rest.dropLast else none
  | _ => none

/-- The path name that a text stands for: itself, unless it is quoted. Malformed bytes are replaced. -/
def path (s : String) : Except Fault String :=
  match inside? s.toList with
  | none => .ok s
  | some cs =>
    let bytes := Utf8.encodeChars cs
    (unescape bytes.length bytes).map Utf8.decodeLossy

end Hotspots.CQuoted
