/-!
# Text as bytes

`items` cuts a byte string into well-formed characters and maximal malformed stretches, each with the
reason why it is malformed. A strict reading fails at the first malformed stretch, a lossy reading
writes one replacement character for each. `encode` is the way back.
-/

namespace Hotspots

/-- A byte string. -/
abbrev Bytes := List UInt8

namespace Utf8

/-- Why a stretch of bytes is no character. -/
inductive Fault where
  | invalidStart
  | invalidContinuation
  | unexpectedEnd
  deriving DecidableEq, Repr

/-- The wording of a fault. -/
def Fault.message : Fault → String
  | .invalidStart => "invalid start byte"
  | .invalidContinuation => "invalid continuation byte"
  | .unexpectedEnd => "unexpected end of data"

/-- One piece of a byte string: a character and the number of its bytes, or a malformed stretch. -/
inductive Item where
  | char (c : Char) (width : Nat)
  | malformed (fault : Fault) (stretch : Bytes)
  deriving Repr

/-- The number of bytes of a piece. -/
def Item.width : Item → Nat
  | .char _ width => width
  | .malformed _ stretch => stretch.length

/-- Whether a byte continues a character. -/
def isContinuation (b : UInt8) : Bool := 0x80 ≤ b && b < 0xC0

/-- The six low bits of a continuation byte. -/
def low (b : UInt8) : Nat := b.toNat % 64

/-- The character of a code point. -/
def charOf (code : Nat) : Item := .char (Char.ofNat code) (if code < 0x80 then 1
  else if code < 0x800 then 2 else if code < 0x10000 then 3 else 4)

/-- Whether the second byte of a longer sequence is allowed after the first. -/
def allowsSecond (first second : UInt8) : Bool :=
  isContinuation second
    && !(first == 0xE0 && second < 0xA0) && !(first == 0xED && 0xA0 ≤ second)
    && !(first == 0xF0 && second < 0x90) && !(first == 0xF4 && 0x90 ≤ second)

/-- The piece that begins with a byte and goes on with the bytes after it. -/
def item (first : UInt8) (rest : Bytes) : Item :=
  if first < 0x80 then charOf first.toNat
  else if first < 0xC2 || 0xF5 ≤ first then .malformed .invalidStart [first]
  else
    match rest with
    | [] => .malformed .unexpectedEnd [first]
    | second :: rest =>
      if !allowsSecond first second then .malformed .invalidContinuation [first]
      else if first < 0xE0 then charOf (first.toNat % 32 * 64 + low second)
      else
        match rest with
        | [] => .malformed .unexpectedEnd [first, second]
        | third :: rest =>
          if !isContinuation third then .malformed .invalidContinuation [first, second]
          else if first < 0xF0 then
            charOf (first.toNat % 16 * 4096 + low second * 64 + low third)
          else
            match rest with
            | [] => .malformed .unexpectedEnd [first, second, third]
            | fourth :: _ =>
              if !isContinuation fourth then .malformed .invalidContinuation [first, second, third]
              else charOf (first.toNat % 8 * 262144 + low second * 4096 + low third * 64 + low fourth)

/-- The pieces of a byte string, with a bound on their number. -/
def itemsUpTo : Nat → Bytes → List Item
  | 0, _ => []
  | _, [] => []
  | bound + 1, first :: rest =>
    let piece := item first rest
    piece :: itemsUpTo bound (rest.drop (piece.width - 1))

/-- The pieces of a byte string. -/
def items (bytes : Bytes) : List Item := itemsUpTo bytes.length bytes

/-- A malformed stretch, where it begins, and why. -/
structure Malformed where
  fault : Fault
  start : Nat
  stretch : Bytes
  deriving DecidableEq, Repr

/-- The characters of pieces that are all characters, or the first malformed stretch. -/
def strictFrom : Nat → List Item → Except Malformed (List Char)
  | _, [] => .ok []
  | start, .char c width :: rest => (strictFrom (start + width) rest).map (c :: ·)
  | start, .malformed fault stretch :: _ => .error ⟨fault, start, stretch⟩

/-- The text of well-formed bytes. -/
def decode (bytes : Bytes) : Except Malformed String :=
  (strictFrom 0 (items bytes)).map String.ofList

/-- What a lossy reading shows for a piece. -/
def Item.shown : Item → Char
  | .char c _ => c
  | .malformed _ _ => '\uFFFD'

/-- The text of any bytes, with one replacement character for each malformed stretch. -/
def decodeLossy (bytes : Bytes) : String := String.ofList ((items bytes).map Item.shown)

/-- The bytes of one character. -/
def encodeChar (c : Char) : Bytes :=
  let n := c.toNat
  if n < 0x80 then [n.toUInt8]
  else if n < 0x800 then [(0xC0 + n / 64).toUInt8, (0x80 + n % 64).toUInt8]
  else if n < 0x10000 then
    [(0xE0 + n / 4096).toUInt8, (0x80 + n / 64 % 64).toUInt8, (0x80 + n % 64).toUInt8]
  else
    [(0xF0 + n / 262144).toUInt8, (0x80 + n / 4096 % 64).toUInt8, (0x80 + n / 64 % 64).toUInt8,
      (0x80 + n % 64).toUInt8]

/-- The bytes of a list of characters. -/
def encodeChars (cs : List Char) : Bytes := cs.flatMap encodeChar

/-- The bytes of a text. -/
def encode (s : String) : Bytes := encodeChars s.toList

/-- The lower-case hexadecimal digit of a value below 16. -/
def hexDigit (n : Nat) : Char := Char.ofNat (if n < 10 then 48 + n else 87 + n)

/-- A byte as two hexadecimal digits. -/
def hexByte (b : UInt8) : String := String.ofList [hexDigit (b.toNat / 16), hexDigit (b.toNat % 16)]

end Utf8

end Hotspots
