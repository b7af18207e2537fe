/-!
# Tokens

A source text is a sequence of names, numbers, string literals and operators, with tokens for the end
of a logical line and for the opening and closing of an indented block.
-/

namespace Hotspots.Source

/-- What a number literal holds, as far as acceptance depends on it. -/
inductive NumberKind where
  | real
  | imaginary
  deriving DecidableEq, Repr

/-- A string literal as written: its prefix letters in lower case and the text between its quotes. -/
structure StringText where
  letters : List Char
  body : List Char
  deriving DecidableEq, Repr

/-- One token. -/
inductive Token where
  /-- A word of the source as written; keywords are words too. -/
  | word (text : String)
  | number (kind : NumberKind)
  | string (text : StringText)
  | op (text : String)
  | newline
  | indent
  | dedent
  deriving DecidableEq, Repr

/-- A token and the line on which it starts, counted from 1. -/
structure Placed where
  token : Token
  line : Nat
  deriving DecidableEq, Repr

end Hotspots.Source
