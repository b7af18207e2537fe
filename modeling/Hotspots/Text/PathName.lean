import Hotspots.Text.Pieces
import Hotspots.Text.Utf8

/-!
# Path names

A path is a sequence of names between slashes; empty names and single dots name nothing. The suffix of
a path is what its last name has from its last dot on, if a name stands in front of the dot and
something follows it.
-/

namespace Hotspots.PathName

/-- The names of a path, in order. -/
def names (path : String) : List String :=
  ((Pieces.splitOn '/' path.toList).map String.ofList).filter fun name => name ≠ "" && name ≠ "."

/-- How many slashes the root of a path has: none, one, or two if it begins with exactly two. -/
def rootText (path : String) : String :=
  match path.toList with
  | '/' :: '/' :: '/' :: _ => "/"
  | '/' :: '/' :: _ => "//"
  | '/' :: _ => "/"
  | _ => ""

/-- A path without the names that name nothing; the empty path is a dot. -/
def tidy (path : String) : String :=
  let text := rootText path ++ "/".intercalate (names path)
  if text.isEmpty then "." else text

/-- Whether a name has more bytes than the system takes. -/
def isLongName (name : String) : Bool := 255 < (Utf8.encode name).length

/-- Whether a path has more bytes than the system takes. -/
def isLongPath (path : String) : Bool := 4096 ≤ (Utf8.encode path).length

/-- The last name of a path; empty if it has none. -/
def lastName (path : String) : String := (names path).getLastD ""

/-- What a name has from its last dot on. -/
def suffixOfName (name : List Char) : List Char :=
  let after := (name.reverse.takeWhile (· != '.')).reverse
  let before := name.length - after.length
  if before ≤ 1 || after.isEmpty then [] else '.' :: after

/-- The suffix of a path. -/
def suffix (path : String) : String := String.ofList (suffixOfName (lastName path).toList)

end Hotspots.PathName
