import Hotspots.History.Change
import Hotspots.Number.Reading
import Hotspots.Session
import Hotspots.Text.CQuoted

/-!
# The raw log of a history

A log is a sequence of records. Each begins with a record separator and a header of three fields between
unit separators: the commit, its parents and its time. Lines that begin with a colon list the changes:
two modes, two blobs, a status and, after a tab, the path. Commits of other repositories that a tree
links to are no blobs here.
-/

namespace Hotspots.RawLog

/-- The character between records. -/
def recordSeparator : Char := Char.ofNat 0x1E

/-- The character between the fields of a header. -/
def unitSeparator : Char := Char.ofNat 0x1F

/-- The mode of a link to a commit of another repository. -/
def linkMode : String := "160000"

/-- The identifier that stands for no object. -/
def nullId : String := String.ofList (List.replicate 40 '0')

/-- Whether an identifier names no object. -/
def isNull (id : String) : Bool := id.toList.all (· == '0')

/-- An identifier, if it names an object. -/
def blob? (id : String) : Option String := if isNull id then none else some id

/-- The kind of change of a status; a change of the file's type counts as an edit. -/
def kindOfStatus? (status : String) : Option ChangeKind :=
  match status.toList.head? with
  | some 'A' => some .added
  | some 'M' => some .modified
  | some 'T' => some .modified
  | some 'D' => some .deleted
  | _ => none

/-- The columns of a line in front of the path. -/
structure Columns where
  oldMode : String
  newMode : String
  oldId : String
  newId : String
  status : String
  deriving DecidableEq, Repr

namespace Columns

/-- The first five words of a text. -/
def ofText? (s : String) : Option Columns :=
  match Blank.words s with
  | oldMode :: newMode :: oldId :: newId :: status :: _ => some ⟨oldMode, newMode, oldId, newId, status⟩
  | _ => none

/-- Whether one of the sides is a link to another repository. -/
def hasLink (c : Columns) : Bool := c.oldMode == linkMode || c.newMode == linkMode

/-- The blob before the change; a link has none. -/
def oldBlob (c : Columns) : Option String := if c.oldMode = linkMode then none else blob? c.oldId

/-- The blob after the change; a link has none. -/
def newBlob (c : Columns) : Option String := if c.newMode = linkMode then none else blob? c.newId

/-- What the log says of a change to or from a link: nothing if no blob is left, and otherwise that the
blob is added or deleted. -/
def linkKind? (c : Columns) : Option ChangeKind :=
  match c.oldBlob, c.newBlob with
  | none, none => none
  | none, some _ => some .added
  | some _, _ => some .deleted

end Columns

variable {σ : Type} [HasSession σ]

/-- A change that is passed over, with a reason in the log. -/
def ignored (reason : String) : Run σ (Option FileChange) := do
  Run.log .debug ("Ignoring " ++ reason)
  return none

/-- The change with a path as it is written. -/
def changeAt (c : Columns) (kind : ChangeKind) (writtenPath : String) : Run σ (Option FileChange) := do
  let path ← Run.ofFault (CQuoted.path writtenPath)
  return some { kind := kind, path := path, oldBlob := c.oldBlob, newBlob := c.newBlob }

/-- The change that columns and a path as it is written describe. -/
def change (c : Columns) (writtenPath : String) : Run σ (Option FileChange) :=
  match kindOfStatus? c.status with
  | none => ignored (c.status ++ " change for " ++ writtenPath)
  | some kind =>
    if c.hasLink then
      match c.linkKind? with
      | none => ignored ("submodule change for " ++ writtenPath)
      | some kind => changeAt c kind writtenPath
    else changeAt c kind writtenPath

/-- The change that a line describes, if it describes one. -/
def changeOfLine (line : String) : Run σ (Option FileChange) :=
  match line.toList with
  | ':' :: rest =>
    let (columns, path) := Pieces.partition '\t' rest
    if path.isEmpty then return none
    else
      match Columns.ofText? (String.ofList columns) with
      | none => return none
      | some c => change c (String.ofList path)
  | _ => return none

/-- Whether a character is a lower-case hexadecimal digit. -/
def isHexDigit (c : Char) : Bool := ('0' ≤ c && c ≤ '9') || ('a' ≤ c && c ≤ 'f')

/-- The fields of a header, if they have the right form. -/
def fieldsOfHeader? (header : List Char) : Option (List Char × List Char × List Char) :=
  match Pieces.splitOn unitSeparator header with
  | [sha, parents, time] =>
    if 40 ≤ sha.length && sha.length ≤ 64 && sha.all isHexDigit
      && parents.all (fun c => isHexDigit c || c == ' ')
      && !time.isEmpty && time.all (fun c => (DecimalDigit.value? c).isSome)
    then some (sha, parents, time) else none
  | _ => none

/-- The changes that lines describe. -/
def changesOfLines : List (List Char) → Run σ (List FileChange)
  | [] => return []
  | line :: rest => do
    let change ← changeOfLine (String.ofList line)
    let more ← changesOfLines rest
    return change.toList ++ more

/-- What is said of a header that does not have the right form. -/
def badHeader (header : List Char) : String :=
  "unexpected log header " ++ Quoted.text (String.ofList header)

/-- The commit of a record, or none if the record has no header; `location` is the repository. -/
def commitOfRecord (location : String) (record : List Char) : Run σ (Option Commit) :=
  match Pieces.splitOn '\n' record with
  | [] => return none
  | first :: lines =>
    let header := Blank.trim first
    if header.isEmpty then return none
    else
      match fieldsOfHeader? header with
      | none =>
        Run.fail (.triage (.command (.text location) ["log"] (.int 0) (badHeader header)))
      | some (sha, parents, time) => do
        let changes ← changesOfLines lines
        let timestamp ← Run.ofFault (Reading.wholeOfText (String.ofList time))
        return some
          { sha := String.ofList sha
            timestamp := timestamp
            parents := Blank.words (String.ofList parents)
            changes := changes }

/-- The commits of records, in order. -/
def commitsOfRecords (location : String) : List (List Char) → Run σ (List Commit)
  | [] => return []
  | record :: rest => do
    let commit ← commitOfRecord location record
    let more ← commitsOfRecords location rest
    return commit.toList ++ more

/-- The commits of a log, in order, with their changes as they are listed. -/
def commits (location : String) (log : String) : Run σ (List Commit) :=
  commitsOfRecords location (Pieces.splitOn recordSeparator log.toList)

end Hotspots.RawLog
