import Hotspots.Config.Document
import Hotspots.Git.Recording

/-!
# Transcripts of repositories

A transcript is a recording written down as a document of tables: `revisions` gives the commits that names stand
for, `logs` the log records of commits, `trees` their files as lists of mode, kind, identifier and path, and
`objects` the contents of blobs. What a transcript leaves out is empty.
-/

namespace Hotspots.Transcript

/-- The entries of a table of a document. -/
def tableAt (document : List (String × Value)) (key : String) : List (String × Value) :=
  match Record.get? key document with
  | some (.table entries) => entries
  | _ => []

/-- The text of a value, if it is one. -/
def text? : Value → Option String
  | .text s => some s
  | _ => none

/-- The elements of a value, if it is a list. -/
def items : Value → List Value
  | .list vs => vs
  | _ => []

/-- The entries of a table whose values can be read. -/
def readAll {α : Type} (read : Value → Option α) (entries : List (String × Value)) : List (String × α) :=
  entries.filterMap fun (k, v) => (read v).map fun a => (k, a)

/-- A list of bytes from a list of texts. -/
def records (v : Value) : List Bytes := (items v).filterMap fun r => (text? r).map Utf8.encode

/-- One line of a file listing. -/
def entry? (v : Value) : Option TreeEntry :=
  match items v with
  | [.text mode, .text kind, .text oid, .text path] => some ⟨mode, kind, oid, Utf8.encode path⟩
  | _ => none

/-- The recording that a document describes. -/
def ofDocument (document : List (String × Value)) : Recording :=
  { revisions := readAll text? (tableAt document "revisions")
    logs := readAll (fun v => some (records v)) (tableAt document "logs")
    trees := readAll (fun v => some (.entries ((items v).filterMap entry?))) (tableAt document "trees")
    objects := readAll (fun v => (text? v).map fun s => .object "blob" (Utf8.encode s))
      (tableAt document "objects") }

/-- The recording that a text describes; a malformed text describes an empty one. -/
def ofText (s : String) : Recording :=
  match Document.ofText s with
  | .ok document => ofDocument document
  | .error _ => {}

end Hotspots.Transcript
