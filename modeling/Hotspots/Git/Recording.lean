import Hotspots.Config.Folder
import Hotspots.Git.Command
import Hotspots.Record

/-!
# Recorded repositories

A recording holds what a repository answers as tables: the commits that revisions name, the log records
and the file listings of commits, and the objects of the helper. A command can also be recorded to end in
another way.
-/

namespace Hotspots

/-- One line of a file listing. -/
structure TreeEntry where
  mode : String
  kind : String
  oid : String
  path : Bytes
  deriving DecidableEq, Repr

/-- A file listing: its lines, or the exact output. -/
inductive Listing where
  | entries (lines : List TreeEntry)
  | exact (output : Bytes)
  deriving Repr

/-- An object of the helper, or what the helper does when it is asked for. -/
inductive StoredObject where
  | object (kind : String) (content : Bytes)
  | reply (output : Bytes)
  | ambiguous
  | exits
  | broken
  deriving Repr

/-- What a repository answers, as tables. -/
structure Recording where
  revisions : List (String × String) := []
  logs : List (String × List Bytes) := []
  trees : List (String × Listing) := []
  objects : List (String × StoredObject) := []
  /-- Commands that end in another way, by name. -/
  endings : List (String × Ending) := []
  /-- The name of a command, and the time at which the run is cancelled while it runs. -/
  cancelAt : Option (String × Nat) := none
  /-- The files of the folder that the program runs in. -/
  folder : Folder := []
  deriving Repr

namespace TreeEntry

/-- An entry as it is listed. -/
def line (e : TreeEntry) : Bytes :=
  Utf8.encode (e.mode ++ " " ++ e.kind ++ " " ++ e.oid ++ "\t") ++ e.path ++ [0]

end TreeEntry

namespace Recording

/-- A command that succeeds. -/
def printed (output : Bytes) : Ending := .exited 0 output []

/-- The commit that a revision names. -/
def commitOf? (r : Recording) (revision : String) : Option String :=
  match Record.get? revision r.revisions with
  | some sha => some sha
  | none => if Record.has revision r.logs || Record.has revision r.trees then some revision else none

/-- The newest records of a log, or all. -/
def newest (limit : Option Value) (records : List Bytes) : List Bytes :=
  match limit.bind Value.number? with
  | some (.whole n) => records.drop (records.length - n.toNat)
  | some (.real x) => records.drop (records.length - (x.truncate?.getD 0).toNat)
  | none => records

/-- The output of a listing. -/
def listingOutput : Listing → Bytes
  | .entries lines => lines.flatMap TreeEntry.line
  | .exact output => output

/-- How a command ends if nothing else is recorded. -/
def usual (r : Recording) : GitCommand → Ending
  | .gitDir => printed (Utf8.encode ".git\n")
  | .verify revision =>
    match r.commitOf? revision with
    | some sha => printed (Utf8.encode (sha ++ "\n"))
    | none => .exited 1 [] []
  | .log limit sha => printed (newest limit ((Record.get? sha r.logs).getD [])).flatten
  | .listTree sha => printed (((Record.get? sha r.trees).map listingOutput).getD [])

/-- How a command ends. -/
def answer (r : Recording) (c : GitCommand) : Ending :=
  (Record.get? c.name r.endings).getD (r.usual c)

/-- The identifier of the object at a path of a commit. -/
def idAt? (r : Recording) (sha : String) (path : Bytes) : Option String :=
  match Record.get? sha r.trees with
  | some (.entries lines) => (lines.find? fun e => e.path == path).map TreeEntry.oid
  | _ => none

/-- The key of the object that a line names: itself, or the object at a path of a commit. -/
def keyOf (r : Recording) (line : String) : String :=
  if Record.has line r.objects || !line.toList.contains ':' then line
  else
    let (sha, path) := Pieces.partition ':' line.toList
    (r.idAt? (String.ofList sha) (Utf8.encodeChars path)).getD line

/-- Whether a key is an object identifier in lower case. -/
def isObjectId (key : String) : Bool :=
  !key.isEmpty && key.toList.all fun c => ('0' ≤ c && c ≤ '9') || ('a' ≤ c && c ≤ 'f')

/-- The first line of a served object. -/
def headerLine (key kind : String) (size : Nat) : String :=
  (if isObjectId key then key else String.ofList (List.replicate 40 '0')) ++ " " ++ kind ++ " "
    ++ natText size ++ "\n"

/-- What the helper does with a line. -/
def reply (r : Recording) (line : Bytes) : Reply :=
  let key := r.keyOf (Utf8.decodeLossy line)
  match Record.get? key r.objects with
  | none => .printed (line ++ Utf8.encode " missing\n")
  | some .ambiguous => .printed (line ++ Utf8.encode " ambiguous\n")
  | some .exits => .exits
  | some .broken => .broken
  | some (.reply output) => .printed output
  | some (.object kind content) =>
    .printed (Utf8.encode (headerLine key kind content.length) ++ content ++ [10])

/-- A recording as a repository. Recorded commands are started whatever their arguments are, and are not
waited for. -/
def repository (r : Recording) : Repository :=
  { locate := r.folder.locate "<cwd>"
    refuses? := r.folder.refuses?
    waitFault? := fun _ => none
    answer := r.answer
    reply := r.reply
    cancels := fun name time => r.cancelAt == some (name, time) }

end Recording

end Hotspots
