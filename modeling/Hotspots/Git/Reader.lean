import Hotspots.Git.Command
import Hotspots.History.RawLog
import Hotspots.History.Renames
import Hotspots.Number.Writing
import Hotspots.Text.PathName

/-!
# Reading a repository

A reader lists the commits of a branch with their renames found, the files of a commit, and the contents of
files. Contents come from a helper that answers one line at a time and is kept running between requests;
what it has printed and nobody has read stays in the pipe.
-/

namespace Hotspots

/-- A reader of a repository. -/
structure Reader where
  repository : Repository
  /-- The full path of the repository. -/
  location : String
  /-- How many seconds a command may take. -/
  timeout : Value := .int 60
  limits : Renames.Limits := {}

/-- The state of a conversation with a repository. -/
structure Conversation where
  session : Session := {}
  /-- How often each command was run. -/
  runs : List (String × Nat) := []
  /-- What the helper has printed and nobody has read, if it is running. -/
  helper : Option Bytes := none
  /-- Whether a line that could not be sent is kept to be sent once more. -/
  unsent : Bool := false
  /-- How many requests the helper was sent. -/
  requests : Nat := 0
  deriving Inhabited

instance : HasSession Conversation where
  session := Conversation.session
  withSession s c := { c with session := s }

/-- A computation in a conversation. -/
abbrev Talk (α : Type) := Run Conversation α

namespace Reader

/-! ## Commands -/

/-- Runs a command; the run may be cancelled meanwhile. -/
def execute (repository : Repository) (c : GitCommand) : Talk Ending := do
  let time := (Record.get? c.name (← Run.state).runs).getD 0 + 1
  Run.update fun s => { s with runs := Record.put c.name time s.runs }
  if repository.cancels c.name time then Run.cancel
  return repository.answer c

/-- What is said if the program that runs commands is missing. -/
def noExecutable : String := "git executable not found"

/-- The failure of a command. -/
def commandFailure (location : String) (arguments : List String) (code : Int) (complaint : String) :
    Failure :=
  .triage (.command (.text location) arguments (.int code) complaint)

/-- The failure of a command that takes too long; the time that it may take is part of what is said. -/
def lateFailure (r : Reader) (c : GitCommand) : Failure :=
  if r.timeout.isWritable then
    commandFailure r.location c.arguments (-1) ("timed out after " ++ r.timeout.plain ++ "s")
  else .fault .wholeTooLong

/-- Runs a command to its end: its code, its output and its complaint. -/
def run (r : Reader) (c : GitCommand) : Talk (Int × Bytes × Bytes) := do
  match ← execute r.repository c with
  | .exited code output complaint => return (code, output, complaint)
  | .timedOut => Run.fail (r.lateFailure c)
  | .missing => Run.fail (.access r.location noExecutable)
  | .refused fault => Run.fail (.fault fault)
  | .interrupted => Run.fail .interrupted

/-- The output of a command that must succeed. -/
def output (r : Reader) (c : GitCommand) : Talk Bytes := do
  let (code, output, complaint) ← r.run c
  if code = 0 then return output
  else Run.fail (commandFailure r.location c.arguments code (Utf8.decodeLossy complaint))

/-- Leaves output unread; a helper that has ended keeps none. -/
def leave (isRunning : Bool) (unread : Bytes) : Talk Unit :=
  Run.update fun s => { s with helper := if isRunning then some unread else none, unsent := false }

/-- Why a location cannot be opened after the first command, if it cannot: the system may refuse to wait for a command
that it has found. -/
def openingFailure? (location : String) : Option Fault → Ending → Option Failure
  | _, .missing => some (.access location noExecutable)
  | _, .refused fault => some (.fault fault)
  | some fault, _ => some (.fault fault)
  | none, .exited code _ _ => if code = 0 then none else some (.access location "not a git repository")
  | none, .timedOut => some (.access location "git rev-parse timed out")
  | none, .interrupted => some .interrupted

/-- Opens a repository at a path. The first command may take as long as all the others, so that the system waits for
these if it has waited for the first. -/
def openAt (repository : Repository) (path : String) (timeout : Value) (limits : Renames.Limits) :
    Talk Reader := do
  match repository.refuses? path with
  | some fault => Run.fail (.fault fault)
  | none =>
    match repository.locate path with
    | none => Run.fail (.access (PathName.tidy path) "path does not exist")
    | some location =>
      let ending ← execute repository .gitDir
      match openingFailure? location (repository.waitFault? timeout) ending with
      | some e => Run.fail e
      | none =>
        leave false []
        return { repository := repository, location := location, timeout := timeout, limits := limits }

/-! ## Revisions -/

/-- Whether the head of the repository is a commit. -/
def hasCommits (r : Reader) : Talk Bool := do
  let (code, _, _) ← r.run (.verify "HEAD")
  return code = 0

/-- The text of bytes that must be ASCII. -/
def asciiText (bytes : Bytes) : Except Fault String :=
  match bytes.findIdx? (128 ≤ ·) with
  | some start =>
    .error (.undecodable "ascii" ((bytes.drop start).take 1) start "ordinal not in range(128)")
  | none => .ok (String.ofList (bytes.map fun b => Char.ofNat b.toNat))

/-- The commit that a revision names. -/
def resolve (r : Reader) (revision : String) : Talk String := do
  let (code, output, _) ← r.run (.verify revision)
  if code = 0 then return Blank.trimText (← Run.ofFault (asciiText output))
  else Run.fail (.notFound revision none)

/-! ## Objects -/

/-- What one line to the helper leads to: more output, or the end of the helper, possibly with a line that
could not be sent. -/
inductive Sent where
  | running (unread : Bytes)
  | ended (unread : Bytes)
  | broken (kept : Bool)
  deriving Repr

/-- Sends lines to a helper that has printed some output. -/
def send (reply : Bytes → Reply) : Bytes → List Bytes → Sent
  | unread, [] => .running unread
  | unread, line :: rest =>
    match reply line with
    | .printed output => send reply (unread ++ output) rest
    | .exits => .ended unread
    | .broken kept => .broken kept

/-- What is said if a line cannot be sent. -/
def brokenPipe : String := "[Errno 32] Broken pipe"

/-- The failure of the helper. -/
def helperFailure (r : Reader) (complaint : String) : Failure :=
  commandFailure r.location GitCommand.helperArguments (-1) complaint

/-- A line with its end, and what follows it. -/
def readLine (bytes : Bytes) : Bytes × Bytes :=
  let line := bytes.takeWhile (· != 10)
  let length := if line.length < bytes.length then line.length + 1 else line.length
  (bytes.take length, bytes.drop length)

/-- Whether the first line of a reply says that there is no such object. -/
def isRefusal (header : Bytes) : Bool :=
  (Utf8.encode " missing\n").isSuffixOf header || (Utf8.encode " ambiguous\n").isSuffixOf header

/-- The kind and the size of an object, as the first line of a reply tells them. -/
def kindAndSize (header : Bytes) : Except Fault (Bytes × Int) := do
  match Lines.words header with
  | [_, kind, size] =>
    let size ← Reading.whole (Quoted.bytes size)
      (size.map fun b => if b < 128 then Char.ofNat b.toNat else '\uFFFD')
    return (kind, size)
  | fields => .error (.fieldCount 3 fields.length)

/-- Reads a number of bytes or up to the end, whichever comes first; -1 stands for the end. -/
def readBytes (size : Int) (bytes : Bytes) : Except Fault (Bytes × Bytes) :=
  if size < -0x8000000000000000 ∨ 0x8000000000000000 ≤ size then .error .lengthTooLarge
  else if size = -1 then .ok (bytes, [])
  else if size < 0 then .error .negativeLength
  else .ok (bytes.take size.toNat, bytes.drop size.toNat)

/-- Gives up a helper that a line could not be sent to; the line may be kept. -/
def breakOff (kept : Bool) : Talk Unit := Run.update fun s => { s with helper := none, unsent := kept }

/-- Reads the reply to a request from the output of the helper. -/
def readReply (r : Reader) (spec : String) (isRunning : Bool) (printed : Bytes) : Talk Bytes := do
  let (header, rest) := readLine printed
  leave isRunning rest
  if header.isEmpty then Run.fail (r.helperFailure "helper exited")
  else if isRefusal header then Run.fail (.notFound spec none)
  else
    let (kind, size) ← Run.ofFault (kindAndSize header)
    let (content, rest) ← Run.ofFault (readBytes size rest)
    leave isRunning (rest.drop 1)
    if kind = Utf8.encode "blob" then return content else Run.fail (.notFound spec none)

/-- The content of the blob that a request names. -/
def readObject (r : Reader) (spec : String) : Talk Bytes := do
  let c ← Run.state
  Run.update fun s => { s with requests := s.requests + 1 }
  match send (r.repository.replyAt c.requests) (c.helper.getD []) (Pieces.splitOn 10 (Utf8.encode spec)) with
  | .running printed => r.readReply spec true printed
  | .ended printed => r.readReply spec false printed
  | .broken kept =>
    breakOff kept
    Run.fail (r.helperFailure brokenPipe)

/-- The content of a blob. -/
def blobContent (r : Reader) (oid : String) : Talk Bytes := r.readObject oid

/-- The content of a file of a revision. -/
def contentAt (r : Reader) (revision path : String) : Talk Bytes := do
  let sha ← r.resolve revision
  match ← Run.outcome (r.readObject (sha ++ ":" ++ path)) with
  | .ok content => return content
  | .error (.triage (.notFound _ _)) => Run.fail (.notFound revision (some path))
  | .error e => Run.fail e

/-- The failure of sending a kept line once more. -/
def keptLineFailure : Failure := .fault (.other "BrokenPipeError" brokenPipe)

/-- Ends the helper; what it has printed is dropped. A line that is kept is sent once more, which fails. -/
def close : Talk Unit := do
  let c ← Run.state
  leave false []
  if c.unsent then Run.fail keptLineFailure

/-! ## Trees -/

/-- The files that a listing names, with their blobs; links are left out. -/
def entriesOfListing : List Bytes → Except Fault (List (String × String))
  | [] => .ok []
  | item :: rest => do
    if item.isEmpty then entriesOfListing rest
    else
      let (columns, path) := Pieces.partition 9 item
      match Blank.words (← asciiText columns) with
      | [mode, kind, oid] =>
        let more ← entriesOfListing rest
        if kind ≠ "blob" ∨ mode = "120000" then return more
        else return (Utf8.decodeLossy path, oid) :: more
      | fields => .error (.fieldCount 3 fields.length)

/-- The regular files of a revision with their blobs; of two entries of one path the later one counts. -/
def treeEntries (r : Reader) (revision : String) : Talk (List (String × String)) := do
  let sha ← r.resolve revision
  let listing ← r.output (.listTree sha)
  let entries ← Run.ofFault (entriesOfListing (Pieces.splitOn 0 listing))
  return Record.putAll entries []

/-- Texts in order. -/
def sorted (texts : List String) : List String := texts.mergeSort fun a b => decide (a ≤ b)

/-- The regular files of a revision, in order. -/
def listFiles (r : Reader) (revision : String) : Talk (List String) :=
  return sorted ((← r.treeEntries revision).map Prod.fst)

/-- Reads files in order; a path that is read again keeps its place. -/
def readAll (r : Reader) (revision : String) (entries : List (String × String)) :
    List (String × Bytes) → List String → Talk (List (String × Bytes))
  | contents, [] => return contents
  | contents, path :: rest =>
    match Record.get? path entries with
    | none => Run.fail (.notFound revision (some path))
    | some oid => do
      let content ← r.blobContent oid
      readAll r revision entries (Record.put path content contents) rest

/-- The contents of the files of a revision, or of some paths of it. -/
def snapshot (r : Reader) (revision : String) (paths : Option (List String)) :
    Talk (List (String × Bytes)) := do
  let entries ← r.treeEntries revision
  r.readAll revision entries [] (paths.getD (sorted (entries.map Prod.fst)))

/-! ## History -/

/-- Finds the renames of commits, in order. -/
def reconcileAll (r : Reader) : List Commit → Talk (List Commit)
  | [] => return []
  | c :: rest => do
    let changes ← Renames.reconcile r.blobContent r.limits c.changes
    let more ← r.reconcileAll rest
    return { c with changes := changes } :: more

/-- Whether a limit on the number of commits is set. -/
def isLimit (limit : Value) : Bool := (limit.number?.map fun n => (Number.whole 0).lt n).getD false

/-- Whether a number of commits is the limit. -/
def reachesLimit (limit : Value) (count : Nat) : Bool :=
  isLimit limit && (limit.number?.map fun n => n.eq (.whole count)).getD false

/-- The limit that the log is asked for. -/
def askedLimit (limit : Value) : Option Value := if isLimit limit then some limit else none

/-- A limit has to be written to be asked for. -/
def checkLimit (limit : Value) : Except Fault Unit :=
  if isLimit limit && !limit.isWritable then .error .wholeTooLong else .ok ()

/-- The first-parent history of a revision, oldest commit first, with its renames found. Only the newest
commits are kept if there is a limit above zero. -/
def commits (r : Reader) (revision : String) (limit : Value) : Talk (List Commit) := do
  if ← r.hasCommits then
    let sha ← r.resolve revision
    Run.ofFault (checkLimit limit)
    let raw ← r.output (.log (askedLimit limit) sha)
    let listed ← RawLog.commits r.location (Utf8.decodeLossy raw)
    let commits ← r.reconcileAll listed
    if reachesLimit limit commits.length then
      Run.log .warning ("History truncated to the newest " ++ natText commits.length
        ++ " commits; older changes are not counted")
    Run.log .info ("Read " ++ natText commits.length ++ " commits from " ++ r.location)
    return commits
  else
    Run.log .info ("Repository " ++ r.location ++ " has no commits")
    return []

end Reader

end Hotspots
