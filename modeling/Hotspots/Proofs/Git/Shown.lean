import Hotspots.Git.Recording
import Hotspots.Proofs.Git.Served
import Hotspots.Proofs.History.TreeHistory

/-!
# What a repository shows of a history

A history of revisions decides what the commands of a repository print: the commit that a name stands for,
the log of the newest revisions, the files of the last one, and the objects. `Repository.Shows` asks nothing
of a command that fails, and not that every object is there; `Repository.Answers` rules out that reading fails.
-/

namespace Hotspots

variable {f : ObjectFormat}

/-- The kind of object that a node names. -/
def TreeNode.kind : TreeNode f → ObjectKind
  | file _ _ => .blob
  | symlink _ => .blob
  | gitlink _ => .commit

/-- A path with its node as a file listing has it. -/
def TreeNode.entry (path : String) (node : TreeNode f) : TreeEntry :=
  { mode := node.mode, kind := node.kind.name, oid := node.id.text, path := Utf8.encode path }

/-- The file listing of a tree. -/
def Tree.listing (t : Tree f) : Bytes := t.entries.flatMap fun (path, node) => (node.entry path).line

namespace Revision

/-- The header of a revision in the log. -/
def header (r : Revision f) : List Char :=
  [RawLog.unitSeparator].intercalate [r.sha.toList, [' '].intercalate (r.parents.map String.toList),
    (natText r.timestamp.toNat).toList]

/-- The lines of a revision under its header: an empty line and the differences, if there are any. -/
def body (before : Tree f) (r : Revision f) : List (List Char) :=
  if r.listed.isEmpty then [] else [] :: (r.differences before).map Difference.line

/-- The record of a revision in the log. -/
def record (before : Tree f) (r : Revision f) : List Char :=
  (r.header :: r.body before).flatMap (· ++ ['\n'])

/-- The log of revisions after a tree. -/
def log : Tree f → List (Revision f) → List Char
  | _, [] => []
  | before, r :: rest => RawLog.recordSeparator :: (r.record before ++ log r.tree rest)

/-- A revision and its parents have the names of commits, and its time is not before the epoch. -/
structure IsNamed (r : Revision f) : Prop where
  sha : ∃ id : ObjectId f, r.sha = id.text
  parents : ∀ p ∈ r.parents, ∃ id : ObjectId f, p = id.text
  timestamp : 0 ≤ r.timestamp

end Revision

/-- How many revisions of a history a limit on their number leaves out: a limit counts if it is above zero. -/
def Revision.leftOut (limit : Int) (revisions : List (Revision f)) : Nat :=
  if 0 < limit then revisions.length - limit.toNat else 0

namespace Repository

/-- Whatever a command prints if it succeeds. -/
def Prints (repository : Repository) (c : GitCommand) (output : Bytes) : Prop :=
  ∀ printed complaint, repository.answer c = .exited 0 printed complaint → printed = output

/-- The commands of a repository show a history of revisions, oldest first, to one who asks for a revision by
its name. The history begins with the empty tree, and only its first revision may have no parents. -/
structure Shows (repository : Repository) (name : String) (revisions : List (Revision f))
    (store : ObjectStore f) : Prop where
  isHistory : Revision.IsHistory .empty revisions
  isNamed : ∀ r ∈ revisions, r.IsNamed
  hasParents : ∀ r ∈ revisions.tail, r.parents ≠ []
  /-- A path holds no null character. -/
  isPath : ∀ r ∈ revisions, ∀ path ∈ r.tree.entries.map Prod.fst, Char.ofNat 0 ∉ path.toList
  /-- The head is a commit if there is one. -/
  head : ∀ code printed complaint,
    repository.answer (.verify "HEAD") = .exited code printed complaint → (code = 0 ↔ revisions ≠ [])
  /-- The name stands for the last revision. -/
  names : ∀ r, revisions.getLast? = some r →
    ∀ n ∈ [name, r.sha], repository.Prints (.verify n) (Utf8.encode (r.sha ++ "\n"))
  /-- The log lists the newest revisions, at least one, whatever limit is asked for. -/
  log : ∀ r, revisions.getLast? = some r → ∀ limit, ∃ older newest, revisions = older ++ newest ∧
    newest ≠ [] ∧ repository.Prints (.log limit r.sha)
      (Utf8.encodeChars (Revision.log (Revision.lastTree .empty older) newest))
  listing : ∀ r, revisions.getLast? = some r → repository.Prints (.listTree r.sha) r.tree.listing
  objects : store.IsServedBy repository

/-- The log lists as many of the newest revisions as it is asked for, and all of them without a limit. -/
def KeepsLimits (repository : Repository) (revisions : List (Revision f)) : Prop :=
  ∀ r, revisions.getLast? = some r → ∀ limit : Int,
    repository.Prints (.log (Reader.askedLimit (.int limit)) r.sha)
      (Utf8.encodeChars (Revision.log (Revision.lastTree .empty (revisions.take (Revision.leftOut limit revisions)))
        (revisions.drop (Revision.leftOut limit revisions))))

/-- A command that succeeds. -/
def Succeeds (repository : Repository) (c : GitCommand) : Prop :=
  ∃ printed complaint, repository.answer c = .exited 0 printed complaint

/-- The blobs of a tree are in a store and are served, and their sizes fit in machine words. -/
def Holds (repository : Repository) (store : ObjectStore f) (t : Tree f) : Prop :=
  ∀ path (id : ObjectId f), TreeNode.blobOf (t.node? path) = some id.text →
    ∃ content, store id = some (.blob, content) ∧ content.length < 2 ^ 63 ∧
      repository.reply (Utf8.encode id.text) = .printed (store.shown id)

/-- Nothing fails that reads a history of revisions from a repository that shows it: the commands about the last
revision succeed, the helper serves every blob, the run is not cancelled meanwhile, and no time has more digits than
can be read. -/
structure Answers (repository : Repository) (name : String) (revisions : List (Revision f))
    (store : ObjectStore f) : Prop where
  verify : ∀ r, revisions.getLast? = some r → ∀ n ∈ ["HEAD", name, r.sha], repository.Succeeds (.verify n)
  log : ∀ r, revisions.getLast? = some r → ∀ limit : Int,
    repository.Succeeds (.log (Reader.askedLimit (.int limit)) r.sha)
  listing : ∀ r, revisions.getLast? = some r → repository.Succeeds (.listTree r.sha)
  blobs : ∀ r ∈ revisions, repository.Holds store r.tree
  isRunning : ∀ time, repository.endsAt? time = none
  isCalm : ∀ command time, repository.cancels command time = false
  timestamp : ∀ r ∈ revisions, (natText r.timestamp.toNat).toList.length ≤ Reading.maxDigits

end Repository

end Hotspots
