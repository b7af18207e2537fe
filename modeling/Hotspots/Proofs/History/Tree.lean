import Hotspots.Proofs.Record.Lookup
import Hotspots.Proofs.Text.QuotedPath
import Hotspots.History.RawLog

/-!
# Trees, and the lines of their differences

A tree holds a file, a symbolic link or a link to a commit of another repository at each of its paths. The
log of a revision has one line for each path at which its tree differs from the tree before: the modes and
the identifiers on both sides, a status, and the path as it is written.
-/

namespace Hotspots

/-- Hexadecimal digits as numbers. -/
theorem RawLog.toNat_of_isHexDigit {c : Char} (h : isHexDigit c = true) :
    (48 ≤ c.toNat ∧ c.toNat ≤ 57) ∨ (97 ≤ c.toNat ∧ c.toNat ≤ 102) := by
  simpa [isHexDigit, Char.le_def, UInt32.le_iff_toNat_le] using h

/-- How the objects of a repository are named. -/
inductive ObjectFormat where
  | sha1
  | sha256
  deriving DecidableEq, Repr

/-- The number of digits of an identifier. -/
def ObjectFormat.width : ObjectFormat → Nat
  | sha1 => 40
  | sha256 => 64

/-- The name of an object. -/
structure ObjectId (f : ObjectFormat) where
  text : String
  length_eq : text.toList.length = f.width
  isHex : text.toList.all RawLog.isHexDigit = true
  isNull_eq : RawLog.isNull text = false
  deriving DecidableEq

/-- Identifiers are equal if their texts are. -/
theorem ObjectId.eq_of_text {f : ObjectFormat} {a b : ObjectId f} (h : a.text = b.text) : a = b := by
  cases a
  cases b
  cases h
  rfl

/-- The identifier with a text, if the text is one. -/
def ObjectId.ofText? {f : ObjectFormat} (text : String) : Option (ObjectId f) :=
  if h : text.toList.length = f.width ∧ text.toList.all RawLog.isHexDigit = true ∧ RawLog.isNull text = false then
    some ⟨text, h.1, h.2.1, h.2.2⟩
  else none

/-- An identifier is found by its text. -/
theorem ObjectId.ofText?_text {f : ObjectFormat} (id : ObjectId f) : ofText? id.text = some id :=
  dif_pos ⟨id.length_eq, id.isHex, id.isNull_eq⟩

/-- The identifier that repeats one digit. -/
def ObjectId.repeated (f : ObjectFormat) (digit : Char) (hhex : RawLog.isHexDigit digit = true)
    (hzero : digit ≠ '0') : ObjectId f where
  text := String.ofList (List.replicate f.width digit)
  length_eq := by rw [String.toList_ofList, List.length_replicate]
  isHex := by simp [String.toList_ofList, hhex]
  isNull_eq := by cases f <;> simp [RawLog.isNull, ObjectFormat.width, hzero]

/-- The identifier that stands for no object in a format. -/
def ObjectFormat.nullText (f : ObjectFormat) : String := String.ofList (List.replicate f.width '0')

/-- What a tree holds at a path. -/
inductive TreeNode (f : ObjectFormat) where
  | file (executable : Bool) (blob : ObjectId f)
  | symlink (blob : ObjectId f)
  | gitlink (commit : ObjectId f)
  deriving DecidableEq

namespace TreeNode

variable {f : ObjectFormat}

/-- The mode of a node. -/
def mode : TreeNode f → String
  | file false _ => "100644"
  | file true _ => "100755"
  | symlink _ => "120000"
  | gitlink _ => RawLog.linkMode

/-- The object that a node names. -/
def id : TreeNode f → ObjectId f
  | file _ blob => blob
  | symlink blob => blob
  | gitlink commit => commit

/-- The blob of a node; a link to another repository has none. -/
def blob? : TreeNode f → Option (ObjectId f)
  | file _ blob => some blob
  | symlink blob => some blob
  | gitlink _ => none

/-- The name of the blob of what stands at a path, if something does and has one. -/
def blobOf (node? : Option (TreeNode f)) : Option String := (node?.bind blob?).map ObjectId.text

/-- Whether a node is a regular file. -/
def isFile : TreeNode f → Bool
  | file _ _ => true
  | _ => false

/-- Whether two nodes are of one type. -/
def sameType : TreeNode f → TreeNode f → Bool
  | file _ _, file _ _ => true
  | symlink _, symlink _ => true
  | gitlink _, gitlink _ => true
  | _, _ => false

end TreeNode

/-- The paths of a revision with what they hold. -/
structure Tree (f : ObjectFormat) where
  entries : List (String × TreeNode f)
  nodup : (entries.map Prod.fst).Nodup
  ne_empty : "" ∉ entries.map Prod.fst

namespace Tree

variable {f : ObjectFormat}

/-- The tree without paths. -/
def empty : Tree f := { entries := [], nodup := List.nodup_nil, ne_empty := List.not_mem_nil }

/-- What a tree holds at a path. -/
def node? (t : Tree f) (path : String) : Option (TreeNode f) := Record.get? path t.entries

/-- The paths of regular files. -/
def files (t : Tree f) : List String := (t.entries.filter (·.2.isFile)).map Prod.fst

/-- The paths of regular files and of symbolic links. -/
def tracked (t : Tree f) : List String := (t.entries.filter (·.2.blob?.isSome)).map Prod.fst

/-- Nothing is at the empty path. -/
theorem node?_empty (t : Tree f) : t.node? "" = none := Record.get?_eq_none_iff.2 t.ne_empty

/-- A path is tracked when there is a blob at it. -/
theorem mem_tracked {t : Tree f} {path : String} :
    path ∈ t.tracked ↔ (TreeNode.blobOf (t.node? path)).isSome = true := by
  unfold TreeNode.blobOf
  constructor
  · intro h
    obtain ⟨⟨p, node⟩, hmem, rfl⟩ := List.mem_map.1 h
    obtain ⟨hentry, hblob⟩ := List.mem_filter.1 hmem
    have hnode : t.node? p = some node := Record.get?_of_mem t.nodup hentry
    simpa [hnode] using hblob
  · intro h
    cases hnode : t.node? path with
    | none => simp [hnode] at h
    | some node =>
      exact List.mem_map.2
        ⟨(path, node), List.mem_filter.2 ⟨Record.mem_of_get? hnode, by simpa [hnode] using h⟩, rfl⟩

/-- Regular files are tracked. -/
theorem files_subset_tracked (t : Tree f) : t.files ⊆ t.tracked := by
  intro path h
  obtain ⟨⟨p, node⟩, hmem, rfl⟩ := List.mem_map.1 h
  obtain ⟨hentry, hfile⟩ := List.mem_filter.1 hmem
  refine List.mem_map.2 ⟨(p, node), List.mem_filter.2 ⟨hentry, ?_⟩, rfl⟩
  cases node with
  | file executable blob => rfl
  | symlink blob => cases hfile
  | gitlink commit => cases hfile

/-- The empty path is not tracked. -/
theorem ne_empty_of_mem_tracked {t : Tree f} {path : String} (h : path ∈ t.tracked) : path ≠ "" := by
  rintro rfl
  rw [mem_tracked, t.node?_empty] at h
  cases h

end Tree

/-! ## The lines of a difference -/

/-- The two sides of a path at which trees differ. -/
structure Difference (f : ObjectFormat) where
  path : String
  old : Option (TreeNode f)
  new : Option (TreeNode f)

namespace Difference

variable {f : ObjectFormat}

/-- The mode of a side. -/
def modeOf (side : Option (TreeNode f)) : String := (side.map TreeNode.mode).getD "000000"

/-- The identifier of a side. -/
def idOf (side : Option (TreeNode f)) : String := (side.map fun n => n.id.text).getD f.nullText

/-- The status letter of a difference. -/
def status (d : Difference f) : String :=
  match d.old, d.new with
  | none, _ => "A"
  | some _, none => "D"
  | some old, some new => if old.sameType new then "M" else "T"

/-- The columns of a difference. -/
def columns (d : Difference f) : RawLog.Columns :=
  ⟨modeOf d.old, modeOf d.new, idOf d.old, idOf d.new, d.status⟩

/-- The line of a difference. -/
def line (d : Difference f) : List Char :=
  ':' :: ([' '].intercalate [(modeOf d.old).toList, (modeOf d.new).toList, (idOf d.old).toList,
    (idOf d.new).toList, d.status.toList] ++ '\t' :: (CQuoted.written d.path).toList)

/-- The change that a difference is: of links to other repositories there is none. -/
def change? (d : Difference f) : Option FileChange :=
  match TreeNode.blobOf d.old, TreeNode.blobOf d.new with
  | none, none => none
  | none, some new => some { kind := .added, path := d.path, newBlob := some new }
  | some old, none => some { kind := .deleted, path := d.path, oldBlob := some old }
  | some old, some new =>
    some { kind := .modified, path := d.path, oldBlob := some old, newBlob := some new }

end Difference

end Hotspots
