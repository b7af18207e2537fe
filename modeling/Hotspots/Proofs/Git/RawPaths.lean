import Hotspots.Proofs.Git.Window
import Hotspots.Proofs.Text.QuotedBytes

/-!
# Paths as a repository stores them

A repository stores a path as a string of bytes that need not be text. The log writes it with escapes into a larger
output, which is read lossily as a whole before the escapes are undone; the listing of a tree has the bytes as they
are. Both ways lead to the same text (`log_and_tree_name_alike`), so that a change in the log and a file in the tree
are found under one name.
-/

namespace Hotspots

open Utf8 (shownChars)

variable {f : ObjectFormat}

/-! ## What a log and a listing print -/

/-- A path as a repository stores it: bytes, at least one, and none of them null. -/
structure RawPath where
  bytes : Bytes
  ne_nil : bytes ≠ []
  not_null : 0 ∉ bytes

/-- The text of a path. -/
def RawPath.text (p : RawPath) : String := Utf8.decodeLossy p.bytes

/-- The listing of a tree with paths as they are stored. -/
def RawPath.listing (tree : List (RawPath × TreeNode f)) : Bytes :=
  tree.flatMap fun (path, node) => (node.storedEntry path.bytes).line

/-- The regular files of a tree with their blobs, under the texts of their paths. -/
def RawPath.fileBlobs (tree : List (RawPath × TreeNode f)) : List (String × String) :=
  (tree.filter (·.2.isFile)).map fun (path, node) => (path.text, node.id.text)

/-- A path as it is stored, with what is there before and after a commit. -/
structure RawDifference (f : ObjectFormat) where
  path : RawPath
  old : Option (TreeNode f)
  new : Option (TreeNode f)
  ne : old ≠ new

namespace RawDifference

/-- The difference under the text of its path. -/
def shown (d : RawDifference f) : Difference f := ⟨d.path.text, d.old, d.new⟩

/-- The line of a difference, with the bytes of its path. -/
def line (d : RawDifference f) : Bytes :=
  Utf8.encodeChars (':' :: (d.shown.columns.text ++ ['\t'])) ++ CQuoted.writtenBytes d.path.bytes

end RawDifference

/-- A commit as a log lists it: its names, its time, and empty lines in front of the differences. -/
structure LoggedCommit (f : ObjectFormat) where
  sha : ObjectId f
  parents : List (ObjectId f)
  time : Nat
  /-- The time has no more digits than can be read. -/
  length_le : (natText time).toList.length ≤ Reading.maxDigits
  emptyLines : Nat
  differences : List (RawDifference f)

namespace LoggedCommit

/-- The header of a commit. -/
def header (c : LoggedCommit f) : List Char := RawLog.header c.sha.text (c.parents.map ObjectId.text) c.time

/-- The lines of the output for a commit. -/
def printedLines (c : LoggedCommit f) : List Bytes :=
  Utf8.encodeChars c.header :: (List.replicate c.emptyLines [] ++ c.differences.map RawDifference.line)

/-- The output for a commit. -/
def output (c : LoggedCommit f) : Bytes := 30 :: c.printedLines.flatMap (· ++ [10])

/-- The output for commits. -/
def log (commits : List (LoggedCommit f)) : Bytes := commits.flatMap output

/-- The lines under the header, as they are read. -/
def lines (c : LoggedCommit f) : List (List Char) :=
  List.replicate c.emptyLines [] ++ c.differences.map fun d => d.shown.line

/-- The commit without renames. -/
def commit (c : LoggedCommit f) : Commit :=
  { sha := c.sha.text, timestamp := c.time, parents := c.parents.map ObjectId.text
    changes := c.differences.filterMap fun d => d.shown.change? }

end LoggedCommit

/-! ## Reading the output of the log -/

/-- Joined ASCII texts are ASCII. -/
theorem Utf8.isAscii_intercalate {separator : Char} {pieces : List (List Char)} (hseparator : separator.toNat < 128)
    (hpieces : ∀ p ∈ pieces, Utf8.IsAscii p) : Utf8.IsAscii ([separator].intercalate pieces) := by
  intro c hc
  rcases Pieces.mem_of_mem_intercalate hc with rfl | ⟨p, hp, hc⟩
  · exact hseparator
  · exact hpieces p hp c hc

namespace RawDifference

/-- The columns of a difference are ASCII. -/
theorem isAscii_columns (d : RawDifference f) : Utf8.IsAscii (':' :: (d.shown.columns.text ++ ['\t'])) := by
  have hmodes : ∀ m ∈ ["000000", "100644", "100755", "120000", RawLog.linkMode], Utf8.IsAscii m.toList := by
    simp [Utf8.IsAscii, RawLog.linkMode]
  have hmode : ∀ side : Option (TreeNode f), Utf8.IsAscii (Difference.modeOf side).toList := by
    intro side
    refine hmodes _ ?_
    rcases side with _ | ((_ | _) | _ | _) <;> simp [Difference.modeOf, TreeNode.mode]
  have hid : ∀ side : Option (TreeNode f), Utf8.IsAscii (Difference.idOf side).toList := by
    intro side c hc
    have hcode := RawLog.toNat_of_isHexDigit (Difference.isHexDigit_of_mem_idOf hc)
    omega
  have hstatus : Utf8.IsAscii d.shown.status.toList := by
    have hletters : ∀ m ∈ ["A", "D", "M", "T"], Utf8.IsAscii m.toList := by simp [Utf8.IsAscii]
    refine hletters _ ?_
    unfold Difference.status
    rcases d.shown.old with _ | old <;> rcases d.shown.new with _ | new <;> simp
  have htext : Utf8.IsAscii d.shown.columns.text := by
    apply Utf8.isAscii_intercalate (by decide)
    simp only [List.forall_mem_cons, List.not_mem_nil, false_imp_iff, implies_true, and_true]
    exact ⟨hmode _, hmode _, hid _, hid _, hstatus⟩
  rw [← List.singleton_append, Utf8.isAscii_append, Utf8.isAscii_append]
  exact ⟨by decide, htext, by decide⟩

/-- The line of a difference begins with an ASCII byte. -/
theorem startsAscii_line (d : RawDifference f) : Utf8.StartsAscii d.line :=
  (Utf8.startsAscii_encodeChars d.isAscii_columns).append_of_ne_nil (Utf8.encodeChars_ne_nil (List.cons_ne_nil _ _)) _

/-- The line of a difference is read lossily as the line of the difference under the text of its path. -/
theorem shownChars_line (d : RawDifference f) : shownChars d.line = d.shown.line := by
  have hwritten : shownChars (CQuoted.writtenBytes d.path.bytes) = (CQuoted.written d.path.text).toList := by
    rw [← Utf8.toList_decodeLossy, CQuoted.decodeLossy_writtenBytes]
    rfl
  have hline : d.shown.line = ':' :: (d.shown.columns.text ++ ['\t']) ++ (CQuoted.written d.path.text).toList := by
    rw [List.cons_append, List.append_assoc]
    rfl
  rw [line, Utf8.shownChars_encodeChars_append d.isAscii_columns, hwritten, hline]

end RawDifference

namespace LoggedCommit

variable (c : LoggedCommit f)

/-- The names of the parents of a commit. -/
theorem isName_parents : ∀ p ∈ c.parents.map ObjectId.text, RawLog.IsName p := by
  intro p hp
  obtain ⟨id, -, rfl⟩ := List.mem_map.1 hp
  exact Revision.isName_text id

/-- A header is ASCII. -/
theorem isAscii_header : Utf8.IsAscii c.header := by
  have hid : ∀ id : ObjectId f, Utf8.IsAscii id.text.toList := fun id => id.isAscii
  apply Utf8.isAscii_intercalate (by decide)
  simp only [List.forall_mem_cons, List.not_mem_nil, false_imp_iff, implies_true, and_true]
  refine ⟨hid c.sha, Utf8.isAscii_intercalate (by decide) ?_, Utf8.isAscii_natText c.time⟩
  intro p hp
  simp only [List.map_map, List.mem_map] at hp
  obtain ⟨id, -, rfl⟩ := hp
  exact hid id

/-- The lines of the output for a commit begin with ASCII bytes and are read lossily as the lines of its record. -/
theorem shownChars_printedLines : (∀ line ∈ c.printedLines, Utf8.StartsAscii line) ∧
    c.printedLines.map shownChars = c.header :: c.lines := by
  refine ⟨?_, ?_⟩
  · rw [printedLines, List.forall_mem_cons, List.forall_mem_append]
    refine ⟨Utf8.startsAscii_encodeChars c.isAscii_header, fun line hline => ?_, fun line hline => ?_⟩
    · rw [List.eq_of_mem_replicate hline]
      exact nofun
    · obtain ⟨d, -, rfl⟩ := List.mem_map.1 hline
      exact d.startsAscii_line
  · have hempty : shownChars [] = [] := rfl
    simp only [printedLines, lines, List.map_cons, List.map_append, List.map_replicate, List.map_map,
      Function.comp_def, Utf8.shownChars_encodeChars, RawDifference.shownChars_line, hempty]

/-- The output for a commit is read lossily as its record, after the separator. -/
theorem shownChars_output :
    shownChars c.output = RawLog.recordSeparator :: RawLog.recordOfLines (c.header :: c.lines) := by
  obtain ⟨hstarts, hlines⟩ := c.shownChars_printedLines
  have hend : ∀ line, shownChars (line ++ [10]) = shownChars line ++ ['\n'] := fun line =>
    Utf8.shownChars_append_cons (by decide) line []
  have hended : ∀ line ∈ c.printedLines, Utf8.StartsAscii (line ++ [10]) := fun line hline =>
    (hstarts line hline).append (Utf8.startsAscii_cons (by decide) [])
  rw [output, Utf8.shownChars_cons_of_ascii (by decide), (Utf8.shownChars_flatMap hended).2, ← hlines,
    RawLog.recordOfLines, List.flatMap_map]
  exact congrArg (_ :: c.printedLines.flatMap ·) (funext hend)

/-- The output of a log is read lossily as the records of its commits. -/
theorem decodeLossy_log (commits : List (LoggedCommit f)) : Utf8.decodeLossy (log commits) =
    String.ofList ((commits.map fun c => RawLog.recordOfLines (c.header :: c.lines)).flatMap
      (RawLog.recordSeparator :: ·)) := by
  have hstarts : ∀ c ∈ commits, Utf8.StartsAscii c.output := fun c _ => Utf8.startsAscii_cons (by decide) _
  rw [Utf8.decodeLossy_eq, log, (Utf8.shownChars_flatMap hstarts).2, List.flatMap_map]
  exact congrArg (fun g => String.ofList (commits.flatMap g)) (funext shownChars_output)

/-- The lines of a record. -/
theorem isLine_of_mem_lines : ∀ line ∈ c.header :: c.lines, RawLog.IsLine line := by
  rw [lines, List.forall_mem_cons, List.forall_mem_append]
  refine ⟨RawLog.isLine_header (Revision.isName_text c.sha) c.isName_parents c.time, fun line hline => ?_,
    fun line hline => ?_⟩
  · rw [List.eq_of_mem_replicate hline]
    exact RawLog.isLine_nil
  · obtain ⟨d, -, rfl⟩ := List.mem_map.1 hline
    exact RawLog.isLine_line d.shown.areWords_columns _

end LoggedCommit

/-! ## The commits of a log -/

/-- The text of a path is not empty. -/
theorem RawPath.text_ne_empty (p : RawPath) : p.text ≠ "" := by
  intro h
  have hnil : shownChars p.bytes = [] := by
    rw [← Utf8.toList_decodeLossy]
    exact congrArg String.toList h
  exact Utf8.shownChars_ne_nil p.ne_nil hnil

namespace LoggedCommit

variable {σ : Type} [HasSession σ] {T : Prop} {P : σ → Prop}

/-- The lines of a record are read as the changes of its commit. -/
theorem returns_changesOfLines (c : LoggedCommit f) (s : σ) :
    ∃ s', (RawLog.changesOfLines c.lines).Returns s c.commit.changes s' := by
  have hne : ∀ d ∈ c.differences.map RawDifference.shown, d.old ≠ d.new := List.forall_mem_map.2 fun d _ => d.ne
  have hpath : ∀ d ∈ c.differences.map RawDifference.shown, d.path ≠ "" :=
    List.forall_mem_map.2 fun d _ => d.path.text_ne_empty
  obtain ⟨s', h⟩ := Difference.returns_changesOfLines hne hpath s
  rw [List.map_map, List.filterMap_map] at h
  exact ⟨s', RawLog.returns_changesOfLines_replicate _ h⟩

/-- The output of a log is read as its commits. -/
theorem gives_commits (hP : Run.IsSilent P) (location : String) (commits : List (LoggedCommit f)) :
    Run.Gives T P (RawLog.commits location (Utf8.decodeLossy (log commits))) (commits.map commit) := by
  have hseparator : ∀ record ∈ commits.map fun c => RawLog.recordOfLines (c.header :: c.lines),
      RawLog.recordSeparator ∉ record :=
    List.forall_mem_map.2 fun c _ => RawLog.separator_not_mem_recordOfLines c.isLine_of_mem_lines
  have hnothing : Run.Gives T P (RawLog.commitOfRecord location []) none := Run.gives_pure none
  have hrecord : ∀ c : LoggedCommit f, Run.Gives T P
      (RawLog.commitOfRecord location (RawLog.recordOfLines (c.header :: c.lines))) (some c.commit) := fun c =>
    RawLog.gives_recordOfLines hP location (Revision.isName_text c.sha) c.isName_parents
      (List.forall_mem_cons.1 c.isLine_of_mem_lines).2 c.returns_changesOfLines fun _ => c.length_le
  have hrecords : Run.Gives T P
      (RawLog.commitsOfRecords location (commits.map fun c => RawLog.recordOfLines (c.header :: c.lines)))
      (commits.map commit) := by
    clear hseparator
    induction commits with
    | nil => exact Run.gives_pure []
    | cons c rest ih => exact (hrecord c).bind (ih.bind (Run.gives_pure _))
  rw [decodeLossy_log, RawLog.commits, String.toList_ofList, Pieces.splitOn_flatMap_cons hseparator]
  exact hnothing.bind (hrecords.bind (Run.gives_pure _))

end LoggedCommit

end Hotspots
