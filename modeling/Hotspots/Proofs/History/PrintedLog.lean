import Hotspots.Proofs.History.RawDiff
import Hotspots.Proofs.Number.Digits

/-!
# Reading a log that was printed

A log is printed commit by commit: a record separator, a header of three fields, perhaps empty lines, and a line for
each change of a blob. Neither separators nor line ends occur in a field or in a written path, so that every list of
commits is read back from its log, whatever the paths are (`commits_printed`).
-/

namespace Hotspots

namespace RawLog

open Difference (IsWord)

/-! ## Headers -/

/-- The name of a commit or of a blob: 40 to 64 hexadecimal digits. -/
def IsName (s : String) : Prop := 40 ≤ s.toList.length ∧ s.toList.length ≤ 64 ∧ s.toList.all isHexDigit = true

instance : DecidablePred IsName := fun _ => instDecidableAnd

/-- A header with the names of a commit and of its parents, and the seconds since the epoch. -/
def header (sha : String) (parents : List String) (time : Nat) : List Char :=
  [unitSeparator].intercalate [sha.toList, [' '].intercalate (parents.map String.toList), (natText time).toList]

variable {sha : String} {parents : List String}

/-- A name has only hexadecimal digits. -/
theorem IsName.isHexDigit_of_mem (h : IsName sha) {c : Char} (hc : c ∈ sha.toList) : isHexDigit c = true :=
  List.all_eq_true.1 h.2.2 c hc

/-- A name is a word. -/
theorem IsName.isWord (h : IsName sha) : IsWord sha.toList := by
  refine ⟨fun hnil => ?_, fun c hc => Difference.isBlank_of_isHexDigit (h.isHexDigit_of_mem hc)⟩
  have hlength := h.1
  rw [hnil] at hlength
  cases hlength

/-- Parents are hexadecimal digits and blanks between them. -/
theorem isHexDigit_of_mem_parents (hparents : ∀ p ∈ parents, IsName p) {c : Char}
    (hc : c ∈ [' '].intercalate (parents.map String.toList)) : (isHexDigit c || c == ' ') = true := by
  rcases Pieces.mem_of_mem_intercalate hc with rfl | ⟨w, hw, hc⟩
  · decide
  · obtain ⟨p, hp, rfl⟩ := List.mem_map.1 hw
    rw [(hparents p hp).isHexDigit_of_mem hc]
    rfl

/-- Parents are read back. -/
theorem words_parents (hparents : ∀ p ∈ parents, IsName p) :
    Blank.words (String.ofList ([' '].intercalate (parents.map String.toList))) = parents := by
  have hwords : ∀ w ∈ parents.map String.toList, IsWord w := by
    intro w hw
    obtain ⟨p, hp, rfl⟩ := List.mem_map.1 hw
    exact (hparents p hp).isWord
  rw [Blank.words, Blank.wordsFrom_eq, String.toList_ofList, wordsBy_intercalate (by decide) hwords, List.map_map]
  exact (List.map_congr_left fun p _ => String.ofList_toList).trans (List.map_id _)

/-- A header is made of digits, blanks and the separators between its fields. -/
theorem toNat_of_mem_header (hsha : IsName sha) (hparents : ∀ p ∈ parents, IsName p) {time : Nat} {c : Char}
    (h : c ∈ header sha parents time) : 31 ≤ c.toNat := by
  have hname : ∀ {name : String}, IsName name → ∀ c ∈ name.toList, 31 ≤ c.toNat := by
    intro name hname c hc
    have hcode := toNat_of_isHexDigit (hname.isHexDigit_of_mem hc)
    omega
  rcases Pieces.mem_of_mem_intercalate h with rfl | ⟨piece, hpiece, hc⟩
  · decide
  · simp only [List.mem_cons, List.not_mem_nil, or_false] at hpiece
    rcases hpiece with rfl | rfl | rfl
    · exact hname hsha c hc
    · rcases Pieces.mem_of_mem_intercalate hc with rfl | ⟨w, hw, hc⟩
      · decide
      · obtain ⟨p, hp, rfl⟩ := List.mem_map.1 hw
        exact hname (hparents p hp) c hc
    · have hcode := Reading.toNat_of_isDigit (Reading.isDigit_of_mem_natText hc)
      omega

/-- The fields of a header are read back. -/
theorem fieldsOfHeader?_header (hsha : IsName sha) (hparents : ∀ p ∈ parents, IsName p) (time : Nat) :
    fieldsOfHeader? (header sha parents time) =
      some (sha.toList, [' '].intercalate (parents.map String.toList), (natText time).toList) := by
  have htime : ∀ c ∈ (natText time).toList, (DecimalDigit.value? c).isSome = true := by
    intro c hc
    rw [Reading.value?_of_isDigit (Reading.isDigit_of_mem_natText hc)]
    rfl
  have hsplit : Pieces.splitOn unitSeparator (header sha parents time) =
      [sha.toList, [' '].intercalate (parents.map String.toList), (natText time).toList] := by
    have hjoin : header sha parents time = sha.toList ++ unitSeparator ::
        ([' '].intercalate (parents.map String.toList) ++ unitSeparator :: (natText time).toList) := by
      simp [header, List.intercalate]
    rw [hjoin, Pieces.splitOn_append, Pieces.splitOn_append, Pieces.splitOn_of_not_mem]
    · exact fun h => absurd (htime _ h) (by decide)
    · exact fun h => absurd (isHexDigit_of_mem_parents hparents h) (by decide)
    · exact fun h => absurd (hsha.isHexDigit_of_mem h) (by decide)
  have hstarted : (natText time).toList.isEmpty = false :=
    List.isEmpty_eq_false_iff.2 (Reading.toList_natText_ne_nil _)
  rw [fieldsOfHeader?, hsplit]
  dsimp only
  rw [if_pos]
  simp only [Bool.and_eq_true, decide_eq_true_eq, hstarted, Bool.not_false]
  exact ⟨⟨⟨⟨⟨hsha.1, hsha.2.1⟩, hsha.2.2⟩, List.all_eq_true.2 fun c hc => isHexDigit_of_mem_parents hparents hc⟩,
    trivial⟩, List.all_eq_true.2 htime⟩

/-- A header holds the separators of its fields. -/
theorem header_ne_nil (sha : String) (parents : List String) (time : Nat) : header sha parents time ≠ [] := by
  simp [header, List.intercalate]

/-- A header begins and ends without a blank. -/
theorem trim_header (hsha : IsName sha) (parents : List String) (time : Nat) :
    Blank.trim (header sha parents time) = header sha parents time := by
  obtain ⟨hne, hword⟩ := hsha.isWord
  obtain ⟨middle, hmiddle⟩ : ∃ middle, header sha parents time = sha.toList ++ (middle ++ (natText time).toList) :=
    ⟨unitSeparator :: ([' '].intercalate (parents.map String.toList) ++ [unitSeparator]),
      by simp [header, List.intercalate]⟩
  have hhead : ∀ c, (header sha parents time).head? = some c → Blank.isBlank c = false := by
    intro c hc
    rw [hmiddle, List.head?_append_of_ne_nil _ hne] at hc
    exact hword c (List.mem_of_head? hc)
  have hlast : ∀ c, (header sha parents time).getLast? = some c → Blank.isBlank c = false := by
    intro c hc
    have htime : (natText time).toList ≠ [] := Reading.toList_natText_ne_nil _
    rw [hmiddle, List.getLast?_append_of_ne_nil _ (List.append_ne_nil_of_right_ne_nil _ htime),
      List.getLast?_append_of_ne_nil _ htime] at hc
    have hcode := Reading.toNat_of_isDigit (Reading.isDigit_of_mem_natText (List.mem_of_getLast? hc))
    exact Blank.isBlank_of_toNat (by omega) (by omega)
  have htrim := Blank.trim_append (header_ne_nil sha parents time) hhead hlast (List.forall_mem_nil _)
  rwa [List.append_nil] at htrim

/-! ## Lines -/

/-- A line that holds neither the end of a line nor the separator between records. -/
def IsLine (line : List Char) : Prop := '\n' ∉ line ∧ recordSeparator ∉ line

/-- Lines with their ends. -/
def recordOfLines (lines : List (List Char)) : List Char := lines.flatMap (· ++ ['\n'])

/-- An empty line. -/
theorem isLine_nil : IsLine [] := ⟨List.not_mem_nil, List.not_mem_nil⟩

/-- A header is a line. -/
theorem isLine_header (hsha : IsName sha) (hparents : ∀ p ∈ parents, IsName p) (time : Nat) :
    IsLine (header sha parents time) :=
  ⟨fun hmem => absurd (toNat_of_mem_header hsha hparents hmem) (by decide),
    fun hmem => absurd (toNat_of_mem_header hsha hparents hmem) (by decide)⟩

/-- Columns that are words and a path make a line. -/
theorem isLine_line {c : Columns} (hc : c.AreWords) (path : String) : IsLine (c.line path) :=
  ⟨not_mem_line hc (by decide) (by decide) (by decide), not_mem_line hc (by decide) (by decide) (by decide)⟩

/-- A record is split into its header and the lines under it. -/
theorem splitOn_recordOfLines {first : List Char} {lines : List (List Char)}
    (h : ∀ line ∈ first :: lines, IsLine line) :
    Pieces.splitOn '\n' (recordOfLines (first :: lines)) = first :: (lines ++ [[]]) := by
  rw [recordOfLines, Pieces.splitOn_flatMap fun line hline => (h line hline).1, List.cons_append]

/-- No record holds the separator between records. -/
theorem separator_not_mem_recordOfLines {lines : List (List Char)} (h : ∀ line ∈ lines, IsLine line) :
    recordSeparator ∉ recordOfLines lines := by
  intro hmem
  obtain ⟨line, hline, hmem⟩ := List.mem_flatMap.1 hmem
  rw [List.mem_append, List.mem_singleton] at hmem
  rcases hmem with hmem | hmem
  · exact (h line hline).2 hmem
  · exact absurd hmem (by decide)

/-! ## Changes -/

/-- What kind of file a blob is. -/
inductive BlobMode where
  | regular
  | executable
  | symlink

namespace BlobMode

/-- The mode as it is printed. -/
def text : BlobMode → String
  | regular => "100644"
  | executable => "100755"
  | symlink => "120000"

/-- Whether two modes are of the same type. -/
def sameType : BlobMode → BlobMode → Bool
  | symlink, symlink => true
  | symlink, _ => false
  | _, symlink => false
  | _, _ => true

end BlobMode

/-- The modes of a blob before and after a change. -/
structure Modes where
  old : BlobMode := .regular
  new : BlobMode := .regular

/-- How a commit is laid out: the number of empty lines under its header, and the modes of each of its changes. -/
structure Layout where
  emptyLines : Nat := 1
  modes : Nat → Modes := fun _ => {}

/-- The mode of a side of a change, which may have no blob. -/
def modeText (mode : BlobMode) (blob : Option String) : String := if blob.isSome then mode.text else "000000"

/-- The name of a side of a change; zeros stand for no blob. -/
def idText (width : Nat) (blob : Option String) : String := blob.getD (String.ofList (List.replicate width '0'))

/-- The status letter of a change. -/
def statusText (m : Modes) : ChangeKind → String
  | .added => "A"
  | .deleted => "D"
  | _ => if m.old.sameType m.new then "M" else "T"

/-- The columns of a change, where the names of objects have a width. -/
def columnsOf (width : Nat) (m : Modes) (c : FileChange) : Columns :=
  ⟨modeText m.old c.oldBlob, modeText m.new c.newBlob, idText width c.oldBlob, idText width c.newBlob,
    statusText m c.kind⟩

/-- The name of a blob that there is. -/
def IsBlobName (id : String) : Prop := IsName id ∧ isNull id = false

instance : DecidablePred IsBlobName := fun _ => instDecidableAnd

/-- The addition, the edit or the deletion of a blob at a path. -/
inductive IsBlobChange : FileChange → Prop where
  | added {path new : String} (hpath : path ≠ "") (hnew : IsBlobName new) :
    IsBlobChange { kind := .added, path := path, newBlob := some new }
  | modified {path old new : String} (hpath : path ≠ "") (hold : IsBlobName old) (hnew : IsBlobName new) :
    IsBlobChange { kind := .modified, path := path, oldBlob := some old, newBlob := some new }
  | deleted {path old : String} (hpath : path ≠ "") (hold : IsBlobName old) :
    IsBlobChange { kind := .deleted, path := path, oldBlob := some old }

/-- A mode is a word. -/
theorem isWord_modeText (mode : BlobMode) (blob : Option String) : IsWord (modeText mode blob).toList := by
  have hmodes : ∀ m ∈ ["000000", "100644", "100755", "120000"], IsWord m.toList := by decide
  refine hmodes _ ?_
  cases blob <;> cases mode <;> simp [modeText, BlobMode.text]

/-- The mode of a blob is none of a link to another repository. -/
theorem modeText_ne_linkMode (mode : BlobMode) (blob : Option String) : modeText mode blob ≠ linkMode := by
  have hmodes : ∀ m ∈ ["000000", "100644", "100755", "120000"], m ≠ linkMode := by decide
  refine hmodes _ ?_
  cases blob <;> cases mode <;> simp [modeText, BlobMode.text]

/-- The name of a side is a word. -/
theorem isWord_idText {width : Nat} (hwidth : 0 < width) {blob : Option String} (hblob : ∀ id ∈ blob, IsBlobName id) :
    IsWord (idText width blob).toList := by
  cases blob with
  | some id => exact (hblob id rfl).1.isWord
  | none =>
    have hzeros : (idText width none).toList = List.replicate width '0' := String.toList_ofList
    rw [hzeros]
    refine ⟨by simpa using hwidth.ne', fun c hc => ?_⟩
    rw [List.eq_of_mem_replicate hc]
    decide

/-- The blob of a side is read back from its name. -/
theorem blob?_idText (width : Nat) {blob : Option String} (hblob : ∀ id ∈ blob, IsBlobName id) :
    blob? (idText width blob) = blob := by
  cases blob with
  | some id =>
    have hid : isNull (idText width (some id)) = false := (hblob id rfl).2
    rw [blob?, if_neg (by simp [hid])]
    rfl
  | none =>
    have hzeros : isNull (idText width none) = true := by
      rw [isNull, List.all_eq_true]
      intro c hc
      rw [idText, Option.getD_none, String.toList_ofList] at hc
      rw [List.eq_of_mem_replicate hc]
      rfl
    rw [blob?, if_pos hzeros]

/-- A status is a word. -/
theorem isWord_statusText (m : Modes) (kind : ChangeKind) : IsWord (statusText m kind).toList := by
  have hletters : ∀ letter ∈ ["A", "D", "M", "T"], IsWord letter.toList := by decide
  refine hletters _ ?_
  cases kind <;> cases h : m.old.sameType m.new <;> simp [statusText, h]

namespace IsBlobChange

variable {c : FileChange}

/-- The change of a blob is at a path. -/
theorem path_ne_empty (hc : IsBlobChange c) : c.path ≠ "" := by
  cases hc <;> assumption

/-- The blob before a change has a name. -/
theorem isBlobName_oldBlob (hc : IsBlobChange c) : ∀ id ∈ c.oldBlob, IsBlobName id := by
  cases hc <;> simp_all

/-- The blob after a change has a name. -/
theorem isBlobName_newBlob (hc : IsBlobChange c) : ∀ id ∈ c.newBlob, IsBlobName id := by
  cases hc <;> simp_all

/-- The status of a change is read as its kind. -/
theorem kindOfStatus?_statusText (hc : IsBlobChange c) (m : Modes) :
    kindOfStatus? (statusText m c.kind) = some c.kind := by
  have hadded : kindOfStatus? "A" = some .added := by decide
  have hdeleted : kindOfStatus? "D" = some .deleted := by decide
  have hedited : kindOfStatus? "M" = some .modified := by decide
  have hretyped : kindOfStatus? "T" = some .modified := by decide
  cases hc with
  | added => exact hadded
  | deleted => exact hdeleted
  | modified =>
    unfold statusText
    cases m.old.sameType m.new with
    | true => exact hedited
    | false => exact hretyped

/-- The columns of a change are words. -/
theorem areWords_columnsOf (hc : IsBlobChange c) {width : Nat} (hwidth : 0 < width) (m : Modes) :
    (columnsOf width m c).AreWords := by
  simp only [Columns.AreWords, List.forall_mem_cons, List.not_mem_nil, false_imp_iff, implies_true, and_true]
  exact ⟨isWord_modeText _ _, isWord_modeText _ _, isWord_idText hwidth hc.isBlobName_oldBlob,
    isWord_idText hwidth hc.isBlobName_newBlob, isWord_statusText _ _⟩

end IsBlobChange

section Reading

variable {σ : Type} [HasSession σ]

/-- The columns of a change are read as the change. -/
theorem returns_change {c : FileChange} (hc : IsBlobChange c) (width : Nat) (m : Modes) (s : σ) :
    (change (columnsOf width m c) (CQuoted.written c.path)).Returns s (some c) s := by
  have hold : (columnsOf width m c).oldBlob = c.oldBlob :=
    (if_neg (modeText_ne_linkMode _ _)).trans (blob?_idText width hc.isBlobName_oldBlob)
  have hnew : (columnsOf width m c).newBlob = c.newBlob :=
    (if_neg (modeText_ne_linkMode _ _)).trans (blob?_idText width hc.isBlobName_newBlob)
  have hlink : (columnsOf width m c).hasLink = false := by
    rw [Columns.hasLink, Bool.or_eq_false_iff, beq_eq_false_iff_ne, beq_eq_false_iff_ne]
    exact ⟨modeText_ne_linkMode _ _, modeText_ne_linkMode _ _⟩
  have hread := Difference.returns_changeAt (columnsOf width m c) c.kind c.path s
  rw [hold, hnew] at hread
  have hstatus : kindOfStatus? (columnsOf width m c).status = some c.kind := hc.kindOfStatus?_statusText m
  simp only [change, hstatus, hlink, Bool.false_eq_true, if_false]
  cases hc <;> exact hread

/-- The lines of changes and an empty line after them are read as the changes, in order. -/
theorem returns_changesOfLines {width : Nat} (hwidth : 0 < width) {changes : List FileChange}
    (hchanges : ∀ c ∈ changes, IsBlobChange c) (modes : Nat → Modes) (s : σ) :
    (changesOfLines ((changes.mapIdx fun n c => (columnsOf width (modes n) c).line c.path) ++ [[]])).Returns s
      changes s := by
  induction changes generalizing modes with
  | nil =>
    exact Run.returns_bind.2 ⟨none, s, Run.returns_pure.2 ⟨rfl, rfl⟩,
      Run.returns_bind.2 ⟨[], s, Run.returns_pure.2 ⟨rfl, rfl⟩, Run.returns_pure.2 ⟨rfl, rfl⟩⟩⟩
  | cons c rest ih =>
    have hc := hchanges c List.mem_cons_self
    have hrest := ih (fun d hd => hchanges d (List.mem_cons_of_mem _ hd)) fun n => modes (n + 1)
    rw [List.mapIdx_cons, List.cons_append, changesOfLines, changeOfLine_line (hc.areWords_columnsOf hwidth _)
      hc.path_ne_empty]
    exact Run.returns_bind.2 ⟨some c, s, returns_change hc width (modes 0) s,
      Run.returns_bind.2 ⟨rest, s, hrest, Run.returns_pure.2 ⟨rfl, rfl⟩⟩⟩

/-- Empty lines are passed over. -/
theorem returns_changesOfLines_replicate (n : Nat) {lines : List (List Char)} {changes : List FileChange} {s s' : σ}
    (h : (changesOfLines lines).Returns s changes s') :
    (changesOfLines (List.replicate n [] ++ lines)).Returns s changes s' := by
  induction n with
  | zero => exact h
  | succ n ih =>
    rw [List.replicate_succ, List.cons_append, changesOfLines]
    exact Run.returns_bind.2 ⟨none, s, Run.returns_pure.2 ⟨rfl, rfl⟩,
      Run.returns_bind.2 ⟨changes, s', ih, Run.returns_pure.2 ⟨rfl, rfl⟩⟩⟩

end Reading

/-! ## Records -/

/-- A commit that changes blobs only. -/
structure IsPrintable (c : Commit) : Prop where
  sha : IsName c.sha
  parents : ∀ p ∈ c.parents, IsName p
  timestamp : 0 ≤ c.timestamp
  /-- Numbers with more digits are not read. -/
  length_le : (natText c.timestamp.toNat).toList.length ≤ Reading.maxDigits
  changes : ∀ change ∈ c.changes, IsBlobChange change

/-- The lines under the header of a commit. -/
def bodyOf (c : Commit) (l : Layout) : List (List Char) :=
  List.replicate l.emptyLines [] ++
    c.changes.mapIdx fun n change => (columnsOf c.sha.toList.length (l.modes n) change).line change.path

/-- The record of a commit in the log. -/
def recordOf (c : Commit) (l : Layout) : List Char :=
  (header c.sha c.parents c.timestamp.toNat :: bodyOf c l).flatMap (· ++ ['\n'])

/-- The log of commits, each with its layout. -/
def printed (log : List (Commit × Layout)) : List Char :=
  (log.map fun entry => recordOf entry.1 entry.2).flatMap (recordSeparator :: ·)

namespace IsPrintable

variable {c : Commit} {l : Layout}

/-- The names of objects have digits. -/
theorem length_pos (hc : IsPrintable c) : 0 < c.sha.toList.length := by
  have hlength := hc.sha.1
  omega

/-- A record is made of lines. -/
theorem isLine_of_mem_lines (hc : IsPrintable c) :
    ∀ line ∈ header c.sha c.parents c.timestamp.toNat :: bodyOf c l, IsLine line := by
  intro line hline
  rcases List.mem_cons.1 hline with rfl | hline
  · exact isLine_header hc.sha hc.parents _
  · rcases List.mem_append.1 hline with hline | hline
    · rw [List.eq_of_mem_replicate hline]
      exact isLine_nil
    · obtain ⟨n, hn, rfl⟩ := List.mem_mapIdx.1 hline
      exact isLine_line ((hc.changes _ (List.getElem_mem hn)).areWords_columnsOf hc.length_pos _) _

/-- A record is read as its commit. -/
theorem returns_commitOfRecord {σ : Type} [HasSession σ] (hc : IsPrintable c) (l : Layout) (location : String)
    (s : σ) : (commitOfRecord location (recordOf c l)).Returns s (some c) s := by
  have hheader : (header c.sha c.parents c.timestamp.toNat).isEmpty = false :=
    List.isEmpty_eq_false_iff.2 (header_ne_nil _ _ _)
  have hchanges : (changesOfLines (bodyOf c l ++ [[]])).Returns s c.changes s := by
    rw [bodyOf, List.append_assoc]
    exact returns_changesOfLines_replicate _ (returns_changesOfLines hc.length_pos hc.changes l.modes s)
  have htime : Reading.wholeOfText (String.ofList (natText c.timestamp.toNat).toList) = .ok c.timestamp := by
    rw [Reading.wholeOfText, String.toList_ofList, Reading.whole_natText hc.length_le,
      Int.toNat_of_nonneg hc.timestamp]
  unfold commitOfRecord
  rw [recordOf, ← recordOfLines, splitOn_recordOfLines hc.isLine_of_mem_lines]
  dsimp only
  rw [trim_header hc.sha, if_neg (by simp [hheader]), fieldsOfHeader?_header hc.sha hc.parents]
  refine Run.returns_bind.2 ⟨c.changes, s, hchanges,
    Run.returns_bind.2 ⟨c.timestamp, s, Run.returns_ofFault.2 ⟨htime, rfl⟩, Run.returns_pure.2 ⟨?_, rfl⟩⟩⟩
  rw [words_parents hc.parents, String.ofList_toList]

end IsPrintable

/-- Records are read as their commits, in order. -/
theorem returns_commitsOfRecords {σ : Type} [HasSession σ] {log : List (Commit × Layout)}
    (hlog : ∀ entry ∈ log, IsPrintable entry.1) (location : String) (s : σ) :
    (commitsOfRecords location (log.map fun entry => recordOf entry.1 entry.2)).Returns s (log.map Prod.fst) s := by
  induction log with
  | nil => exact Run.returns_pure.2 ⟨rfl, rfl⟩
  | cons entry rest ih =>
    have hfirst := (hlog entry List.mem_cons_self).returns_commitOfRecord entry.2 location s
    have hrest := ih fun e he => hlog e (List.mem_cons_of_mem _ he)
    exact Run.returns_bind.2 ⟨some entry.1, s, hfirst,
      Run.returns_bind.2 ⟨rest.map Prod.fst, s, hrest, Run.returns_pure.2 ⟨rfl, rfl⟩⟩⟩

/-- A log that was printed is read back as its commits, whatever their paths are and however they are laid out. -/
theorem commits_printed {σ : Type} [HasSession σ] {log : List (Commit × Layout)}
    (hlog : ∀ entry ∈ log, IsPrintable entry.1) (location : String) (s : σ) :
    (commits location (String.ofList (printed log))).Returns s (log.map Prod.fst) s := by
  have hseparator : ∀ record ∈ log.map fun entry => recordOf entry.1 entry.2, recordSeparator ∉ record := by
    intro record hrecord
    obtain ⟨entry, hentry, rfl⟩ := List.mem_map.1 hrecord
    exact separator_not_mem_recordOfLines (hlog entry hentry).isLine_of_mem_lines
  have hnothing : (commitOfRecord location [] : Run σ (Option Commit)).Returns s none s :=
    Run.returns_pure.2 ⟨rfl, rfl⟩
  rw [commits, String.toList_ofList, printed, Pieces.splitOn_flatMap_cons hseparator]
  exact Run.returns_bind.2 ⟨none, s, hnothing, Run.returns_bind.2
    ⟨log.map Prod.fst, s, returns_commitsOfRecords hlog location s, Run.returns_pure.2 ⟨rfl, rfl⟩⟩⟩

/-- Two commits without and with empty lines, with a link that becomes a file and with paths of quotes, backslashes,
control characters and line ends. -/
theorem commits_printed_unusual :
    let first : Commit :=
      { sha := "0123456789abcdef0123456789abcdef01234567", timestamp := 0,
        changes := [
          { kind := .added, path := " a\tb\n", newBlob := some "00000000000000000000000000000000000000a1" }] }
    let second : Commit :=
      { sha := "89abcdef0123456789abcdef0123456789abcdef", timestamp := 1700000000,
        parents := ["0123456789abcdef0123456789abcdef01234567", "fedcba9876543210fedcba9876543210fedcba98"],
        changes := [
          { kind := .modified, path := " a\tb\n", oldBlob := some "00000000000000000000000000000000000000a1",
            newBlob := some "00000000000000000000000000000000000000a2" },
          { kind := .deleted, path := "\"\\\x1e\x7fé", oldBlob := some "00000000000000000000000000000000000000a3" }] }
    let log : List (Commit × Layout) :=
      [(first, { emptyLines := 0, modes := fun _ => { new := .symlink } }),
        (second, { emptyLines := 2, modes := fun _ => { old := .symlink } })]
    (∀ entry ∈ log, IsPrintable entry.1) ∧
      (commits "/r" (String.ofList (printed log)) : Run Session (List Commit)).Returns {} [first, second] {} := by
  intro first second log
  have hfirst : IsPrintable first := by
    refine ⟨by decide +kernel, by decide +kernel, by decide +kernel, by decide +kernel, ?_⟩
    exact List.forall_mem_singleton.2 (.added (by decide) (by decide +kernel))
  have hsecond : IsPrintable second := by
    refine ⟨by decide +kernel, by decide +kernel, by decide +kernel, by decide +kernel, ?_⟩
    exact List.forall_mem_cons.2 ⟨.modified (by decide) (by decide +kernel) (by decide +kernel),
      List.forall_mem_singleton.2 (.deleted (by decide) (by decide +kernel))⟩
  have hlog : ∀ entry ∈ log, IsPrintable entry.1 :=
    List.forall_mem_cons.2 ⟨hfirst, List.forall_mem_singleton.2 hsecond⟩
  have hread := @commits_printed Session _ log hlog "/r" {}
  exact ⟨hlog, hread⟩

end RawLog

end Hotspots
