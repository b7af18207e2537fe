import Hotspots.Proofs.History.Tree
import Hotspots.Proofs.Run.Returns
import Hotspots.Proofs.Text.Joined

/-!
# Reading the lines of differences

The line of a difference is read as the change that the difference is (`returns_changeOfLine`), and the
lines of all differences between two trees as their changes. A link to another repository takes part as a
path without a blob: a file that gives way to a link is deleted, and a link that gives way to a file is a
file that is added.
-/

namespace Hotspots

namespace Difference

/-! ## The columns of a line -/

/-- Hexadecimal digits are no blanks. -/
theorem isBlank_of_isHexDigit {c : Char} (h : RawLog.isHexDigit c = true) : Blank.isBlank c = false := by
  have hcode := RawLog.toNat_of_isHexDigit h
  exact Blank.isBlank_of_toNat (by omega) (by omega)

/-- A word has a character and no blank. -/
def IsWord (cs : List Char) : Prop := cs ≠ [] ∧ ∀ c ∈ cs, Blank.isBlank c = false

instance : DecidablePred IsWord := fun cs =>
  have : Decidable (∀ c ∈ cs, Blank.isBlank c = false) := List.decidableBAll _ cs
  instDecidableAnd

end Difference

namespace RawLog

open Difference (IsWord)

namespace Columns

variable {c : Columns}

/-- The columns between blanks. -/
def text (c : Columns) : List Char :=
  [' '].intercalate [c.oldMode.toList, c.newMode.toList, c.oldId.toList, c.newId.toList, c.status.toList]

/-- The line of a change with these columns at a path. -/
def line (c : Columns) (path : String) : List Char :=
  ':' :: (c.text ++ '\t' :: (CQuoted.written path).toList)

/-- Columns that are words. -/
def AreWords (c : Columns) : Prop :=
  ∀ w ∈ [c.oldMode.toList, c.newMode.toList, c.oldId.toList, c.newId.toList, c.status.toList], IsWord w

/-- Columns that are words are read back. -/
theorem ofText?_text (hc : c.AreWords) : ofText? (String.ofList c.text) = some c := by
  rw [ofText?, Blank.words, String.toList_ofList, Blank.wordsFrom_eq, text, wordsBy_intercalate (by decide) hc]
  simp only [List.map_cons, String.ofList_toList]

/-- Blanks between words are the only blanks of the columns. -/
theorem not_mem_text (hc : c.AreWords) {b : Char} (hblank : Blank.isBlank b = true) (hspace : b ≠ ' ') :
    b ∉ c.text := by
  intro hmem
  rcases Pieces.mem_of_mem_intercalate hmem with rfl | ⟨w, hw, hb⟩
  · exact hspace rfl
  · rw [(hc w hw).2 b hb] at hblank
    cases hblank

end Columns

/-- A line holds no control character but the tab. -/
theorem not_mem_line {c : Columns} (hc : c.AreWords) {path : String} {b : Char} (hblank : Blank.isBlank b = true)
    (hcode : b.toNat < 32) (htab : b ≠ '\t') : b ∉ c.line path := by
  have hspace : b ≠ ' ' := by
    rintro rfl
    exact absurd hcode (by decide)
  have hcolon : b ≠ ':' := by
    rintro rfl
    exact absurd hcode (by decide)
  intro hmem
  rw [Columns.line, List.mem_cons, List.mem_append, List.mem_cons] at hmem
  rcases hmem with h | h | h | h
  · exact hcolon h
  · exact Columns.not_mem_text hc hblank hspace h
  · exact htab h
  · have hlow := CQuoted.toNat_of_mem_written h
    omega

/-- A line is read as the change that its columns and its path describe. -/
theorem changeOfLine_line {σ : Type} [HasSession σ] {c : Columns} (hc : c.AreWords) {path : String}
    (hpath : path ≠ "") :
    (changeOfLine (String.ofList (c.line path)) : Run σ (Option FileChange)) = change c (CQuoted.written path) := by
  have htab : '\t' ∉ c.text := Columns.not_mem_text hc (by decide) (by decide)
  have hwritten : (CQuoted.written path).toList.isEmpty = false := by
    rw [List.isEmpty_eq_false_iff, ne_eq, String.toList_eq_nil_iff]
    exact CQuoted.written_ne_empty hpath
  unfold changeOfLine
  rw [String.toList_ofList, Columns.line]
  simp only [Pieces.partition_append htab, hwritten, Bool.false_eq_true, if_false, Columns.ofText?_text hc,
    String.ofList_toList]

end RawLog

namespace Difference

open TreeNode (blobOf)

variable {f : ObjectFormat}

/-- A mode is a word. -/
theorem isWord_modeOf (side : Option (TreeNode f)) : IsWord (modeOf side).toList := by
  have hmodes : ∀ m ∈ ["000000", "100644", "100755", "120000", RawLog.linkMode], IsWord m.toList := by
    decide
  refine hmodes _ ?_
  rcases side with _ | ((_ | _) | _ | _) <;> simp [modeOf, TreeNode.mode]

/-- An identifier has only hexadecimal digits. -/
theorem isHexDigit_of_mem_idOf {side : Option (TreeNode f)} {c : Char} (h : c ∈ (idOf side).toList) :
    RawLog.isHexDigit c = true := by
  cases side with
  | none =>
    have hnull : (idOf (none : Option (TreeNode f))).toList = List.replicate f.width '0' :=
      String.toList_ofList
    rw [hnull] at h
    rw [List.eq_of_mem_replicate h]
    decide
  | some node => exact List.all_eq_true.1 node.id.isHex c h

/-- An identifier has the width of its format. -/
theorem length_idOf (side : Option (TreeNode f)) : (idOf side).toList.length = f.width := by
  cases side with
  | none => exact (congrArg List.length String.toList_ofList).trans List.length_replicate
  | some node => exact node.id.length_eq

/-- An identifier is a word. -/
theorem isWord_idOf (side : Option (TreeNode f)) : IsWord (idOf side).toList := by
  refine ⟨?_, fun c hc => isBlank_of_isHexDigit (isHexDigit_of_mem_idOf hc)⟩
  intro hnil
  have hlength := length_idOf side
  rw [hnil] at hlength
  cases f <;> cases hlength

/-- A status is a word. -/
theorem isWord_status (d : Difference f) : IsWord d.status.toList := by
  have hletters : ∀ m ∈ ["A", "D", "M", "T"], IsWord m.toList := by decide
  refine hletters _ ?_
  unfold status
  cases d.old with
  | none => simp
  | some old =>
    cases d.new with
    | none => simp
    | some new => cases old.sameType new <;> simp

/-- The columns of a difference are words. -/
theorem areWords_columns (d : Difference f) : d.columns.AreWords := by
  simp only [RawLog.Columns.AreWords, List.forall_mem_cons, List.not_mem_nil, false_imp_iff, implies_true, and_true]
  exact ⟨isWord_modeOf _, isWord_modeOf _, isWord_idOf _, isWord_idOf _, isWord_status d⟩

/-! ## What the columns say -/

/-- Only the identifier of no object is null. -/
theorem blob?_idOf (side : Option (TreeNode f)) :
    RawLog.blob? (idOf side) = side.map fun n => n.id.text := by
  cases side with
  | none =>
    have hnull : RawLog.isNull (idOf (none : Option (TreeNode f))) = true := by
      cases f <;> decide
    rw [RawLog.blob?, if_pos hnull]
    rfl
  | some node =>
    have hid : RawLog.isNull (idOf (some node)) = false := node.id.isNull_eq
    rw [RawLog.blob?, if_neg (by simp [hid])]
    rfl

/-- The blob that a mode and an identifier show is the blob of their side. -/
theorem shownBlob_eq (side : Option (TreeNode f)) :
    (if modeOf side = RawLog.linkMode then none else RawLog.blob? (idOf side)) = blobOf side := by
  rw [blob?_idOf]
  rcases side with _ | ((_ | _) | _ | _) <;> rfl

/-- The kind of a difference if no link takes part. -/
def plainKind (d : Difference f) : ChangeKind :=
  match d.old, d.new with
  | none, _ => .added
  | some _, none => .deleted
  | some _, some _ => .modified

/-- The status of a difference is the one of its kind. -/
theorem kindOfStatus?_status (d : Difference f) : RawLog.kindOfStatus? d.status = some d.plainKind := by
  have hadded : RawLog.kindOfStatus? "A" = some .added := by decide
  have hdeleted : RawLog.kindOfStatus? "D" = some .deleted := by decide
  have hmodified : RawLog.kindOfStatus? "M" = some .modified := by decide
  have hretyped : RawLog.kindOfStatus? "T" = some .modified := by decide
  unfold status plainKind
  cases d.old with
  | none => exact hadded
  | some old =>
    cases d.new with
    | none => exact hdeleted
    | some new =>
      cases hsame : old.sameType new with
      | false => simpa [hsame] using hretyped
      | true => simpa [hsame] using hmodified

/-- Whether a side is a link to another repository. -/
def isLink (side : Option (TreeNode f)) : Bool := modeOf side == RawLog.linkMode

/-- A side that is no link has a blob if there is something. -/
theorem blobOf_of_isLink_eq_false {node : TreeNode f} (h : isLink (some node) = false) :
    blobOf (some node) = some node.id.text := by
  cases node with
  | file executable blob => rfl
  | symlink blob => rfl
  | gitlink commit => cases h

/-- The two sides of a difference without links make a change of its plain kind. -/
theorem change?_of_not_isLink {d : Difference f} (hne : d.old ≠ d.new) (hold : isLink d.old = false)
    (hnew : isLink d.new = false) :
    d.change? = some { kind := d.plainKind, path := d.path, oldBlob := blobOf d.old,
                       newBlob := blobOf d.new } := by
  obtain ⟨path, old, new⟩ := d
  cases old with
  | none =>
    cases new with
    | none => exact (hne rfl).elim
    | some new =>
      have hblob := blobOf_of_isLink_eq_false hnew
      simp [change?, plainKind, hblob, show blobOf (none : Option (TreeNode f)) = none from rfl]
  | some old =>
    have hblob := blobOf_of_isLink_eq_false hold
    cases new with
    | none => simp [change?, plainKind, hblob, show blobOf (none : Option (TreeNode f)) = none from rfl]
    | some new => simp [change?, plainKind, hblob, blobOf_of_isLink_eq_false hnew]

/-- A side that is a link has no blob. -/
theorem blobOf_of_isLink {side : Option (TreeNode f)} (h : isLink side = true) : blobOf side = none := by
  rcases side with _ | ((_ | _) | _ | _)
  · rfl
  · cases h
  · cases h
  · cases h
  · rfl

section Reading

variable {σ : Type} [HasSession σ]

omit [HasSession σ] in
/-- A change is returned at the path that was written. -/
theorem returns_changeAt (c : RawLog.Columns) (kind : ChangeKind) (p : String) (s : σ) :
    (RawLog.changeAt c kind (CQuoted.written p)).Returns s
      (some { kind := kind, path := p, oldBlob := c.oldBlob, newBlob := c.newBlob }) s := by
  unfold RawLog.changeAt
  refine Run.returns_bind.2 ⟨p, s, ?_, Run.returns_pure.2 ⟨rfl, rfl⟩⟩
  rw [CQuoted.path_written]
  exact Run.returns_ofFault.2 ⟨rfl, rfl⟩

/-- A change that is passed over is none. -/
theorem returns_ignored (reason : String) (s : σ) : ∃ s', (RawLog.ignored reason).Returns s none s' := by
  refine ⟨_, Run.returns_bind.2 ⟨(), _, Run.returns_log.2 rfl, Run.returns_pure.2 ⟨rfl, rfl⟩⟩⟩

/-- The columns of a difference are read as its change. -/
theorem returns_change (d : Difference f) (hne : d.old ≠ d.new) (s : σ) :
    ∃ s', (RawLog.change d.columns (CQuoted.written d.path)).Returns s d.change? s' := by
  have hold : d.columns.oldBlob = blobOf d.old := shownBlob_eq d.old
  have hnew : d.columns.newBlob = blobOf d.new := shownBlob_eq d.new
  have hlink : d.columns.hasLink = (isLink d.old || isLink d.new) := rfl
  simp only [RawLog.change, show d.columns.status = d.status from rfl, kindOfStatus?_status, hlink]
  cases hany : isLink d.old || isLink d.new with
  | false =>
    obtain ⟨hlinkOld, hlinkNew⟩ := Bool.or_eq_false_iff.1 hany
    rw [change?_of_not_isLink hne hlinkOld hlinkNew, ← hold, ← hnew]
    exact ⟨s, returns_changeAt _ _ _ s⟩
  | true =>
    have hsome : blobOf d.old = none ∨ blobOf d.new = none :=
      (Bool.or_eq_true_iff.1 hany).imp blobOf_of_isLink blobOf_of_isLink
    simp only [RawLog.Columns.linkKind?, change?, hold, hnew, if_true]
    rcases ho : blobOf d.old with _ | old <;> rcases hn : blobOf d.new with _ | new
    · exact returns_ignored _ s
    · have hadded := returns_changeAt d.columns .added d.path s
      rw [hold, hnew, ho, hn] at hadded
      exact ⟨s, hadded⟩
    · have hdeleted := returns_changeAt d.columns .deleted d.path s
      rw [hold, hnew, ho, hn] at hdeleted
      exact ⟨s, hdeleted⟩
    · simp [ho, hn] at hsome

/-- The line of a difference is read as its change. -/
theorem returns_changeOfLine (d : Difference f) (hne : d.old ≠ d.new) (hpath : d.path ≠ "") (s : σ) :
    ∃ s', (RawLog.changeOfLine (String.ofList d.line)).Returns s d.change? s' := by
  have hline : d.line = d.columns.line d.path := rfl
  rw [hline, RawLog.changeOfLine_line d.areWords_columns hpath]
  exact d.returns_change hne s

/-- The lines of differences are read as their changes, in order. -/
theorem returns_changesOfLines {ds : List (Difference f)} (hne : ∀ d ∈ ds, d.old ≠ d.new)
    (hpath : ∀ d ∈ ds, d.path ≠ "") (s : σ) :
    ∃ s', (RawLog.changesOfLines (ds.map line)).Returns s (ds.filterMap change?) s' := by
  induction ds generalizing s with
  | nil => exact ⟨s, Run.returns_pure.2 ⟨rfl, rfl⟩⟩
  | cons d rest ih =>
    obtain ⟨s₁, hfirst⟩ := d.returns_changeOfLine (hne d List.mem_cons_self) (hpath d List.mem_cons_self) s
    obtain ⟨s₂, hrest⟩ := ih (fun e he => hne e (List.mem_cons_of_mem _ he))
      (fun e he => hpath e (List.mem_cons_of_mem _ he)) s₁
    refine ⟨s₂, Run.returns_bind.2 ⟨_, s₁, hfirst, Run.returns_bind.2 ⟨_, s₂, hrest, ?_⟩⟩⟩
    refine Run.returns_pure.2 ⟨?_, rfl⟩
    rw [List.filterMap_cons]
    cases d.change? <;> rfl

end Reading

end Difference

/-- The name of an object is a word. -/
theorem ObjectId.isWord {f : ObjectFormat} (id : ObjectId f) : Difference.IsWord id.text.toList :=
  Difference.isWord_idOf (some (.gitlink id))

end Hotspots
