import Hotspots.Proofs.Git.Answered
import Hotspots.Proofs.History.PrintedLog

/-!
# Commits that a log lists

The log of a history is read as its commits: the records are found between the separators, the header of a
record gives the commit, its parents and its time, and the lines under it give the changes.
-/

namespace Hotspots

variable {f : ObjectFormat} {before : Tree f} {r : Revision f}

/-! ## The lines of a record -/

namespace Revision

/-- The name of an object is the name of a commit. -/
theorem isName_text (id : ObjectId f) : RawLog.IsName id.text := by
  refine ⟨?_, ?_, id.isHex⟩
  · rw [id.length_eq]
    cases f <;> decide
  · rw [id.length_eq]
    cases f <;> decide

namespace IsNamed

/-- The name of a revision. -/
theorem isName_sha (hnamed : r.IsNamed) : RawLog.IsName r.sha := by
  obtain ⟨id, hid⟩ := hnamed.sha
  exact hid ▸ isName_text id

/-- The names of the parents of a revision. -/
theorem isName_parents (hnamed : r.IsNamed) : ∀ p ∈ r.parents, RawLog.IsName p := by
  intro p hp
  obtain ⟨id, rfl⟩ := hnamed.parents p hp
  exact isName_text id

end IsNamed

/-- The lines of a record. -/
theorem isLine_of_mem_lines (hnamed : r.IsNamed) : ∀ line ∈ r.header :: r.body before, RawLog.IsLine line := by
  intro line hline
  rcases List.mem_cons.1 hline with rfl | hline
  · exact RawLog.isLine_header hnamed.isName_sha hnamed.isName_parents _
  · unfold body at hline
    split at hline
    · cases hline
    · rcases List.mem_cons.1 hline with rfl | hline
      · exact RawLog.isLine_nil
      · obtain ⟨d, -, rfl⟩ := List.mem_map.1 hline
        exact RawLog.isLine_line d.areWords_columns _

/-- The records of revisions after a tree. -/
def records : Tree f → List (Revision f) → List (List Char)
  | _, [] => []
  | before, r :: rest => r.record before :: records r.tree rest

/-- A log is split into its records, after nothing. -/
theorem splitOn_log {before : Tree f} {revisions : List (Revision f)} (hnamed : ∀ r ∈ revisions, r.IsNamed) :
    Pieces.splitOn RawLog.recordSeparator (log before revisions) = [] :: records before revisions := by
  have hlog : log before revisions = (records before revisions).flatMap (RawLog.recordSeparator :: ·) := by
    clear hnamed
    induction revisions generalizing before with
    | nil => rfl
    | cons r rest ih => rw [log, records, List.flatMap_cons, ih, List.cons_append]
  have hseparator : ∀ piece ∈ records before revisions, RawLog.recordSeparator ∉ piece := by
    clear hlog
    induction revisions generalizing before with
    | nil => exact List.forall_mem_nil _
    | cons r rest ih =>
      rw [records, List.forall_mem_cons]
      exact ⟨RawLog.separator_not_mem_recordOfLines (isLine_of_mem_lines (hnamed r List.mem_cons_self)),
        ih fun r' hr' => hnamed r' (List.mem_cons_of_mem _ hr')⟩
  rw [hlog, Pieces.splitOn_flatMap_cons hseparator]

end Revision

/-! ## The commits of a log -/

namespace Revision

/-- The commit of a revision as it is listed, without renames. -/
def listedCommit (before : Tree f) (r : Revision f) : Commit :=
  { sha := r.sha, timestamp := r.timestamp, parents := r.parents, changes := r.changes before }

/-- The commits of revisions after a tree as they are listed. -/
def listedCommits : Tree f → List (Revision f) → List Commit
  | _, [] => []
  | before, r :: rest => r.listedCommit before :: listedCommits r.tree rest

end Revision

namespace RawLog

variable {σ : Type} [HasSession σ] {P : σ → Prop} {T : Prop}

/-- Reading a line only writes to the log. -/
theorem ensures_changeOfLine (hP : Run.IsSilent P) (line : String) :
    Run.Ensures P (changeOfLine line) fun _ => True := by
  have hignored : ∀ reason, Run.Ensures P (ignored reason) fun _ => True := fun reason =>
    (Run.ensures_log hP _ _).bind fun _ _ => Run.ensures_pure trivial
  have hchangeAt : ∀ c kind path, Run.Ensures P (changeAt c kind path) fun _ => True := fun c kind path =>
    (Run.ensures_ofFault _).bind fun _ _ => Run.ensures_pure trivial
  have hchange : ∀ c path, Run.Ensures P (change c path) fun _ => True := by
    intro c path
    unfold change
    split
    · exact hignored _
    · split
      · split
        · exact hignored _
        · exact hchangeAt _ _ _
      · exact hchangeAt _ _ _
  unfold changeOfLine
  split
  · split
    split
    · exact Run.ensures_pure trivial
    · split
      · exact Run.ensures_pure trivial
      · exact hchange _ _
  · exact Run.ensures_pure trivial

/-- Reading lines only writes to the log. -/
theorem ensures_changesOfLines (hP : Run.IsSilent P) (lines : List (List Char)) :
    Run.Ensures P (changesOfLines lines) fun _ => True := by
  induction lines with
  | nil => exact Run.ensures_pure trivial
  | cons line rest ih =>
    exact (ensures_changeOfLine hP _).bind fun _ _ => ih.bind fun _ _ => Run.ensures_pure trivial

/-- Lines stay as they are read when an empty line comes after them. -/
theorem returns_changesOfLines_append {lines : List (List Char)} {s s' : σ} {changes : List FileChange}
    (h : (changesOfLines lines).Returns s changes s') :
    (changesOfLines (lines ++ [[]])).Returns s changes s' := by
  induction lines generalizing s s' changes with
  | nil =>
    obtain ⟨rfl, rfl⟩ := Run.returns_pure.1 h
    exact Run.returns_bind.2 ⟨none, s, Run.returns_pure.2 ⟨rfl, rfl⟩,
      Run.returns_bind.2 ⟨[], s, Run.returns_pure.2 ⟨rfl, rfl⟩, Run.returns_pure.2 ⟨rfl, rfl⟩⟩⟩
  | cons line rest ih =>
    obtain ⟨change, s₁, hchange, h⟩ := Run.returns_bind.1 h
    obtain ⟨more, s₂, hmore, h⟩ := Run.returns_bind.1 h
    rw [List.cons_append]
    exact Run.returns_bind.2 ⟨change, s₁, hchange, Run.returns_bind.2 ⟨more, s₂, ih hmore, h⟩⟩

/-- The lines under a header are read as the changes of the revision. -/
theorem returns_changesOfLines_body (hfollows : r.Follows before) (s : σ) :
    ∃ s', (changesOfLines (r.body before)).Returns s (r.changes before) s' := by
  obtain ⟨s', h⟩ := hfollows.returns_changesOfLines s
  refine ⟨s', ?_⟩
  unfold Revision.body
  split
  · next hempty =>
    rw [Revision.differences, List.isEmpty_iff.1 hempty] at h
    exact h
  · exact Run.returns_bind.2 ⟨none, s, Run.returns_pure.2 ⟨rfl, rfl⟩,
      Run.returns_bind.2 ⟨_, s', h, Run.returns_pure.2 ⟨rfl, rfl⟩⟩⟩

/-- A record is read as the commit of its header with the changes of its lines, if its time has no more digits than
can be read. -/
theorem gives_recordOfLines (hP : Run.IsSilent P) (location : String) {sha : String} {parents : List String}
    (hsha : IsName sha) (hparents : ∀ p ∈ parents, IsName p) {time : Nat} {lines : List (List Char)}
    (hlines : ∀ line ∈ lines, IsLine line) {changes : List FileChange}
    (hread : ∀ s : σ, ∃ s', (changesOfLines lines).Returns s changes s')
    (hT : T → (natText time).toList.length ≤ Reading.maxDigits) :
    Run.Gives T P (commitOfRecord location (recordOfLines (header sha parents time :: lines)))
      (some { sha := sha, timestamp := time, parents := parents, changes := changes }) := by
  have hstarted : (header sha parents time).isEmpty = false := List.isEmpty_eq_false_iff.2 (header_ne_nil _ _ _)
  have hended : ∀ s : σ, ∃ s', (changesOfLines (lines ++ [[]])).Returns s changes s' := fun s =>
    (hread s).imp fun _ h => returns_changesOfLines_append h
  have hchanges : Run.Gives T P (changesOfLines (lines ++ [[]])) changes :=
    ⟨(ensures_changesOfLines hP _).eq hended, fun _ s _ => hended s⟩
  have htime :
      Run.Gives T P (Run.ofFault (Reading.wholeOfText (String.ofList (natText time).toList))) (time : Int) := by
    rw [Reading.wholeOfText, String.ofList_toList]
    exact Run.gives_ofFault (fun _ h => Reading.eq_of_whole_natText h) fun ht => Reading.whole_natText (hT ht)
  unfold commitOfRecord
  rw [splitOn_recordOfLines (List.forall_mem_cons.2 ⟨isLine_header hsha hparents time, hlines⟩)]
  dsimp only
  rw [trim_header hsha, if_neg (by simp [hstarted]), fieldsOfHeader?_header hsha hparents]
  dsimp only
  refine hchanges.bind (htime.bind ?_)
  rw [words_parents hparents, String.ofList_toList]
  exact Run.gives_pure _

/-- The record of a revision is read as its commit, if its time has no more digits than can be read. -/
theorem gives_commitOfRecord (hP : Run.IsSilent P) (location : String) (hnamed : r.IsNamed)
    (hfollows : r.Follows before) (hT : T → (natText r.timestamp.toNat).toList.length ≤ Reading.maxDigits) :
    Run.Gives T P (commitOfRecord location (r.record before)) (some (r.listedCommit before)) := by
  have hwhole : ((r.timestamp.toNat : Nat) : Int) = r.timestamp := Int.toNat_of_nonneg hnamed.timestamp
  have hread := gives_recordOfLines hP location hnamed.isName_sha hnamed.isName_parents
    (List.forall_mem_cons.1 (Revision.isLine_of_mem_lines hnamed)).2 (returns_changesOfLines_body hfollows) hT
  rw [hwhole] at hread
  exact hread

/-- The records of a history are read as its commits. -/
theorem gives_commitsOfRecords (hP : Run.IsSilent P) (location : String) {before : Tree f}
    {revisions : List (Revision f)} (hnamed : ∀ r ∈ revisions, r.IsNamed)
    (hhistory : Revision.IsHistory before revisions)
    (hT : T → ∀ r ∈ revisions, (natText r.timestamp.toNat).toList.length ≤ Reading.maxDigits) :
    Run.Gives T P (commitsOfRecords location (Revision.records before revisions))
      (Revision.listedCommits before revisions) := by
  induction revisions generalizing before with
  | nil => exact Run.gives_pure []
  | cons r rest ih =>
    have hfirst := gives_commitOfRecord hP location (hnamed r List.mem_cons_self) hhistory.1
      fun ht => hT ht r List.mem_cons_self
    have hrest := ih (fun r' hr' => hnamed r' (List.mem_cons_of_mem _ hr')) hhistory.2
      fun ht r' hr' => hT ht r' (List.mem_cons_of_mem _ hr')
    exact hfirst.bind (hrest.bind (Run.gives_pure _))

/-- The log of a history is read as its commits. -/
theorem gives_commits (hP : Run.IsSilent P) (location : String) {before : Tree f}
    {revisions : List (Revision f)} (hnamed : ∀ r ∈ revisions, r.IsNamed)
    (hhistory : Revision.IsHistory before revisions)
    (hT : T → ∀ r ∈ revisions, (natText r.timestamp.toNat).toList.length ≤ Reading.maxDigits) :
    Run.Gives T P (commits location (String.ofList (Revision.log before revisions)))
      (Revision.listedCommits before revisions) := by
  have hnone : Run.Gives T P (commitOfRecord location []) none := Run.gives_pure none
  rw [commits, String.toList_ofList, Revision.splitOn_log hnamed]
  exact hnone.bind ((gives_commitsOfRecords hP location hnamed hhistory hT).bind (Run.gives_pure _))

end RawLog

end Hotspots
