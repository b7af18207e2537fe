import Hotspots.Proofs.History.TreeHistory
import Hotspots.Proofs.Run.Gives

/-!
# Contents that are compared

Rename detection loads contents of blobs that the changes of a commit name, and no others. If every such load gives
one content, the detection gives one result (`Renames.gives_reconcile`): the one that `Renames.paired` takes from the
contents as a plain function. So the commits of a history are the same whichever window of it is read
(`Revision.replayed`).
-/

namespace Hotspots

variable {f : ObjectFormat}

namespace Renames

/-! ## The pairs for given contents -/

/-- Contents of changes, put to the paths of the changes in order. -/
def putContents (content : String → Bytes) (blob : FileChange → Option String) :
    Contents → List FileChange → Contents :=
  List.foldl fun contents c => Record.put c.path (content ((blob c).getD "")) contents

/-- The sides after pairs of similar contents were taken from them, unless there are too many to compare. -/
def pairedByContent (content : String → Bytes) (l : Limits) (s : Sides) : Sides :=
  if l.excludes s then s
  else s.takeAll (similarPairs l.threshold (putContents content FileChange.oldBlob [] s.deleted)
    (putContents content FileChange.newBlob [] s.added) s)

/-- The changes of a commit with its moves turned into renames, for given contents. -/
def paired (content : String → Bytes) (l : Limits) (changes : List FileChange) : List FileChange :=
  (if (leftOf changes).isOpen then pairedByContent content l (leftOf changes) else leftOf changes).changes

/-- Pairs for given contents are taken one at a time. -/
theorem reconciled_paired (content : String → Bytes) (l : Limits) (changes : List FileChange) :
    Reconciled changes (paired content l changes) := by
  refine ⟨_, ?_, rfl⟩
  have hexact : Relation.ReflTransGen Sides.Takes (Sides.ofChanges changes) (leftOf changes) :=
    (offers_exactPairs _).takes
  split
  · unfold pairedByContent
    split
    · exact hexact
    · exact hexact.trans (offers_similarPairs _ _ _ _).takes
  · exact hexact

/-! ## The blobs that are loaded -/

variable {σ : Type} {T : Prop} {P : σ → Prop} {load : String → Run σ Bytes} {content : String → Bytes}

/-- Loading contents gives them if every single load does. -/
theorem gives_loadAll {blob : FileChange → Option String} {changes : List FileChange}
    (hload : ∀ c ∈ changes, Run.Gives T P (load ((blob c).getD "")) (content ((blob c).getD "")))
    (contents : Contents) :
    Run.Gives T P (loadAll load blob contents changes) (putContents content blob contents changes) := by
  induction changes generalizing contents with
  | nil => exact Run.gives_pure contents
  | cons c rest ih =>
    exact (hload c List.mem_cons_self).bind (ih (fun d hd => hload d (List.mem_cons_of_mem _ hd)) _)

variable [HasSession σ]

/-- Settling pairs takes them. -/
theorem gives_settle (hP : Run.IsSilent P) (s : Sides) (pairs : List Pair) :
    Run.Gives T P (settle s pairs) (s.takeAll pairs) :=
  (Run.gives_logAll hP _).bind (Run.gives_pure _)

/-- Reconciling changes gives the pairs for the contents of the blobs that the changes name. -/
theorem gives_reconcile (hP : Run.IsSilent P) {changes : List FileChange} (l : Limits)
    (hload : ∀ c ∈ changes, ∀ id, c.oldBlob = some id ∨ c.newBlob = some id →
      Run.Gives T P (load id) (content id)) :
    Run.Gives T P (reconcile load l changes) (paired content l changes) := by
  have hold : ∀ c ∈ (leftOf changes).deleted,
      Run.Gives T P (load (c.oldBlob.getD "")) (content (c.oldBlob.getD "")) := by
    intro c hc
    obtain ⟨hmem, hdeletion⟩ := List.mem_filter.1 ((Sides.deleted_takeAll_sublist _ _).subset hc)
    obtain ⟨id, hblob⟩ := Sides.exists_blob_of_isDeletion hdeletion
    rw [hblob]
    exact hload c hmem id (.inl hblob)
  have hnew : ∀ c ∈ (leftOf changes).added,
      Run.Gives T P (load (c.newBlob.getD "")) (content (c.newBlob.getD "")) := by
    intro c hc
    obtain ⟨hmem, haddition⟩ := List.mem_filter.1 ((Sides.added_takeAll_sublist _ _).subset hc)
    obtain ⟨id, hblob⟩ := Sides.exists_blob_of_isAddition haddition
    rw [hblob]
    exact hload c hmem id (.inr hblob)
  have hcontents : Run.Gives T P (reconcileContents load l (leftOf changes))
      (pairedByContent content l (leftOf changes)) := by
    unfold reconcileContents pairedByContent
    split
    · exact (Run.gives_log hP _ _).bind (Run.gives_pure _)
    · exact (gives_loadAll hold []).bind ((gives_loadAll hnew []).bind (gives_settle hP _ _))
  refine (gives_settle hP _ _).bind ?_
  change Run.Gives T P (if (leftOf changes).isOpen = true then _ else _) _
  unfold paired
  by_cases hopen : (leftOf changes).isOpen = true
  · rw [if_pos hopen, if_pos hopen]
    exact hcontents.bind (Run.gives_pure _)
  · rw [if_neg hopen, if_neg hopen]
    exact Run.gives_pure _

end Renames

/-- A blob at a path has an identifier. -/
theorem TreeNode.exists_id_of_blobOf {side : Option (TreeNode f)} {text : String} (h : blobOf side = some text) :
    ∃ id : ObjectId f, text = id.text := by
  obtain ⟨id, -, rfl⟩ := Option.map_eq_some_iff.1 h
  exact ⟨id, rfl⟩

/-- The change that a difference is is at its path. -/
theorem Difference.path_of_change? {d : Difference f} {c : FileChange} (hc : d.change? = some c) : c.path = d.path := by
  unfold change? at hc
  cases hold : TreeNode.blobOf d.old <;> cases hnew : TreeNode.blobOf d.new <;> rw [hold, hnew] at hc <;> cases hc <;>
    rfl

/-- The blobs of the change that a difference is are at one of its sides. -/
theorem Difference.blobOf_of_change? {d : Difference f} {c : FileChange} (hc : d.change? = some c) {text : String}
    (h : c.oldBlob = some text ∨ c.newBlob = some text) :
    TreeNode.blobOf d.old = some text ∨ TreeNode.blobOf d.new = some text := by
  unfold change? at hc
  cases hold : TreeNode.blobOf d.old <;> cases hnew : TreeNode.blobOf d.new <;>
    rw [hold, hnew] at hc <;> cases hc <;> simp_all

namespace Revision

/-- The blobs of a change between two trees are at its path in one of them. -/
theorem blobOf_of_mem_changes {before : Tree f} {r : Revision f} {c : FileChange} (hc : c ∈ r.changes before)
    {text : String} (h : c.oldBlob = some text ∨ c.newBlob = some text) :
    TreeNode.blobOf (before.node? c.path) = some text ∨ TreeNode.blobOf (r.tree.node? c.path) = some text := by
  obtain ⟨d, hd, hchange⟩ := List.mem_filterMap.1 hc
  obtain ⟨path, -, rfl⟩ := List.mem_map.1 hd
  rw [Difference.path_of_change? hchange]
  exact Difference.blobOf_of_change? hchange h

/-! ## The commits of a history -/

/-- The commits of a history after a tree, for given contents. -/
def replayed (content : String → Bytes) (l : Renames.Limits) : Tree f → List (Revision f) → List Commit
  | _, [] => []
  | before, r :: rest =>
    { sha := r.sha, timestamp := r.timestamp, parents := r.parents,
      changes := Renames.paired content l (r.changes before) } :: replayed content l r.tree rest

variable {content : String → Bytes} {l : Renames.Limits}

/-- The commits of two parts of a history. -/
theorem replayed_append (before : Tree f) (older newest : List (Revision f)) :
    replayed content l before (older ++ newest) =
      replayed content l before older ++ replayed content l (lastTree before older) newest := by
  induction older generalizing before with
  | nil => rfl
  | cons r rest ih => exact congrArg (_ :: ·) (ih r.tree)

/-- The commits of a history replay it. -/
theorem replayed_replayed {before : Tree f} {revisions : List (Revision f)} (h : IsHistory before revisions) :
    Replayed before revisions (replayed content l before revisions) := by
  induction revisions generalizing before with
  | nil => exact .nil before
  | cons r rest ih => exact .cons h.1 (Renames.reconciled_paired _ _ _) rfl rfl (ih h.2)

end Revision

end Hotspots
