import Hotspots.Proofs.History.RatedPairs
import Hotspots.Proofs.History.SoundWalk
import Hotspots.Proofs.Run.Exec

/-!
# What a move counts

The changes of a commit touch different paths, also after its moves were found, so that no other change of the
commit meets the record of a move (`Walk.Sound.record_feed_of_moved`). A move counts as a change exactly if its
similarity is below 1: a move with other blobs whose contents are alike is not counted (`countsEdit_iff`,
`not_countsEdit_of_reordered`).
-/

namespace Hotspots

/-- The paths that a change touches. -/
def FileChange.touched (c : FileChange) : List String :=
  if c.kind = .renamed then c.path :: c.oldPath.toList else [c.path]

namespace Walk

variable {w : Walk} {c : FileChange} {path : String} {place : Nat} {time : Int}

/-! ## Changes that do not touch a path -/

/-- A path that is not touched is not that of the change. -/
theorem ne_path_of_not_mem (h : path ∉ c.touched) : path ≠ c.path := by
  rintro rfl
  unfold FileChange.touched at h
  split at h <;> exact h List.mem_cons_self

/-- A path that is not touched is not the one that a rename comes from. -/
theorem ne_oldPath_of_not_mem (h : path ∉ c.touched) (hkind : c.kind = .renamed) {old : String}
    (hold : c.oldPath = some old) : path ≠ old := by
  rintro rfl
  exact h (by simp [FileChange.touched, hkind, hold])

/-- A path that is not touched stays open at the place where it was. -/
theorem at?_apply_of_not_mem (h : path ∉ c.touched) : (w.apply time c).at? path = w.at? path := by
  have hpath := ne_path_of_not_mem h
  rw [at?_apply, if_neg fun hfills => hpath hfills.2.symm, if_neg]
  rintro (⟨-, heq⟩ | ⟨hkind, hold, -⟩)
  · exact hpath heq.symm
  · exact ne_oldPath_of_not_mem h hkind hold rfl

/-- Changing the record at an open path keeps those of other paths. -/
theorem Sound.record_modify (hw : w.Sound) (hat : w.at? path = some place) {other : String} {place' : Nat}
    (hother : w.at? other = some place') (hne : path ≠ other) (f : ChurnRecord → ChurnRecord) :
    (w.modify place' f).history.records[place]? = w.history.records[place]? := by
  rw [getElem?_records_modify, if_neg]
  rintro rfl
  exact hne (hw.at?_injective hat hother)

/-- Opening a path keeps the records. -/
theorem Sound.record_openPath (hw : w.Sound) (hat : w.at? path = some place) (other : String) (time : Int) :
    (w.openPath other time).history.records[place]? = w.history.records[place]? := by
  obtain ⟨r, hr, -⟩ := hw.live_of_at? _ _ hat
  exact List.getElem?_append_left (List.getElem?_eq_some_iff.1 hr).1

/-- Closing a path keeps the records of other paths. -/
theorem Sound.record_close (hw : w.Sound) (hat : w.at? path = some place) {other : String} (hne : path ≠ other)
    (time : Int) : (w.close other time).history.records[place]? = w.history.records[place]? := by
  unfold Walk.close
  split
  · next place' hother => exact hw.record_modify hat hother hne _
  · rfl

/-- The record of a path that is not touched stays as it was. -/
theorem Sound.record_apply (hw : w.Sound) (hat : w.at? path = some place) (h : path ∉ c.touched) :
    (w.apply time c).history.records[place]? = w.history.records[place]? := by
  have hpath := ne_path_of_not_mem h
  have htouch : (w.touch c.path time).history.records[place]? = w.history.records[place]? := by
    unfold Walk.touch
    split
    · next place' hother => exact hw.record_modify hat hother hpath _
    · exact hw.record_openPath hat _ _
  unfold Walk.apply
  cases hkind : c.kind with
  | added => exact htouch
  | modified => exact htouch
  | deleted => exact hw.record_close hat hpath time
  | renamed =>
    dsimp only
    cases hmoved : w.moved? c with
    | none => exact hw.record_openPath hat _ _
    | some place' =>
      obtain ⟨old, hold, -, hfrom⟩ := at?_of_moved? hmoved
      have hne := ne_oldPath_of_not_mem h hkind hold
      have hvacant :
          ({ w with openAt := Record.erase (c.oldPath.getD "") w.openAt } : Walk).at? path = some place := by
        change Record.get? path (Record.erase (c.oldPath.getD "") w.openAt) = some place
        rw [Record.get?_erase, hold, Option.getD_some, if_neg hne]
        exact hat
      dsimp only
      rw [records_move, getElem?_records_modify, if_neg]
      · exact (hw.forget _).record_close hvacant hpath time
      · rintro rfl
        exact hne (hw.at?_injective hat hfrom)

/-- Changes that do not touch an open path leave it open with its record. -/
theorem Sound.untouched (hw : w.Sound) (time : Int) (hat : w.at? path = some place) {changes : List FileChange}
    (h : ∀ d ∈ changes, path ∉ d.touched) :
    (changes.foldl (Walk.apply time) w).at? path = some place ∧
      (changes.foldl (Walk.apply time) w).history.records[place]? = w.history.records[place]? := by
  induction changes generalizing w with
  | nil => exact ⟨hat, rfl⟩
  | cons d rest ih =>
    have hd := h d List.mem_cons_self
    obtain ⟨hopen, hrecord⟩ := ih (hw.apply time d) ((at?_apply_of_not_mem hd).trans hat)
      fun e he => h e (List.mem_cons_of_mem _ he)
    exact ⟨hopen, hrecord.trans (hw.record_apply hat hd)⟩

/-! ## One move of a commit -/

/-- A commit that touches every path once moves a record as if it made no other change. -/
theorem Sound.record_feed_of_moved (hw : w.Sound) {commit : Commit} (hc : c ∈ commit.changes)
    (hkind : c.kind = .renamed) (hdistinct : (commit.changes.flatMap FileChange.touched).Nodup)
    (hmoved : w.moved? c = some place) :
    (w.feed commit).history.records[place]? =
      w.history.records[place]?.map (relocated c commit.timestamp) := by
  -- The changes before the move leave the record at the old path alone, those after it the record at the new path.
  obtain ⟨front, back, hchanges⟩ := List.append_of_mem hc
  obtain ⟨old, hold, hne, hat⟩ := at?_of_moved? hmoved
  have htouched : c.touched = [c.path, old] := by simp [FileChange.touched, hkind, hold]
  rw [hchanges, List.flatMap_append, List.flatMap_cons, htouched] at hdistinct
  obtain ⟨-, hback, hfront⟩ := List.nodup_append.1 hdistinct
  have hfrontOld : ∀ d ∈ front, old ∉ d.touched := fun d hd hmem =>
    hfront old (List.mem_flatMap.2 ⟨d, hd, hmem⟩) old (by simp) rfl
  have hbackNew : ∀ d ∈ back, c.path ∉ d.touched := fun d hd hmem =>
    (List.nodup_cons.1 hback).1 (List.mem_cons_of_mem _ (List.mem_flatMap.2 ⟨d, hd, hmem⟩))
  obtain ⟨hopen, hrecord⟩ := hw.untouched commit.timestamp hat hfrontOld
  have hsound := hw.foldl_apply commit.timestamp front
  set before := front.foldl (Walk.apply commit.timestamp) w
  have hmovedBefore : before.moved? c = some place := by
    rw [moved?, hold]
    simpa [hne] using hopen
  have hstep : before.apply commit.timestamp c = before.move place c commit.timestamp := by
    rw [Walk.apply, hkind]
    dsimp only
    rw [hmovedBefore]
  have hnew : (before.apply commit.timestamp c).at? c.path = some place := by
    rw [hstep, at?_move, if_pos rfl]
  obtain ⟨r, hr, -, hr'⟩ := hsound.record_vacated hmovedBefore commit.timestamp
  change (commit.changes.foldl (Walk.apply commit.timestamp) w).history.records[place]? = _
  rw [hchanges, List.foldl_append, List.foldl_cons, ((hsound.apply _ c).untouched _ hnew hbackNew).2, hstep,
    records_move, getElem?_records_modify, if_pos rfl, hr, ← hrecord, hr']

/-! ## Moves among the changes of a commit -/

/-- A rename touches what its two members touch. -/
theorem conserved_touched : Renames.Sides.Conserved FileChange.touched := by
  intro p hnew hold
  have hadded : p.new.kind = .added := by
    simp only [Renames.isAddition, Bool.and_eq_true, beq_iff_eq] at hnew
    exact hnew.1
  have hdeleted : p.old.kind = .deleted := by
    simp only [Renames.isDeletion, Bool.and_eq_true, beq_iff_eq] at hold
    exact hold.1
  simp [FileChange.touched, Renames.Pair.change, hadded, hdeleted]

/-- Changes of distinct paths still touch every path once after their moves were found. -/
theorem nodup_touched {changes result : List FileChange} (hraw : ∀ c ∈ changes, c.kind ≠ .renamed)
    (hpaths : (changes.map FileChange.path).Nodup) (h : Renames.Reconciled changes result) :
    (result.flatMap FileChange.touched).Nodup := by
  have hlisted : changes.flatMap FileChange.touched = changes.map FileChange.path := by
    rw [List.map_eq_flatMap]
    exact List.flatMap_congr fun c hc => if_neg (hraw c hc)
  rw [(h.flatMap_perm conserved_touched).nodup_iff, hlisted]
  exact hpaths

section Moves

variable {σ : Type} [HasSession σ] {store : BlobStore} {load : String → Run σ Bytes} {l : Renames.Limits}
  {changes result : List FileChange}

/-- A rename that is found among raw changes of distinct paths has similarity 1 exactly if its blobs are equal or
its contents are alike. Its blobs are equal exactly if its contents are. A walk in which the old path is open moves
the record there to the new path, with one more change unless the similarity is 1. -/
theorem countsEdit_iff (hstore : store.IsContentAddressed) (hload : store.IsLoadedBy load)
    (hraw : ∀ c ∈ changes, c.kind ≠ .renamed) (hpaths : (changes.map FileChange.path).Nodup) {s s' : σ}
    (h : (Renames.reconcile load l changes).Returns s result s') {c : FileChange} (hc : c ∈ result)
    (hkind : c.kind = .renamed) :
    (c.similarity = .ofInt 1 ↔ c.oldBlob = c.newBlob ∨ c.HasAlikeContents store) ∧
    (c.oldBlob = c.newBlob ↔ store.content? c.oldBlob = store.content? c.newBlob) ∧
    ∀ (operations : List Operation) (commit : Commit) (old : String) (place : Nat), commit.changes = result →
      c.oldPath = some old → old ≠ "" → (run operations).at? old = some place →
      ∃ r r', (run operations).history.records[place]? = some r ∧ r.identity.path = old ∧
        ((run operations).feed commit).history.records[place]? = some r' ∧ r'.identity.path = c.path ∧
        ((r'.changeCount = r.changeCount ∧ (c.oldBlob = c.newBlob ∨ c.HasAlikeContents store)) ∨
          (r'.changeCount = r.changeCount + 1 ∧ ¬(c.oldBlob = c.newBlob ∨ c.HasAlikeContents store))) := by
  obtain ⟨p, rfl, hrated⟩ := Renames.isRated_of_returns hload hraw hpaths h c hc hkind
  have hone : p.change.similarity = .ofInt 1 ↔
      p.change.oldBlob = p.change.newBlob ∨ p.change.HasAlikeContents store := hrated.similarity_eq_one_iff
  refine ⟨hone, hrated.blobs_eq_iff hstore, ?_⟩
  rintro operations commit old place rfl hold hne hat
  have hw : (run operations).Sound := sound_empty.foldl_perform operations
  have hmoved : (run operations).moved? p.change = some place := by
    rw [moved?, hold]
    simpa [hne] using hat
  obtain ⟨r, hr, -, hpath⟩ := hw.live_of_at? _ _ hat
  have hdistinct := nodup_touched hraw hpaths (Renames.reconciled_of_returns h)
  have hrecord := hw.record_feed_of_moved hc hkind hdistinct hmoved
  rw [hr] at hrecord
  refine ⟨r, _, hr, hpath, hrecord, relocated_path _ _ _, ?_⟩
  rw [relocated_changeCount, ← hone]
  by_cases hsame : p.change.similarity = .ofInt 1
  · have hkept : isEdited p.change = false := by
      rw [← Bool.not_eq_true, isEdited]
      exact fun hlt => hrated.similarity_lt_one_iff.1 hlt hsame
    exact .inl ⟨by rw [hkept]; rfl, hsame⟩
  · have hedited : isEdited p.change = true := hrated.similarity_lt_one_iff.2 hsame
    exact .inr ⟨by rw [hedited]; rfl, hsame⟩

end Moves

/-- A store of two blobs. -/
def storeOf (old new : Bytes) : BlobStore :=
  fun id => if id = "1" then some old else if id = "2" then some new else none

/-- Loads from a store. -/
def loadFrom (store : BlobStore) (id : String) : Run Session Bytes :=
  match store id with
  | some content => pure content
  | none => Run.fail (.notFound id none)

/-- A store of two different contents is addressed by them. -/
theorem isContentAddressed_storeOf {old new : Bytes} (h : old ≠ new) : (storeOf old new).IsContentAddressed := by
  intro id other content hid hother
  unfold storeOf at hid hother
  split at hid <;> split at hother <;> grind

/-- Whatever is loaded from a store is the content there. -/
theorem isLoadedBy_loadFrom (store : BlobStore) : store.IsLoadedBy (loadFrom store) := by
  intro id s content s' h
  unfold loadFrom at h
  split at h
  · next hid =>
    obtain ⟨rfl, -⟩ := Run.returns_pure.1 h
    exact hid
  · exact (Run.returns_fail.1 h).elim

/-- A file that is deleted at one path and added at another. -/
def relisted : List FileChange :=
  [{ kind := .deleted, path := "a.py", oldBlob := some "1" },
    { kind := .added, path := "b.py", newBlob := some "2" }]

/-- The rename of such a file. -/
def moveRated (similarity : Binary64) : FileChange :=
  { kind := .renamed
    path := "b.py"
    oldPath := some "a.py"
    oldBlob := some "1"
    newBlob := some "2"
    similarity := similarity }

/-- A file that is moved with one line added to four is counted as changed. -/
theorem countsEdit_iff_added_line :
    let old := Utf8.encode "a\nb\nc\nd\n"
    let new := Utf8.encode "a\nb\nc\nd\ne\n"
    let store := storeOf old new
    let moved := moveRated (.ofRatio false 8 9)
    let before : Commit := { sha := "1", timestamp := 1, changes := [{ kind := .added, path := "a.py" }] }
    let after : Commit := { sha := "2", timestamp := 2, changes := [moved] }
    (∃ s', (Renames.reconcile (loadFrom store) {} relisted).Returns {} [moved] s') ∧
      ∃ r r', (run [.feed before]).history.records[0]? = some r ∧ r.identity.path = "a.py" ∧
        ((run [.feed before]).feed after).history.records[0]? = some r' ∧ r'.identity.path = "b.py" ∧
        r'.changeCount = r.changeCount + 1 := by
  intro old new store moved before after
  have hne : old ≠ new := by decide
  obtain ⟨s', hreturns⟩ : ∃ s', (Renames.reconcile (loadFrom store) {} relisted).Returns {} [moved] s' :=
    Run.exists_returns (by decide +kernel)
  refine ⟨⟨s', hreturns⟩, ?_⟩
  obtain ⟨hsimilarity, -, hcounts⟩ := countsEdit_iff (isContentAddressed_storeOf hne) (isLoadedBy_loadFrom store)
    (by decide) (by decide) hreturns List.mem_cons_self rfl
  obtain ⟨r, r', hr, hpath, hr', hpath', hcount⟩ := hcounts [.feed before] after "a.py" 0 rfl rfl (by decide)
    (by decide)
  have hedited : moved.similarity ≠ .ofInt 1 := by decide +kernel
  rcases hcount with ⟨-, hsame⟩ | ⟨hcount, -⟩
  · exact (hedited (hsimilarity.2 hsame)).elim
  · exact ⟨r, r', hr, hpath, hr', hpath', hcount⟩

/-- A file that is moved with two lines exchanged has similarity 1, and is not counted as changed. -/
theorem not_countsEdit_of_reordered :
    let old := Utf8.encode "x\ny\n"
    let new := Utf8.encode "y\nx\n"
    let store := storeOf old new
    let moved := moveRated (.ofInt 1)
    let before : Commit := { sha := "1", timestamp := 1, changes := [{ kind := .added, path := "a.py" }] }
    let after : Commit := { sha := "2", timestamp := 2, changes := [moved] }
    store.IsContentAddressed ∧ store.IsLoadedBy (loadFrom store) ∧
      (∃ s', (Renames.reconcile (loadFrom store) {} relisted).Returns {} [moved] s') ∧
      store.content? moved.oldBlob ≠ store.content? moved.newBlob ∧
      ((run [.feed before]).feed after).history.records.map (fun r => (r.identity.path, r.changeCount)) =
        [("b.py", 1)] := by
  intro old new store moved before after
  have hne : old ≠ new := by decide
  refine ⟨isContentAddressed_storeOf hne, isLoadedBy_loadFrom store, ?_, by decide, by decide +kernel⟩
  exact Run.exists_returns (by decide +kernel)

end Walk

end Hotspots
