import Hotspots.Proofs.History.FilledPaths
import Hotspots.Proofs.History.LiveIdentity

/-!
# The walk tracks the tree

After each commit of a history the live paths are files of its tree, and all of them if the history began
with the empty tree. A path is filled only if there is a file now and cleared only if there is none, and a
rename never comes to an open path. A history that began with other files lacks those that it never touches,
and filling up with the files of the last tree adds exactly these.
-/

namespace Hotspots.Walk

variable {f : ObjectFormat} {before : Tree f} {r : Revision f}

/-- Renames that come to paths that are not open and that no earlier change filled hide nothing. -/
theorem shadowed_eq_nil {time : Int} {w : Walk} {changes : List FileChange}
    (hclosed : ∀ c ∈ changes, c.kind = .renamed → w.isOpen c.path = false)
    (hfresh : changes.Pairwise fun c d => d.kind = .renamed → ¬c.Fills d.path) :
    shadowed time w changes = [] := by
  induction changes generalizing w with
  | nil => rfl
  | cons c rest ih =>
    rw [List.pairwise_cons] at hfresh
    have hshadows : w.shadows c = false := by
      unfold shadows
      cases hkind : c.kind <;> simp [hkind, hclosed c List.mem_cons_self]
    have hrest : shadowed time (w.apply time c) rest = [] := by
      refine ih (fun d hd hrenamed => ?_) hfresh.2
      have hwas := hclosed d (List.mem_cons_of_mem _ hd) hrenamed
      rw [← Bool.not_eq_true, isOpen_apply, hwas]
      simp [hfresh.1 d hd hrenamed]
    rw [shadowed, hshadows, hrest]
    rfl

/-- A walk tracks a tree: nothing is live but the records that are open, and these are at tracked paths. -/
structure Tracks (w : Walk) (t : Tree f) : Prop where
  sound : w.Sound
  accounted : Accounted [] w
  mem_tracked : ∀ path, w.isOpen path = true → path ∈ t.tracked

/-- An empty walk tracks every tree. -/
theorem tracks_empty (t : Tree f) : Tracks {} t :=
  ⟨sound_empty, accounted_empty, fun path h => by simp [isOpen, at?, Record.get?] at h⟩

/-- The live paths of a walk that tracks a tree are the open ones, each live once. -/
theorem Tracks.livePaths {w : Walk} {t : Tree f} (h : w.Tracks t) :
    w.history.livePaths.Nodup ∧ ∀ path, path ∈ w.history.livePaths ↔ w.isOpen path = true := by
  have hcount : ∀ path, w.history.livePaths.count path = (w.isOpen path).toNat := by
    intro path
    rw [ChurnHistory.count_livePaths, h.accounted path]
    simp
  constructor
  · rw [List.nodup_iff_count_le_one]
    intro path
    rw [hcount]
    exact Bool.toNat_le _
  · intro path
    rw [← List.count_pos_iff, hcount]
    cases w.isOpen path <;> simp

/-- What is open after a commit of a revision: what it fills, and what was open and is not cleared. -/
theorem isOpen_feed {w : Walk} {c : Commit} (hchanges : Renames.Reconciled (r.changes before) c.changes)
    {path : String} :
    (w.feed c).isOpen path = true ↔ (path ∈ r.listed ∧ path ∈ r.tree.tracked) ∨
      (w.isOpen path = true ∧ ∀ d ∈ c.changes, ¬d.Clears path) := by
  rw [← Revision.exists_fills_iff hchanges]
  exact isOpen_foldl_apply c.timestamp c.changes w (Revision.not_clears_of_fills hchanges) path

/-- The commit of a revision hides nothing in a walk that tracks the tree before. -/
theorem Tracks.shadowed_eq_nil {w : Walk} (h : w.Tracks before) (hfollows : r.Follows before) {c : Commit}
    (hchanges : Renames.Reconciled (r.changes before) c.changes) :
    shadowed c.timestamp w c.changes = [] := by
  have hfilled : (c.changes.flatMap FileChange.filled).Nodup :=
    (Revision.filled_perm hchanges).nodup_iff.2 (hfollows.nodup.filter _)
  refine Walk.shadowed_eq_nil ?_ ?_
  · intro d hd hrenamed
    have harrived : d.path ∈ c.changes.flatMap FileChange.arrived :=
      List.mem_flatMap.2 ⟨d, hd, by simp [FileChange.arrived, hrenamed]⟩
    rw [(Revision.arrived_perm hchanges).mem_iff, List.mem_filter, Bool.and_eq_true] at harrived
    rw [← Bool.not_eq_true]
    intro hopen
    have hwas := h.mem_tracked d.path hopen
    rw [Tree.mem_tracked, Option.isSome_iff_ne_none] at hwas
    exact hwas (Option.isNone_iff_eq_none.1 harrived.2.1)
  · refine (List.nodup_flatMap.1 hfilled).2.imp ?_
    intro a d hdisjoint hrenamed hfills
    refine hdisjoint (FileChange.mem_filled.2 hfills) (FileChange.mem_filled.2 ⟨?_, rfl⟩)
    rw [hrenamed]
    decide

/-- A commit of a revision keeps a walk on the track. -/
theorem Tracks.feed {w : Walk} (h : w.Tracks before) (hfollows : r.Follows before) {c : Commit}
    (hchanges : Renames.Reconciled (r.changes before) c.changes) : (w.feed c).Tracks r.tree where
  sound := h.sound.feed c
  accounted := by
    have hfed := h.accounted.foldl_apply h.sound c.timestamp c.changes
    rw [h.shadowed_eq_nil hfollows hchanges] at hfed
    exact hfed.congr (List.Perm.refl _) rfl fun _ => rfl
  mem_tracked path hopen := by
    rcases (isOpen_feed hchanges).1 hopen with ⟨-, hnow⟩ | ⟨hopen, hkept⟩
    · exact hnow
    · have hwas := h.mem_tracked path hopen
      by_cases hlisted : path ∈ r.listed
      · by_contra hgone
        obtain ⟨d, hd, hclears⟩ :=
          (Revision.exists_clears_iff hchanges (Tree.ne_empty_of_mem_tracked hwas)).2 ⟨hlisted, hwas, hgone⟩
        exact hkept d hd hclears
      · exact (hfollows.mem_tracked_iff hlisted).2 hwas

/-- A commit of a revision keeps every tracked path open, if every one was open before. -/
theorem isOpen_feed_of_mem_tracked {w : Walk} (hfollows : r.Follows before) {c : Commit}
    (hchanges : Renames.Reconciled (r.changes before) c.changes)
    (hcovers : ∀ path ∈ before.tracked, w.isOpen path = true) :
    ∀ path ∈ r.tree.tracked, (w.feed c).isOpen path = true := by
  intro path hnow
  rw [isOpen_feed hchanges]
  by_cases hlisted : path ∈ r.listed
  · exact .inl ⟨hlisted, hnow⟩
  · refine .inr ⟨hcovers path ((hfollows.mem_tracked_iff hlisted).1 hnow), fun d hd hclears => ?_⟩
    exact hlisted
      ((Revision.exists_clears_iff hchanges (Tree.ne_empty_of_mem_tracked hnow)).1 ⟨d, hd, hclears⟩).1

/-- A walk along a replayed history tracks its last tree, and has all of its tracked paths open if it had
all of them open at the beginning. -/
theorem Tracks.foldl_feed {w : Walk} {revisions : List (Revision f)} {commits : List Commit}
    (hreplayed : Revision.Replayed before revisions commits) (h : w.Tracks before) :
    (commits.foldl Walk.feed w).Tracks (Revision.lastTree before revisions) ∧
      ((∀ path ∈ before.tracked, w.isOpen path = true) →
        ∀ path ∈ (Revision.lastTree before revisions).tracked,
          (commits.foldl Walk.feed w).isOpen path = true) := by
  induction hreplayed generalizing w with
  | nil before => exact ⟨h, id⟩
  | cons hfollows hchanges _ _ _ ih =>
    obtain ⟨htracks, hcovers⟩ := ih (h.feed hfollows hchanges)
    exact ⟨htracks, fun hall => hcovers (isOpen_feed_of_mem_tracked hfollows hchanges hall)⟩

/-- Filling up with tracked paths of a tree keeps a walk on its track. -/
theorem Tracks.backfill {w : Walk} {t : Tree f} (h : w.Tracks t) {paths : List String}
    (hpaths : paths ⊆ t.tracked) (time : Int) : (w.backfill paths time).Tracks t where
  sound := h.sound.backfill paths time
  accounted := h.accounted.backfill paths time
  mem_tracked path hopen := by
    rcases (isOpen_backfill w paths time path).1 hopen with hopen | hpath
    · exact h.mem_tracked path hopen
    · exact hpaths hpath

/-- After any number of commits of a history the live paths of the walk are regular files and symbolic links
of the tree, none of them twice, and are all of these if the history began with the empty tree; filling up with
the regular files of the tree gives each of these one live record and still leaves no other path live. -/
theorem livePaths_track_tree {σ : Type} [HasSession σ] {load : String → Run σ Bytes}
    (hload : ∀ id, (load id).IsTotal) (l : Renames.Limits) {start : Tree f} {revisions : List (Revision f)}
    (hhistory : Revision.IsHistory start revisions) (s : σ) :
    ∃ commits s', (Revision.commits load l start revisions).Returns s commits s' ∧
      ∀ i,
        let w := (commits.take i).foldl Walk.feed {}
        let tree := Revision.lastTree start (revisions.take i)
        (w.history.livePaths.Nodup ∧ ∀ path ∈ w.history.livePaths, path ∈ tree.tracked) ∧
        (start.entries = [] → ∀ path, path ∈ w.history.livePaths ↔ path ∈ tree.tracked) ∧
        ∀ time,
          let full := w.backfill tree.files time
          (∀ path ∈ tree.files, full.history.livePaths.count path = 1) ∧
            full.history.livePaths.Nodup ∧ ∀ path ∈ full.history.livePaths, path ∈ tree.tracked := by
  obtain ⟨commits, s', hcommits, hreplayed⟩ := Revision.returns_commits hload l hhistory s
  refine ⟨commits, s', hcommits, fun i => ?_⟩
  obtain ⟨htracks, hcovers⟩ := Tracks.foldl_feed (hreplayed.take i) (tracks_empty start)
  obtain ⟨hnodup, hlive⟩ := htracks.livePaths
  refine ⟨⟨hnodup, fun path hpath => htracks.mem_tracked path ((hlive path).1 hpath)⟩, ?_, ?_⟩
  · intro hempty path
    have hall : ∀ path ∈ start.tracked, isOpen {} path = true := by simp [Tree.tracked, hempty]
    exact ⟨fun hpath => htracks.mem_tracked path ((hlive path).1 hpath),
      fun hpath => (hlive path).2 (hcovers hall path hpath)⟩
  · intro time
    have hfull := htracks.backfill (Tree.files_subset_tracked _) time
    obtain ⟨hfullNodup, hfullLive⟩ := hfull.livePaths
    refine ⟨fun path hfile => ?_, hfullNodup, fun path hpath => ?_⟩
    · refine List.count_eq_one_of_mem hfullNodup ((hfullLive path).2 ?_)
      exact (isOpen_backfill _ _ _ _).2 (.inr hfile)
    · exact hfull.mem_tracked path ((hfullLive path).1 hpath)

/-- A file is added and moved, a symbolic link stays, and a file gives way to a link to another repository:
two files are live in the end, the moved one and the symbolic link. -/
theorem livePaths_track_tree_moved :
    let file := TreeNode.file false (.repeated .sha1 'a' (by decide) (by decide))
    let other := TreeNode.file true (.repeated .sha1 'b' (by decide) (by decide))
    let symlink := TreeNode.symlink (.repeated .sha1 'c' (by decide) (by decide))
    let gitlink := TreeNode.gitlink (.repeated .sha1 'd' (by decide) (by decide))
    let first : Tree .sha1 := ⟨[("a", file), ("d", other), ("s", symlink)], by decide, by decide⟩
    let second : Tree .sha1 := ⟨[("b", file), ("d", gitlink), ("s", symlink)], by decide, by decide⟩
    let revisions : List (Revision .sha1) :=
      [⟨"1", [], 10, first, Revision.differing .empty first⟩,
       ⟨"2", ["1"], 20, second, Revision.differing first second⟩]
    let load : String → Run Session Bytes := fun _ => pure []
    (∀ id, (load id).IsTotal) ∧ Revision.IsHistory .empty revisions ∧
      ∃ commits s', (Revision.commits load {} .empty revisions).Returns {} commits s' ∧
        ∀ path, path ∈ ((commits.take 2).foldl Walk.feed {}).history.livePaths ↔ path ∈ ["b", "s"] := by
  intro file other symlink gitlink first second revisions load
  have hload : ∀ id, (load id).IsTotal := fun _ => Run.isTotal_pure []
  have hhistory : Revision.IsHistory .empty revisions :=
    ⟨Revision.follows_of_listed_eq rfl, Revision.follows_of_listed_eq rfl, trivial⟩
  obtain ⟨commits, s', hcommits, htrack⟩ := livePaths_track_tree hload {} hhistory {}
  exact ⟨hload, hhistory, commits, s', hcommits, (htrack 2).2.1 rfl⟩

end Hotspots.Walk
