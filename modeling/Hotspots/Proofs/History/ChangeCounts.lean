import Hotspots.Proofs.History.OpenRecords

/-!
# How change counts grow

One change adds at most one to the count of a record, and a record that is opened counts one change. So along commits
the counts of a walk grow by no more than the number of the changes (`Walk.growsBy_foldl_feed`), and no record is ever
without a change (`Walk.IsCounted`).
-/

namespace Hotspots.Walk

/-- Every record of the later walk was opened since, or was there with a count that has not become smaller. Either way
its count has grown by no more than a number of changes. -/
def GrowsBy (changes : Nat) (w v : Walk) : Prop :=
  ∀ r ∈ v.history.records, (1 ≤ r.changeCount ∧ r.changeCount ≤ 1 + changes) ∨
    ∃ r₀ ∈ w.history.records, r₀.changeCount ≤ r.changeCount ∧ r.changeCount ≤ r₀.changeCount + changes

variable {w v : Walk} {m n : Nat}

/-- Nothing grows without a change. -/
theorem growsBy_refl (w : Walk) : GrowsBy 0 w w :=
  fun r hr => .inr ⟨r, hr, Int.le_refl _, Int.le_add_of_nonneg_right (Int.le_refl 0)⟩

/-- What grows in two steps grows by both of them. -/
theorem GrowsBy.trans {u : Walk} (h : GrowsBy m w v) (h' : GrowsBy n v u) : GrowsBy (m + n) w u := by
  intro r hr
  rcases h' r hr with hnew | ⟨r₁, hr₁, hlow, hhigh⟩
  · exact .inl ⟨hnew.1, by omega⟩
  · rcases h r₁ hr₁ with hnew | ⟨r₀, hr₀, hlow₀, hhigh₀⟩
    · exact .inl ⟨by omega, by omega⟩
    · exact .inr ⟨r₀, hr₀, by omega, by omega⟩

/-- What grows by few changes grows by more. -/
theorem GrowsBy.mono (h : GrowsBy m w v) (hmn : m ≤ n) : GrowsBy n w v := by
  intro r hr
  refine (h r hr).imp (fun hnew => ⟨hnew.1, by omega⟩) fun ⟨r₀, hr₀, hlow, hhigh⟩ => ⟨r₀, hr₀, hlow, by omega⟩

/-! ## Steps -/

/-- One record grows as it is changed. -/
theorem growsBy_modify (w : Walk) (place : Nat) {f : ChurnRecord → ChurnRecord}
    (hf : ∀ r, r.changeCount ≤ (f r).changeCount ∧ (f r).changeCount ≤ r.changeCount + n) :
    GrowsBy n w (w.modify place f) := by
  intro r hr
  obtain ⟨i, hi⟩ := List.mem_iff_getElem?.1 hr
  rw [getElem?_records_modify] at hi
  split at hi
  · obtain ⟨r₀, hr₀, rfl⟩ := Option.map_eq_some_iff.1 hi
    exact .inr ⟨r₀, List.mem_of_getElem? hr₀, hf r₀⟩
  · exact .inr ⟨r, List.mem_of_getElem? hi, by omega, by omega⟩

/-- A path that is opened counts one change. -/
theorem growsBy_openPath (w : Walk) (path : String) (time : Int) : GrowsBy 0 w (w.openPath path time) := by
  intro r hr
  rcases List.mem_append.1 hr with hr | hr
  · exact growsBy_refl w r hr
  · obtain rfl := List.mem_singleton.1 hr
    exact .inl ⟨Int.le_refl 1, Int.le_refl 1⟩

/-- Touching a path counts one change. -/
theorem growsBy_touch (w : Walk) (path : String) (time : Int) : GrowsBy 1 w (w.touch path time) := by
  unfold Walk.touch
  split
  · exact growsBy_modify w _ fun r => ⟨Int.le_add_one (Int.le_refl _), Int.le_refl _⟩
  · exact (growsBy_openPath w path time).mono (Nat.zero_le 1)

/-- Closing a path counts nothing. -/
theorem growsBy_close (w : Walk) (path : String) (time : Int) : GrowsBy 0 w (w.close path time) := by
  unfold Walk.close
  split
  · next place _ =>
    exact growsBy_modify (n := 0) w place (f := .close time) fun r =>
      ⟨Int.le_refl r.changeCount, Int.le_add_of_nonneg_right (Int.le_refl 0)⟩
  · exact growsBy_refl w

/-- Moving a record counts at most one change. -/
theorem growsBy_move (w : Walk) (place : Nat) (c : FileChange) (time : Int) : GrowsBy 1 w (w.move place c time) := by
  have hvacated : GrowsBy 0 w (w.vacated c time) :=
    growsBy_close { w with openAt := Record.erase (c.oldPath.getD "") w.openAt } c.path time
  have hmoved : GrowsBy 1 (w.vacated c time) ((w.vacated c time).modify place (relocated c time)) := by
    refine growsBy_modify _ place fun r => ?_
    unfold relocated
    split
    · exact ⟨Int.le_add_one (Int.le_refl _), Int.le_refl _⟩
    · exact ⟨Int.le_refl r.changeCount, Int.le_add_one (Int.le_refl r.changeCount)⟩
  intro r hr
  rw [records_move] at hr
  exact (hvacated.trans hmoved) r hr

/-- A change counts at most once. -/
theorem growsBy_apply (time : Int) (w : Walk) (c : FileChange) : GrowsBy 1 w (w.apply time c) := by
  unfold Walk.apply
  cases c.kind with
  | added => exact growsBy_touch w c.path time
  | modified => exact growsBy_touch w c.path time
  | deleted => exact (growsBy_close w c.path time).mono (Nat.zero_le 1)
  | renamed =>
    cases w.moved? c with
    | none => exact (growsBy_openPath w c.path time).mono (Nat.zero_le 1)
    | some place => exact growsBy_move w place c time

/-! ## Runs -/

/-- Every change of a commit counts at most once. -/
theorem growsBy_foldl_apply (time : Int) (w : Walk) (changes : List FileChange) :
    GrowsBy changes.length w (changes.foldl (Walk.apply time) w) := by
  induction changes generalizing w with
  | nil => exact growsBy_refl w
  | cons c rest ih =>
    rw [List.length_cons, Nat.add_comm]
    exact (growsBy_apply time w c).trans (ih (w.apply time c))

/-- A commit grows the counts by its changes. -/
theorem growsBy_feed (w : Walk) (c : Commit) : GrowsBy c.changes.length w (w.feed c) :=
  growsBy_foldl_apply c.timestamp w c.changes

/-- Commits grow the counts by all of their changes. -/
theorem growsBy_foldl_feed (w : Walk) (commits : List Commit) :
    GrowsBy (commits.flatMap Commit.changes).length w (commits.foldl Walk.feed w) := by
  induction commits generalizing w with
  | nil => exact growsBy_refl w
  | cons c rest ih =>
    rw [List.flatMap_cons, List.length_append]
    exact (growsBy_feed w c).trans (ih (w.feed c))

/-- Filling up opens records and changes none. -/
theorem growsBy_backfill (w : Walk) (paths : List String) (time : Int) : GrowsBy 0 w (w.backfill paths time) :=
  backfill_induction (growsBy_refl w) fun v path _ _ h => h.trans (growsBy_openPath v path time)

/-! ## Every record counts a change -/

/-- Every record counts at least one change. -/
def IsCounted (w : Walk) : Prop := ∀ r ∈ w.history.records, 1 ≤ r.changeCount

namespace IsCounted

/-- An empty walk has no record without a change. -/
theorem empty : IsCounted {} := List.forall_mem_nil _

/-- Counts that only grow stay above zero. -/
theorem grow (h : w.IsCounted) (hgrows : GrowsBy n w v) : v.IsCounted := by
  intro r hr
  rcases hgrows r hr with hnew | ⟨r₀, hr₀, hlow, -⟩
  · exact hnew.1
  · exact Int.le_trans (h r₀ hr₀) hlow

/-- What is open at a path counts a change. -/
theorem of_recordAt? (h : w.IsCounted) (hw : w.Sound) {path : String} {r : ChurnRecord}
    (hr : w.recordAt? path = some r) : 1 ≤ r.changeCount := h r (hw.live_of_recordAt? hr).1

end IsCounted

end Hotspots.Walk
