import Hotspots.Proofs.History.ChangeCounts
import Mathlib.Algebra.BigOperators.Group.List.Basic
import Mathlib.Algebra.Order.Ring.Int
import Mathlib.Data.Finset.Basic
import Mathlib.Data.Finset.Card

/-!
# Every change is counted once

The change counts of all records together are a balance of what was done to a walk. An addition and an edit add one to
it, a rename adds one if it changed the content or has nothing to move, a deletion adds nothing, and filling up adds one
for every path that was missing (`Walk.totalCount_apply`, `Walk.totalCount_backfill`). So the sum over any run of
operations is known from the changes and from what was open when each of them was applied
(`Walk.changes_counted_once`).
-/

namespace Hotspots

/-- The sum of the change counts of all records. -/
def ChurnHistory.totalCount (h : ChurnHistory) : Int := (h.records.map ChurnRecord.changeCount).sum

namespace Walk

variable {w : Walk} {c : FileChange} {time : Int}

/-! ## What one step adds -/

/-- A record that counts more changes adds them to the sum. -/
theorem totalCount_modify {place : Nat} {r : ChurnRecord} (hr : w.history.records[place]? = some r)
    {f : ChurnRecord → ChurnRecord} {added : Int} (hf : (f r).changeCount = r.changeCount + added) :
    (w.modify place f).history.totalCount = w.history.totalCount + added := by
  have hsum : ∀ (records : List ChurnRecord) (place : Nat), records[place]? = some r →
      ((records.modify place f).map ChurnRecord.changeCount).sum =
        (records.map ChurnRecord.changeCount).sum + added := by
    intro records
    induction records with
    | nil => simp
    | cons first rest ih =>
      intro place hplace
      cases place with
      | zero =>
        obtain rfl : first = r := by simpa using hplace
        simp [List.modify_zero_cons, hf]
        omega
      | succ place =>
        simp [List.modify_succ_cons, ih place (by simpa using hplace)]
        omega
  exact hsum w.history.records place hr

/-- A record that counts the same changes leaves the sum alone, also where no record is. -/
theorem totalCount_modify_of_eq (w : Walk) (place : Nat) {f : ChurnRecord → ChurnRecord}
    (hf : ∀ r, (f r).changeCount = r.changeCount) :
    (w.modify place f).history.totalCount = w.history.totalCount := by
  cases hr : w.history.records[place]? with
  | some r =>
    have hsame : (f r).changeCount = r.changeCount + 0 := (hf r).trans (Int.add_zero _).symm
    exact (totalCount_modify hr hsame).trans (Int.add_zero _)
  | none =>
    have hout : w.history.records.length ≤ place := List.getElem?_eq_none_iff.1 hr
    have hsame : w.history.records.modify place f = w.history.records := List.modify_eq_self hout
    exact congrArg (fun records => (records.map ChurnRecord.changeCount).sum) hsame

/-- A path that is opened adds one. -/
theorem totalCount_openPath (w : Walk) (path : String) (time : Int) :
    (w.openPath path time).history.totalCount = w.history.totalCount + 1 := by
  simp [openPath, ChurnHistory.totalCount]

/-- A path that is touched adds one, whether it was open or not. -/
theorem Sound.totalCount_touch (hw : w.Sound) (path : String) (time : Int) :
    (w.touch path time).history.totalCount = w.history.totalCount + 1 := by
  unfold Walk.touch
  split
  · next place hat =>
    obtain ⟨r, hr, -⟩ := hw.live_of_at? path place hat
    exact totalCount_modify hr rfl
  · exact totalCount_openPath w path time

/-- A path that is closed adds nothing. -/
theorem totalCount_close (w : Walk) (path : String) (time : Int) :
    (w.close path time).history.totalCount = w.history.totalCount := by
  unfold close
  split
  · next place _ => exact totalCount_modify_of_eq w place fun _ => rfl
  · rfl

/-- A record that is moved adds one if its content changed. -/
theorem Sound.totalCount_move (hw : w.Sound) {place : Nat} (h : w.moved? c = some place) (time : Int) :
    (w.move place c time).history.totalCount = w.history.totalCount + if isEdited c then 1 else 0 := by
  obtain ⟨r, hr, -⟩ := hw.record_vacated h time
  have hcount : (relocated c time r).changeCount = r.changeCount + if isEdited c then 1 else 0 := by
    rw [relocated_changeCount]
    split <;> simp
  have hmoved := totalCount_modify hr hcount
  have hvacated : (w.vacated c time).history.totalCount = w.history.totalCount := totalCount_close _ _ _
  rw [ChurnHistory.totalCount, records_move]
  exact hmoved.trans (by rw [hvacated])

/-- Whether a rename has nothing to move: its old path is absent, empty or not open. -/
def comesUnseen (w : Walk) (c : FileChange) : Bool := c.oldPath.all fun old => old.isEmpty || !w.isOpen old

/-- A rename has nothing to move exactly if no identity is open at its old path. -/
theorem comesUnseen_eq (w : Walk) (c : FileChange) : w.comesUnseen c = (w.moved? c).isNone := by
  unfold comesUnseen moved?
  cases c.oldPath with
  | none => rfl
  | some old => cases hempty : old.isEmpty <;> simp [isOpen, hempty]

/-- Whether a rename counts as a change: its content changed, or it has nothing to move. -/
def countsRename (w : Walk) (c : FileChange) : Bool := c.kind == .renamed && (isEdited c || w.comesUnseen c)

/-- Whether a change counts when a walk applies it. -/
def counts (w : Walk) (c : FileChange) : Bool := c.kind == .added || c.kind == .modified || w.countsRename c

/-- A change adds one to the sum if it counts, and nothing if it does not. -/
theorem Sound.totalCount_apply (hw : w.Sound) (time : Int) (c : FileChange) :
    (w.apply time c).history.totalCount = w.history.totalCount + (w.counts c).toNat := by
  unfold Walk.apply counts countsRename
  rw [comesUnseen_eq]
  cases hkind : c.kind with
  | added => exact hw.totalCount_touch c.path time
  | modified => exact hw.totalCount_touch c.path time
  | deleted => exact (totalCount_close w c.path time).trans (Int.add_zero _).symm
  | renamed =>
    cases hmoved : w.moved? c with
    | none => simpa [hmoved] using totalCount_openPath w c.path time
    | some place => cases hedited : isEdited c <;> simp [hw.totalCount_move hmoved, hedited]

/-! ## What filling up adds -/

/-- The paths that are not open, each of them once. -/
def missing (w : Walk) (paths : List String) : Finset String := paths.toFinset.filter fun path => w.isOpen path = false

/-- A path that was opened is no longer missing. -/
theorem missing_openPath (w : Walk) (path : String) (time : Int) (paths : List String) :
    (w.openPath path time).missing paths = (w.missing paths).erase path := by
  ext other
  by_cases hother : other = path <;> simp [missing, isOpen, at?_openPath, hother]

/-- A path that is open is not missing. -/
theorem missing_cons_of_isOpen {path : String} (h : w.isOpen path = true) (paths : List String) :
    w.missing (path :: paths) = w.missing paths := by
  rw [missing, List.toFinset_cons, Finset.filter_insert, if_neg (by simp [h])]
  rfl

/-- A path that is not open is missing, and so are others. -/
theorem missing_cons_of_closed {path : String} (h : w.isOpen path = false) (paths : List String) :
    w.missing (path :: paths) = insert path ((w.missing paths).erase path) := by
  ext other
  by_cases hother : other = path <;> simp [missing, hother]
  exact h

/-- The order of paths makes no difference to which of them are missing. -/
theorem missing_mergeSort (w : Walk) (paths : List String) :
    w.missing (paths.mergeSort fun a b => decide (a ≤ b)) = w.missing paths :=
  congrArg (Finset.filter _) (List.toFinset_eq_of_perm _ _ (List.mergeSort_perm _ _))

/-- Opening missing paths one after the other adds as many records as there are missing paths. -/
theorem length_records_foldl_openMissing (time : Int) (w : Walk) (paths : List String) :
    (paths.foldl (openMissing time) w).history.records.length = w.history.records.length + (w.missing paths).card := by
  induction paths generalizing w with
  | nil => rfl
  | cons path rest ih =>
    rw [List.foldl_cons, ih]
    cases hopen : w.isOpen path with
    | true => rw [openMissing_of_isOpen hopen, missing_cons_of_isOpen hopen]
    | false =>
      rw [openMissing_of_closed hopen, missing_cons_of_closed hopen, missing_openPath,
        Finset.card_insert_of_notMem (Finset.notMem_erase _ _)]
      simp [openPath]
      omega

/-- Filling up opens one record for every missing path. -/
theorem openedSince_backfill (w : Walk) (paths : List String) (time : Int) :
    w.openedSince (w.backfill paths time) = (w.missing paths).card := by
  rw [openedSince, backfill, length_records_foldl_openMissing, missing_mergeSort, Nat.add_sub_cancel_left]

/-- Filling up adds the number of records that it opens. -/
theorem totalCount_backfill (w : Walk) (paths : List String) (time : Int) :
    (w.backfill paths time).history.totalCount =
      w.history.totalCount + w.openedSince (w.backfill paths time) := by
  -- Sum and number of records grow together, so that it is enough to follow their difference.
  have hboth : (w.backfill paths time).history.totalCount - (w.backfill paths time).history.records.length =
        w.history.totalCount - w.history.records.length ∧
      w.history.records.length ≤ (w.backfill paths time).history.records.length := by
    refine backfill_induction (P := fun v => v.history.totalCount - v.history.records.length =
      w.history.totalCount - w.history.records.length ∧ w.history.records.length ≤ v.history.records.length)
      ⟨rfl, Nat.le_refl _⟩ fun v path _ _ hv => ?_
    have hlength : (v.openPath path time).history.records.length = v.history.records.length + 1 := by simp [openPath]
    rw [totalCount_openPath, hlength]
    omega
  unfold openedSince
  omega

/-! ## Runs of operations -/

/-- A change and the walk that it is applied to. -/
structure Application where
  walk : Walk
  change : FileChange

/-- The changes of a commit as they are applied one after the other. -/
def applications (time : Int) : Walk → List FileChange → List Application
  | _, [] => []
  | w, c :: rest => ⟨w, c⟩ :: applications time (w.apply time c) rest

/-- The changes that operations feed as they are applied one after the other. -/
def applicationsBy : Walk → List Operation → List Application
  | _, [] => []
  | w, .feed c :: rest => applications c.timestamp w c.changes ++ applicationsBy (w.feed c) rest
  | w, .backfill paths time :: rest => applicationsBy (w.backfill paths time) rest

/-- The numbers that the operations of filling up return. -/
def openedBy : Walk → List Operation → List Nat
  | _, [] => []
  | w, .feed c :: rest => openedBy (w.feed c) rest
  | w, .backfill paths time :: rest =>
    w.openedSince (w.backfill paths time) :: openedBy (w.backfill paths time) rest

/-- The changes that an operation feeds. -/
def Operation.fed : Operation → List FileChange
  | .feed c => c.changes
  | .backfill _ _ => []

/-- Whether an applied change counts. -/
def Application.counts (a : Application) : Bool := a.walk.counts a.change

/-- Whether an applied change is a rename that counts. -/
def Application.countsRename (a : Application) : Bool := a.walk.countsRename a.change

/-- All changes of a commit are applied. -/
theorem map_change_applications (time : Int) (w : Walk) (changes : List FileChange) :
    (applications time w changes).map Application.change = changes := by
  induction changes generalizing w with
  | nil => rfl
  | cons c rest ih => simp [applications, ih]

/-- All changes that are fed are applied. -/
theorem map_change_applicationsBy (w : Walk) (operations : List Operation) :
    (applicationsBy w operations).map Application.change = operations.flatMap Operation.fed := by
  induction operations generalizing w with
  | nil => rfl
  | cons operation rest ih =>
    cases operation with
    | feed c => simp [applicationsBy, map_change_applications, ih, Operation.fed]
    | backfill paths time => simp [applicationsBy, ih, Operation.fed]

/-- The changes of a commit add the number of those that count. -/
theorem Sound.totalCount_foldl_apply (hw : w.Sound) (time : Int) (changes : List FileChange) :
    (changes.foldl (Walk.apply time) w).history.totalCount =
      w.history.totalCount + (applications time w changes).countP Application.counts := by
  induction changes generalizing w with
  | nil => simp [applications]
  | cons c rest ih =>
    rw [List.foldl_cons, ih (hw.apply time c), hw.totalCount_apply, applications, List.countP_cons]
    cases hcounts : w.counts c <;> simp [Application.counts, hcounts]
    omega

/-- Operations add the number of applied changes that count and the numbers that filling up returns. -/
theorem Sound.totalCount_foldl_perform (hw : w.Sound) (operations : List Operation) :
    (operations.foldl perform w).history.totalCount = w.history.totalCount +
      (applicationsBy w operations).countP Application.counts + (openedBy w operations).sum := by
  induction operations generalizing w with
  | nil => simp [applicationsBy, openedBy]
  | cons operation rest ih =>
    rw [List.foldl_cons]
    cases operation with
    | feed c =>
      have hfed : (w.feed c).history.totalCount =
          w.history.totalCount + (applications c.timestamp w c.changes).countP Application.counts :=
        hw.totalCount_foldl_apply c.timestamp c.changes
      change (rest.foldl perform (w.feed c)).history.totalCount = _
      rw [ih (hw.feed c), hfed, applicationsBy, openedBy, List.countP_append]
      omega
    | backfill paths time =>
      change (rest.foldl perform (w.backfill paths time)).history.totalCount = _
      rw [ih (hw.backfill paths time), totalCount_backfill, applicationsBy, openedBy, List.sum_cons]
      omega

/-- The applied changes that count are the additions, the edits, and the renames that count. -/
theorem countP_counts (applied : List Application) :
    applied.countP Application.counts = applied.countP (fun a => a.change.kind == .added) +
      applied.countP (fun a => a.change.kind == .modified) + applied.countP Application.countsRename := by
  induction applied with
  | nil => rfl
  | cons a rest ih =>
    obtain ⟨w, ⟨kind, _⟩⟩ := a
    simp only [List.countP_cons, ih, Application.counts, Application.countsRename, counts, countsRename]
    cases kind <;> simp <;> omega

/-- Every record of a run counts a change. -/
theorem IsCounted.foldl_perform (h : w.IsCounted) (operations : List Operation) :
    (operations.foldl perform w).IsCounted := by
  induction operations generalizing w with
  | nil => exact h
  | cons operation rest ih =>
    cases operation with
    | feed c => exact ih (h.grow (growsBy_feed w c))
    | backfill paths time => exact ih (h.grow (growsBy_backfill w paths time))

/-- No change is lost or counted twice. After any operations the change counts of all records add up to the number of
additions and edits that were fed, the number of renames that were below similarity 1 or had an absent, an empty or no
open old path when they were applied, and the numbers that filling up returned, each of which is the number of different
paths that were given and not open. A deletion adds nothing, and every record counts a change. -/
theorem changes_counted_once (operations : List Operation) :
    (run operations).history.totalCount =
        (operations.flatMap Operation.fed).countP (fun c => c.kind == .added) +
        (operations.flatMap Operation.fed).countP (fun c => c.kind == .modified) +
        (applicationsBy {} operations).countP (fun a => a.change.kind == .renamed &&
          (a.change.similarity.lt (.ofInt 1) ||
            a.change.oldPath.all fun old => old.isEmpty || !a.walk.isOpen old)) +
        (openedBy {} operations).sum ∧
      (∀ paths time, (run operations).openedSince ((run operations).backfill paths time) =
        (paths.toFinset.filter fun path => (run operations).isOpen path = false).card) ∧
      (∀ time c, c.kind = .deleted →
        ((run operations).apply time c).history.totalCount = (run operations).history.totalCount) ∧
      ∀ r ∈ (run operations).history.records, 1 ≤ r.changeCount := by
  have hsound : (run operations).Sound := sound_empty.foldl_perform operations
  refine ⟨?_, fun paths time => openedSince_backfill _ paths time, fun time c hkind => ?_,
    IsCounted.empty.foldl_perform operations⟩
  · have hkinds (kind : ChangeKind) : (operations.flatMap Operation.fed).countP (fun c => c.kind == kind) =
        (applicationsBy {} operations).countP fun a => a.change.kind == kind := by
      rw [← map_change_applicationsBy {}, List.countP_map]
      rfl
    have hsum := sound_empty.totalCount_foldl_perform operations
    rw [countP_counts, Int.natCast_add, Int.natCast_add] at hsum
    rw [hkinds, hkinds]
    exact hsum.trans (congrArg (· + _) (Int.zero_add _))
  · have hnot : (run operations).counts c = false := by simp [counts, countsRename, hkind]
    rw [hsound.totalCount_apply, hnot]
    exact Int.add_zero _

/-- Two files are added; then a rename without an old path opens a third one, one file is moved, the other one is moved
and edited and the moved one is deleted; in the end one of two given paths is missing. Five changes count. -/
theorem changes_counted_once_mixed :
    let operations : List Operation :=
      [.feed { sha := "1", timestamp := 1,
               changes := [{ kind := .added, path := "a" }, { kind := .added, path := "b" }] },
       .feed { sha := "2", timestamp := 2,
               changes := [{ kind := .renamed, path := "c", similarity := .ofInt 1 },
                 { kind := .renamed, path := "d", oldPath := some "a", similarity := .ofInt 1 },
                 { kind := .renamed, path := "e", oldPath := some "b", similarity := .ofRatio false 1 2 },
                 { kind := .deleted, path := "d" }] },
       .backfill ["e"] 3, .backfill ["f"] 3]
    (run operations).history.totalCount = 5 ∧
      (run operations).history.records.map (fun r => (r.identity.path, r.changeCount)) =
        [("d", 1), ("e", 2), ("c", 1), ("f", 1)] ∧ ∀ r ∈ (run operations).history.records, 1 ≤ r.changeCount := by
  intro operations
  obtain ⟨hsum, -, -, hcounted⟩ := changes_counted_once operations
  have hterms : (operations.flatMap Operation.fed).countP (fun c => c.kind == .added) = 2 ∧
      (operations.flatMap Operation.fed).countP (fun c => c.kind == .modified) = 0 ∧
      (applicationsBy {} operations).countP (fun a => a.change.kind == .renamed &&
        (a.change.similarity.lt (.ofInt 1) ||
          a.change.oldPath.all fun old => old.isEmpty || !a.walk.isOpen old)) = 2 ∧
      (openedBy {} operations).sum = 1 := by decide +kernel
  obtain ⟨hadded, hmodified, hrenamed, hopened⟩ := hterms
  rw [hadded, hmodified, hrenamed, hopened] at hsum
  exact ⟨hsum, by decide +kernel, hcounted⟩

end Walk

end Hotspots
