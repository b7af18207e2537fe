import Hotspots.Proofs.History.OpenPaths

/-!
# Walks whose open paths are right

A walk is sound when every open path has a live record that stands there, and records are numbered by their
places. The empty walk is sound, and every change, every commit and every run of operations keeps a walk
sound. A rename is taken apart into vacating both of its paths and opening the moved record again at the new
one.
-/

namespace Hotspots.Walk

/-- A path that is open has the place of a live record that stands there, and records are numbered by
their places. -/
structure Sound (w : Walk) : Prop where
  uid_eq : ∀ (place : Nat) (r : ChurnRecord), w.history.records[place]? = some r →
    r.identity.uid = (place : Int)
  live_of_at? : ∀ (path : String) (place : Nat), w.at? path = some place →
    ∃ r, w.history.records[place]? = some r ∧ r.isLive = true ∧ r.identity.path = path

/-- An empty walk is sound. -/
theorem sound_empty : Sound {} := ⟨by simp, by simp [at?, Record.get?]⟩

/-- Two paths are never open at one place. -/
theorem Sound.at?_injective {w : Walk} (hw : w.Sound) {path other : String} {place : Nat}
    (hpath : w.at? path = some place) (hother : w.at? other = some place) : path = other := by
  obtain ⟨r, hr, -, hp⟩ := hw.live_of_at? _ _ hpath
  obtain ⟨r', hr', -, ho⟩ := hw.live_of_at? _ _ hother
  rw [hr] at hr'
  cases hr'
  rw [← hp, ho]

/-! ## Steps that keep a walk sound -/

/-- Looking up a record after one place was changed. -/
theorem getElem?_records_modify (w : Walk) (place : Nat) (f : ChurnRecord → ChurnRecord) (i : Nat) :
    (w.modify place f).history.records[i]? =
      if place = i then w.history.records[i]?.map f else w.history.records[i]? := by
  rw [show (w.modify place f).history.records = w.history.records.modify place f from rfl,
    List.getElem?_modify]
  split <;> simp

/-- A change of one record that keeps its number keeps the numbering. -/
theorem uid_eq_modify {w : Walk} (hw : w.Sound) (place : Nat) {f : ChurnRecord → ChurnRecord}
    (hf : ∀ r, (f r).identity.uid = r.identity.uid) (i : Nat) (r : ChurnRecord)
    (h : (w.modify place f).history.records[i]? = some r) : r.identity.uid = (i : Int) := by
  rw [getElem?_records_modify] at h
  split at h
  · obtain ⟨r', hr', rfl⟩ := Option.map_eq_some_iff.1 h
    rw [hf, hw.uid_eq _ _ hr']
  · exact hw.uid_eq _ _ h

/-- Opening a path keeps a walk sound. -/
theorem Sound.openPath {w : Walk} (hw : w.Sound) (path : String) (time : Int) :
    (w.openPath path time).Sound where
  uid_eq place r h := by
    simp only [Walk.openPath, List.getElem?_append] at h
    split at h
    · exact hw.uid_eq _ _ h
    · next hplace =>
      rw [List.getElem?_singleton] at h
      split at h
      · cases h
        simp only
        omega
      · cases h
  live_of_at? other place h := by
    rw [at?_openPath] at h
    split at h
    · next heq =>
      cases h
      refine ⟨_, List.getElem?_concat_length, rfl, heq.symm⟩
    · obtain ⟨r, hr, hlive, hpath⟩ := hw.live_of_at? _ _ h
      refine ⟨r, ?_, hlive, hpath⟩
      rw [show (w.openPath path time).history.records = w.history.records ++ [_] from rfl,
        List.getElem?_append_left (List.getElem?_eq_some_iff.1 hr).1, hr]

/-- Changing a record without moving or closing it keeps a walk sound. -/
theorem Sound.modify {w : Walk} (hw : w.Sound) (place : Nat) {f : ChurnRecord → ChurnRecord}
    (hidentity : ∀ r, (f r).identity = r.identity) (hlive : ∀ r, (f r).isLive = r.isLive) :
    (w.modify place f).Sound where
  uid_eq := uid_eq_modify hw place fun r => by rw [hidentity]
  live_of_at? path i h := by
    obtain ⟨r, hr, hl, hp⟩ := hw.live_of_at? path i h
    rw [getElem?_records_modify]
    split
    · exact ⟨f r, by rw [hr]; rfl, by rw [hlive, hl], by rw [hidentity, hp]⟩
    · exact ⟨r, hr, hl, hp⟩

/-- Closing a path keeps a walk sound. -/
theorem Sound.close {w : Walk} (hw : w.Sound) (path : String) (time : Int) : (w.close path time).Sound := by
  unfold Walk.close
  split
  · next place hplace =>
    refine ⟨uid_eq_modify hw place fun _ => rfl, fun other i h => ?_⟩
    have hat : w.at? other = some i ∧ other ≠ path := by
      have h' : Record.get? other (Record.erase path w.openAt) = some i := h
      rw [Record.get?_erase] at h'
      split at h'
      · cases h'
      · next hne => exact ⟨h', hne⟩
    obtain ⟨r, hr, hlive, hpath⟩ := hw.live_of_at? other i hat.1
    refine ⟨r, ?_, hlive, hpath⟩
    change (w.modify place _).history.records[i]? = some r
    rw [getElem?_records_modify, if_neg, hr]
    rintro rfl
    exact hat.2 (hw.at?_injective hat.1 hplace)
  · exact hw

/-- Soundness depends on the records and on what is open, not on how the open paths are listed. -/
theorem Sound.congr {w v : Walk} (hw : w.Sound) (hrecords : v.history.records = w.history.records)
    (hat : ∀ path, v.at? path = w.at? path) : v.Sound where
  uid_eq place r h := hw.uid_eq place r (hrecords ▸ h)
  live_of_at? path place h := by
    rw [hrecords]
    exact hw.live_of_at? path place (hat path ▸ h)

/-- Closing a path without closing its record keeps a walk sound. -/
theorem Sound.forget {w : Walk} (hw : w.Sound) (path : String) :
    ({ w with openAt := Record.erase path w.openAt } : Walk).Sound where
  uid_eq := hw.uid_eq
  live_of_at? other place h := by
    have h' : Record.get? other (Record.erase path w.openAt) = some place := h
    rw [Record.get?_erase] at h'
    split at h'
    · cases h'
    · exact hw.live_of_at? other place h'

/-- A live record that is open nowhere may be moved to a path and opened there. -/
theorem Sound.reopen {w : Walk} (hw : w.Sound) {place : Nat} {r : ChurnRecord}
    (hr : w.history.records[place]? = some r) (hlive : r.isLive = true)
    (hfree : ∀ path, w.at? path ≠ some place) (path : String) {f : ChurnRecord → ChurnRecord}
    (hpath : (f r).identity.path = path) (huid : ∀ r, (f r).identity.uid = r.identity.uid)
    (hkeeps : ∀ r, (f r).isLive = r.isLive) :
    ({ w.modify place f with openAt := Record.put path place w.openAt } : Walk).Sound where
  uid_eq := uid_eq_modify hw place huid
  live_of_at? other i h := by
    change ∃ r, (w.modify place f).history.records[i]? = some r ∧ _
    have h' : Record.get? other (Record.put path place w.openAt) = some i := h
    rw [Record.get?_put] at h'
    split at h'
    · next heq =>
      cases h'
      refine ⟨f r, ?_, by rw [hkeeps, hlive], by rw [hpath, heq]⟩
      rw [getElem?_records_modify, if_pos rfl, hr]
      rfl
    · obtain ⟨r', hr', hlive', hpath'⟩ := hw.live_of_at? other i h'
      refine ⟨r', ?_, hlive', hpath'⟩
      rw [getElem?_records_modify, if_neg, hr']
      rintro rfl
      exact hfree other h'

/-- What becomes of the record that a rename moves. -/
def relocated (c : FileChange) (time : Int) (r : ChurnRecord) : ChurnRecord :=
  if isEdited c then (r.moveTo c.path).touch time else r.moveTo c.path

/-- A moved record keeps its number. -/
theorem relocated_uid (c : FileChange) (time : Int) (r : ChurnRecord) :
    (relocated c time r).identity.uid = r.identity.uid := by unfold relocated; split <;> rfl

/-- A moved record is as live as before. -/
theorem relocated_isLive (c : FileChange) (time : Int) (r : ChurnRecord) :
    (relocated c time r).isLive = r.isLive := by unfold relocated; split <;> rfl

/-- A moved record stands at the new path. -/
theorem relocated_path (c : FileChange) (time : Int) (r : ChurnRecord) :
    (relocated c time r).identity.path = c.path := by unfold relocated; split <;> rfl

/-- A moved record has one more change if the move is an edit. -/
theorem relocated_changeCount (c : FileChange) (time : Int) (r : ChurnRecord) :
    (relocated c time r).changeCount = if isEdited c then r.changeCount + 1 else r.changeCount := by
  unfold relocated
  split <;> rfl

/-- The walk in the middle of a rename: the old path is vacant, and so is the new one. -/
def vacated (w : Walk) (c : FileChange) (time : Int) : Walk :=
  ({ w with openAt := Record.erase (c.oldPath.getD "") w.openAt } : Walk).close c.path time

/-- A rename changes the moved record after both of its paths were vacated. -/
theorem records_move (w : Walk) (place : Nat) (c : FileChange) (time : Int) :
    (w.move place c time).history.records =
      ((w.vacated c time).modify place (relocated c time)).history.records := by
  unfold move vacated Walk.close
  dsimp only
  split <;> rfl

/-- In the middle of a rename neither of its paths is open. -/
theorem at?_vacated (w : Walk) (c : FileChange) (time : Int) (path : String) :
    (w.vacated c time).at? path =
      if path = c.path ∨ path = c.oldPath.getD "" then none else w.at? path := by
  rw [vacated, at?_close]
  by_cases hp : path = c.path
  · simp [hp]
  · rw [if_neg hp]
    change Record.get? path (Record.erase _ w.openAt) = _
    simp only [Record.get?_erase, hp, false_or]
    rfl

/-- A walk in the middle of a rename is sound. -/
theorem Sound.vacated {w : Walk} (hw : w.Sound) (c : FileChange) (time : Int) :
    (w.vacated c time).Sound := (hw.forget _).close _ _

/-- The record that a rename moves is still there and live after the paths were vacated. -/
theorem Sound.record_vacated {w : Walk} (hw : w.Sound) {c : FileChange} {place : Nat}
    (h : w.moved? c = some place) (time : Int) :
    ∃ r, (w.vacated c time).history.records[place]? = some r ∧ r.isLive = true ∧
      w.history.records[place]? = some r := by
  obtain ⟨old, hold, -, hat⟩ := at?_of_moved? h
  obtain ⟨r, hr, hlive, -⟩ := hw.live_of_at? _ _ hat
  refine ⟨r, ?_, hlive, hr⟩
  unfold Walk.vacated Walk.close
  split
  · next displaced hdisplaced =>
    change (w.modify displaced _).history.records[place]? = some r
    rw [getElem?_records_modify, if_neg, hr]
    rintro rfl
    have hget : Record.get? c.path (Record.erase (c.oldPath.getD "") w.openAt) = some displaced :=
      hdisplaced
    rw [Record.get?_erase, hold] at hget
    split at hget
    · cases hget
    · next hne => exact hne (hw.at?_injective hget hat)
  · exact hr

/-- The record that a rename moves is open nowhere in the middle of it. -/
theorem Sound.at?_vacated_ne {w : Walk} (hw : w.Sound) {c : FileChange} {place : Nat}
    (h : w.moved? c = some place) (time : Int) (path : String) : (w.vacated c time).at? path ≠ some place := by
  obtain ⟨old, hold, -, hat⟩ := at?_of_moved? h
  intro hpath
  rw [at?_vacated, hold] at hpath
  split at hpath
  · cases hpath
  · next hne => exact hne (.inr (hw.at?_injective hpath hat))

/-- After a rename the new path has the moved record, and the other paths are as they were when both were
vacant. -/
theorem at?_move_eq (w : Walk) (place : Nat) (c : FileChange) (time : Int) (path : String) :
    (w.move place c time).at? path =
      Record.get? path (Record.put c.path place (w.vacated c time).openAt) := by
  rw [at?_move, Record.get?_put]
  split
  · rfl
  · next hne =>
    have hvacated := at?_vacated w c time path
    simp only [hne, false_or] at hvacated
    exact hvacated.symm

/-- A rename of an open identity keeps a walk sound. -/
theorem Sound.move {w : Walk} (hw : w.Sound) {c : FileChange} {place : Nat}
    (h : w.moved? c = some place) (time : Int) : (w.move place c time).Sound := by
  obtain ⟨r, hr, hlive, -⟩ := hw.record_vacated h time
  exact ((hw.vacated c time).reopen hr hlive (hw.at?_vacated_ne h time) c.path (relocated_path c time r)
    (relocated_uid c time) (relocated_isLive c time)).congr (records_move w place c time)
    (at?_move_eq w place c time)

/-- Touching a path keeps a walk sound. -/
theorem Sound.touch {w : Walk} (hw : w.Sound) (path : String) (time : Int) : (w.touch path time).Sound := by
  unfold Walk.touch
  split
  · exact hw.modify _ (fun _ => rfl) (fun _ => rfl)
  · exact hw.openPath _ _

/-- Every change keeps a walk sound. -/
theorem Sound.apply {w : Walk} (hw : w.Sound) (time : Int) (c : FileChange) : (w.apply time c).Sound := by
  unfold Walk.apply
  cases c.kind with
  | added => exact hw.touch _ _
  | modified => exact hw.touch _ _
  | deleted => exact hw.close _ _
  | renamed =>
    cases hmoved : w.moved? c with
    | none => exact hw.openPath _ _
    | some place => exact hw.move hmoved time

/-- The changes of a commit keep a walk sound. -/
theorem Sound.foldl_apply {w : Walk} (hw : w.Sound) (time : Int) (changes : List FileChange) :
    (changes.foldl (Walk.apply time) w).Sound := by
  induction changes generalizing w with
  | nil => exact hw
  | cons c rest ih => exact ih (hw.apply time c)

/-- A commit keeps a walk sound. -/
theorem Sound.feed {w : Walk} (hw : w.Sound) (c : Commit) : (w.feed c).Sound :=
  (hw.foldl_apply c.timestamp c.changes).congr rfl fun _ => rfl

/-- Commits keep a walk sound. -/
theorem Sound.foldl_feed {w : Walk} (hw : w.Sound) (commits : List Commit) : (commits.foldl Walk.feed w).Sound := by
  induction commits generalizing w with
  | nil => exact hw
  | cons c rest ih => exact ih (hw.feed c)

/-- Opening missing paths keeps a walk sound. -/
theorem Sound.backfill {w : Walk} (hw : w.Sound) (paths : List String) (time : Int) :
    (w.backfill paths time).Sound :=
  backfill_induction hw fun _ path _ _ h => h.openPath path time

/-! ## Runs of operations -/

/-- What can be done to a walk from outside. -/
inductive Operation where
  /-- Walks one commit. -/
  | feed (c : Commit)
  /-- Opens the paths that have no identity. -/
  | backfill (paths : List String) (time : Int)

/-- The walk after one operation. -/
def perform (w : Walk) : Operation → Walk
  | .feed c => w.feed c
  | .backfill paths time => w.backfill paths time

/-- The walk after operations that are performed one after the other, from the empty walk on. -/
def run (operations : List Operation) : Walk := operations.foldl perform {}

/-- Operations keep a walk sound. -/
theorem Sound.foldl_perform {w : Walk} (hw : w.Sound) (operations : List Operation) :
    (operations.foldl perform w).Sound := by
  induction operations generalizing w with
  | nil => exact hw
  | cons operation rest ih =>
    refine ih ?_
    cases operation with
    | feed c => exact hw.feed c
    | backfill paths time => exact hw.backfill paths time

end Hotspots.Walk
