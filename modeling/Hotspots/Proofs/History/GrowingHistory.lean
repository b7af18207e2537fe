import Hotspots.Proofs.History.CountedChanges
import Hotspots.Proofs.History.OneChange
import Hotspots.Proofs.Record.Sorted
import Mathlib.Data.Finset.Sort
import Mathlib.Data.String.Basic

/-!
# A history only grows

A record that was opened stays under its number. Later changes may count on it and move it, but they neither take
anything back nor reach a record that is closed, because only live records are open at a path
(`Walk.Sound.growsInto_edited`). New records are appended, so that numbers tell the order in which files first
appeared. A history at one moment is therefore found again in the history at every later moment
(`Walk.history_only_grows`).
-/

namespace Hotspots

namespace ChurnRecord

/-- What a record may become: it keeps its number and its first time, loses no change and no earlier path, and is not
touched any more if it is closed. -/
structure GrowsInto (a b : ChurnRecord) : Prop where
  uid_eq : b.identity.uid = a.identity.uid
  firstModified_eq : b.firstModified = a.firstModified
  changeCount_le : a.changeCount ≤ b.changeCount
  previousPaths_prefix : a.identity.previousPaths <+: b.identity.previousPaths
  eq_of_closed : a.isLive = false → b = a

variable {a b r : ChurnRecord}

/-- A record may stay as it is. -/
theorem growsInto_refl (r : ChurnRecord) : r.GrowsInto r :=
  ⟨rfl, rfl, Int.le_refl _, List.prefix_rfl, fun _ => rfl⟩

/-- A record may grow twice. -/
theorem GrowsInto.trans {c : ChurnRecord} (h : a.GrowsInto b) (h' : b.GrowsInto c) : a.GrowsInto c where
  uid_eq := h'.uid_eq.trans h.uid_eq
  firstModified_eq := h'.firstModified_eq.trans h.firstModified_eq
  changeCount_le := Int.le_trans h.changeCount_le h'.changeCount_le
  previousPaths_prefix := h.previousPaths_prefix.trans h'.previousPaths_prefix
  eq_of_closed hclosed := by
    obtain rfl := h.eq_of_closed hclosed
    exact h'.eq_of_closed hclosed

/-- A live record may be touched. -/
theorem growsInto_touch (h : r.isLive = true) (time : Int) : r.GrowsInto (r.touch time) :=
  ⟨rfl, rfl, Int.le_add_one (Int.le_refl _), List.prefix_rfl, fun hclosed => absurd (h.symm.trans hclosed) nofun⟩

/-- A live record may be closed. -/
theorem growsInto_close (h : r.isLive = true) (time : Int) : r.GrowsInto (r.close time) :=
  ⟨rfl, rfl, Int.le_refl r.changeCount, List.prefix_rfl, fun hclosed => absurd (h.symm.trans hclosed) nofun⟩

/-- A live record may be moved. -/
theorem growsInto_moveTo (h : r.isLive = true) (path : String) : r.GrowsInto (r.moveTo path) :=
  ⟨rfl, rfl, Int.le_refl r.changeCount, List.prefix_append _ _, fun hclosed => absurd (h.symm.trans hclosed) nofun⟩

/-- The path and the time at which a record first appeared. -/
def firstSeen (r : ChurnRecord) : String × Int := (r.identity.previousPaths.headD r.identity.path, r.firstModified)

/-- A record that is moved has first appeared where it did before. -/
theorem firstSeen_moveTo (r : ChurnRecord) (path : String) : (r.moveTo path).firstSeen = r.firstSeen := by
  unfold firstSeen moveTo
  cases r.identity.previousPaths <;> rfl

end ChurnRecord

namespace Walk

variable {w v : Walk} {c : FileChange} {place : Nat} {r : ChurnRecord} {time : Int}

/-! ## What a change makes of a record -/

/-- The record that is open at a path is live. -/
theorem Sound.isLive_of_at? (hw : w.Sound) {path : String} (hat : w.at? path = some place)
    (hr : w.history.records[place]? = some r) : r.isLive = true := by
  obtain ⟨r', hr', hlive, -⟩ := hw.live_of_at? path place hat
  obtain rfl : r = r' := Option.some.inj (hr.symm.trans hr')
  exact hlive

/-- What a change makes of the live record that it is about. -/
theorem growsInto_effect (h : r.isLive = true) (time : Int) (c : FileChange) : r.GrowsInto (c.effect time r) := by
  obtain heq | heq | heq | heq := c.effect_cases time r
  · exact heq ▸ ChurnRecord.growsInto_touch h time
  · exact heq ▸ ChurnRecord.growsInto_close h time
  · exact heq ▸ ChurnRecord.growsInto_moveTo h c.path
  · have hmoved : (r.moveTo c.path).isLive = true := h
    exact heq ▸ (ChurnRecord.growsInto_moveTo h c.path).trans (ChurnRecord.growsInto_touch hmoved time)

/-- A change makes of every record what may become of it: it reaches live records only. -/
theorem Sound.growsInto_edited (hw : w.Sound) (hr : w.history.records[place]? = some r) (time : Int) (c : FileChange) :
    r.GrowsInto (w.edited time c place r) := by
  unfold edited
  split
  · next hmet =>
    obtain ⟨path, -, hat⟩ := at?_of_met? hmet
    exact growsInto_effect (hw.isLive_of_at? hat hr) time c
  · split
    · next hdisplaced =>
      exact ChurnRecord.growsInto_close (hw.isLive_of_at? (at?_of_displaced? hdisplaced) hr) time
    · exact r.growsInto_refl

/-- A change does not touch where and when a record first appeared. -/
theorem firstSeen_edited (w : Walk) (time : Int) (c : FileChange) (place : Nat) (r : ChurnRecord) :
    (w.edited time c place r).firstSeen = r.firstSeen := by
  have heffect : (c.effect time r).firstSeen = r.firstSeen := by
    obtain heq | heq | heq | heq := c.effect_cases time r
    · exact heq ▸ rfl
    · exact heq ▸ rfl
    · exact heq ▸ r.firstSeen_moveTo c.path
    · exact heq ▸ r.firstSeen_moveTo c.path
  unfold edited
  split
  · exact heffect
  · split <;> rfl

/-! ## Steps -/

/-- Every record of a walk is found in another one at the same place, as what it may become. -/
def GrowsInto (w v : Walk) : Prop :=
  ∀ (place : Nat) a, w.history.records[place]? = some a → ∃ b, v.history.records[place]? = some b ∧ a.GrowsInto b

/-- A walk may stay as it is. -/
theorem growsInto_refl (w : Walk) : w.GrowsInto w := fun _ a ha => ⟨a, ha, a.growsInto_refl⟩

/-- A walk may grow twice. -/
theorem GrowsInto.trans {u : Walk} (h : w.GrowsInto v) (h' : v.GrowsInto u) : w.GrowsInto u := by
  intro place a ha
  obtain ⟨b, hb, hab⟩ := h place a ha
  obtain ⟨d, hd, hbd⟩ := h' place b hb
  exact ⟨d, hd, hab.trans hbd⟩

/-- A walk grows by every change. -/
theorem Sound.growsInto_apply (hw : w.Sound) (time : Int) (c : FileChange) : w.GrowsInto (w.apply time c) :=
  fun _ a ha => ⟨_, (hw.getElem?_records_apply time c).2 (.inl ⟨a, ha, rfl⟩), hw.growsInto_edited ha time c⟩

/-- A walk grows by a path that is opened. -/
theorem growsInto_openPath (w : Walk) (path : String) (time : Int) : w.GrowsInto (w.openPath path time) :=
  fun _ a ha => ⟨a, (List.getElem?_append_left (List.getElem?_eq_some_iff.1 ha).1).trans ha, a.growsInto_refl⟩

/-- A change appends where and when the record that it opens first appeared. -/
theorem Sound.map_firstSeen_apply (hw : w.Sound) (time : Int) (c : FileChange) :
    (w.apply time c).history.records.map ChurnRecord.firstSeen =
      w.history.records.map ChurnRecord.firstSeen ++ if w.opens c then [(c.path, time)] else [] := by
  have hkept : (w.history.records.mapIdx (w.edited time c)).map ChurnRecord.firstSeen =
      w.history.records.map ChurnRecord.firstSeen := by
    refine List.ext_getElem? fun i => ?_
    rw [List.getElem?_map, List.getElem?_mapIdx, List.getElem?_map, Option.map_map]
    exact congrArg (Option.map · _) (funext fun r => firstSeen_edited w time c i r)
  rw [hw.records_apply, List.map_append, hkept]
  split <;> rfl

/-! ## Runs of operations -/

/-- A walk grows by the changes of a commit. -/
theorem Sound.growsInto_foldl_apply (hw : w.Sound) (time : Int) (changes : List FileChange) :
    w.GrowsInto (changes.foldl (Walk.apply time) w) := by
  induction changes generalizing w with
  | nil => exact growsInto_refl w
  | cons c rest ih => exact (hw.growsInto_apply time c).trans (ih (hw.apply time c))

/-- A walk grows by every operation. -/
theorem Sound.growsInto_perform (hw : w.Sound) (operation : Operation) : w.GrowsInto (w.perform operation) := by
  cases operation with
  | feed c => exact hw.growsInto_foldl_apply c.timestamp c.changes
  | backfill paths time =>
    exact backfill_induction (growsInto_refl w) fun v path _ _ h => h.trans (growsInto_openPath v path time)

/-- A walk grows by operations. -/
theorem Sound.growsInto_foldl_perform (hw : w.Sound) (operations : List Operation) :
    w.GrowsInto (operations.foldl perform w) := by
  induction operations generalizing w with
  | nil => exact growsInto_refl w
  | cons operation rest ih =>
    exact (hw.growsInto_perform operation).trans (ih (hw.foldl_perform [operation]))

/-- Whether an applied change opens a record. -/
def Application.opens (a : Application) : Bool := a.walk.opens a.change

/-- The paths and times at which the changes of a commit come upon files for the first time. -/
def appearances (time : Int) (w : Walk) (changes : List FileChange) : List (String × Int) :=
  ((applications time w changes).filter Application.opens).map fun a => (a.change.path, time)

/-- The paths and times at which operations come upon files for the first time. The missing paths that are filled up
appear in their order. -/
def appearancesBy : Walk → List Operation → List (String × Int)
  | _, [] => []
  | w, .feed c :: rest => appearances c.timestamp w c.changes ++ appearancesBy (w.feed c) rest
  | w, .backfill paths time :: rest =>
    ((w.missing paths).sort (· ≤ ·)).map (fun path => (path, time)) ++ appearancesBy (w.backfill paths time) rest

/-- The changes of a commit append their appearances. -/
theorem Sound.map_firstSeen_foldl_apply (hw : w.Sound) (time : Int) (changes : List FileChange) :
    (changes.foldl (Walk.apply time) w).history.records.map ChurnRecord.firstSeen =
      w.history.records.map ChurnRecord.firstSeen ++ appearances time w changes := by
  induction changes generalizing w with
  | nil => exact (List.append_nil _).symm
  | cons c rest ih =>
    rw [List.foldl_cons, ih (hw.apply time c), hw.map_firstSeen_apply, List.append_assoc]
    unfold appearances
    rw [applications, List.filter_cons, Application.opens]
    dsimp only
    split <;> rfl

/-- Paths in order that are filled up append the missing ones. -/
theorem map_firstSeen_foldl_openMissing (time : Int) (w : Walk) {paths : List String}
    (hsorted : paths.Pairwise (· ≤ ·)) :
    (paths.foldl (openMissing time) w).history.records.map ChurnRecord.firstSeen =
      w.history.records.map ChurnRecord.firstSeen ++
        ((w.missing paths).sort (· ≤ ·)).map fun path => (path, time) := by
  induction paths generalizing w with
  | nil => simp [missing]
  | cons path rest ih =>
    obtain ⟨hfirst, hrest⟩ := List.pairwise_cons.1 hsorted
    rw [List.foldl_cons, ih _ hrest]
    cases hopen : w.isOpen path with
    | true => rw [openMissing_of_isOpen hopen, missing_cons_of_isOpen hopen]
    | false =>
      have hleast : ∀ other ∈ (w.missing rest).erase path, path ≤ other := fun other hother =>
        hfirst other (List.mem_toFinset.1 (Finset.mem_filter.1 (Finset.mem_of_mem_erase hother)).1)
      rw [openMissing_of_closed hopen, missing_openPath, missing_cons_of_closed hopen,
        Finset.sort_insert _ hleast (Finset.notMem_erase _ _)]
      simp [openPath, ChurnRecord.firstSeen]

/-- Filling up appends the missing paths in their order. -/
theorem map_firstSeen_backfill (w : Walk) (paths : List String) (time : Int) :
    (w.backfill paths time).history.records.map ChurnRecord.firstSeen =
      w.history.records.map ChurnRecord.firstSeen ++
        ((w.missing paths).sort (· ≤ ·)).map fun path => (path, time) := by
  have hsorted : (paths.mergeSort fun a b => decide (a ≤ b)).Pairwise (· ≤ ·) := pairwise_mergeSort_key id paths
  rw [backfill, map_firstSeen_foldl_openMissing time w hsorted, missing_mergeSort]

/-- Operations append their appearances. -/
theorem Sound.map_firstSeen_foldl_perform (hw : w.Sound) (operations : List Operation) :
    (operations.foldl perform w).history.records.map ChurnRecord.firstSeen =
      w.history.records.map ChurnRecord.firstSeen ++ appearancesBy w operations := by
  induction operations generalizing w with
  | nil => exact (List.append_nil _).symm
  | cons operation rest ih =>
    have hstep : (w.perform operation).Sound := hw.foldl_perform [operation]
    rw [List.foldl_cons, ih hstep]
    cases operation with
    | feed c =>
      have hfed : (w.feed c).history.records.map ChurnRecord.firstSeen =
          w.history.records.map ChurnRecord.firstSeen ++ appearances c.timestamp w c.changes :=
        hw.map_firstSeen_foldl_apply c.timestamp c.changes
      rw [perform, hfed, appearancesBy, List.append_assoc]
    | backfill paths time => rw [perform, map_firstSeen_backfill, appearancesBy, List.append_assoc]

/-- A history only grows. After any operations the records are numbered from 0 on in the order in which their files
first appeared: in the order of the changes that found nothing open, and of the missing paths that were filled up.
Each record of an earlier moment is there at every later one under its number, with the same first time, no fewer
changes, and earlier paths that begin with those that it had; one that was deleted is the same in every field. -/
theorem history_only_grows (earlier later : List Operation) :
    let before := (run earlier).history
    let after := (run (earlier ++ later)).history
    after.records.map (·.identity.uid) = (List.range after.records.length).map Int.ofNat ∧
      after.records.map ChurnRecord.firstSeen = appearancesBy {} (earlier ++ later) ∧
      ∀ a ∈ before.records, ∃ b ∈ after.records, b.identity.uid = a.identity.uid ∧
        b.firstModified = a.firstModified ∧ a.changeCount ≤ b.changeCount ∧
        a.identity.previousPaths <+: b.identity.previousPaths ∧ (a.deletedAt ≠ none → b = a) := by
  have hbefore : (run earlier).Sound := sound_empty.foldl_perform earlier
  have hafter : (run (earlier ++ later)).Sound := sound_empty.foldl_perform (earlier ++ later)
  refine ⟨?_, sound_empty.map_firstSeen_foldl_perform (earlier ++ later), fun a ha => ?_⟩
  · refine List.ext_getElem? fun i => ?_
    rw [List.getElem?_map, List.getElem?_map]
    cases hr : (run (earlier ++ later)).history.records[i]? with
    | some r =>
      rw [List.getElem?_range (List.getElem?_eq_some_iff.1 hr).1, Option.map_some, Option.map_some,
        hafter.uid_eq i r hr]
      rfl
    | none => simpa using hr
  · obtain ⟨place, hplace⟩ := List.mem_iff_getElem?.1 ha
    have hgrows := hbefore.growsInto_foldl_perform later
    rw [run, ← List.foldl_append] at hgrows
    obtain ⟨b, hb, hab⟩ := hgrows place a hplace
    refine ⟨b, List.mem_of_getElem? hb, hab.uid_eq, hab.firstModified_eq, hab.changeCount_le, hab.previousPaths_prefix,
      fun hdeleted => hab.eq_of_closed ?_⟩
    rwa [ChurnRecord.isLive, Option.isNone_eq_false_iff, Option.isSome_iff_ne_none]

end Walk

end Hotspots
