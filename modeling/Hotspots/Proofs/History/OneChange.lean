import Hotspots.Proofs.History.OpenRecords

/-!
# What one change does

A change is about the record that is open at its path, a rename about the one at its old path. It edits this record,
or opens a new one if there is none and the change is no deletion; a rename also closes the record that it displaces
at its new path. No other record is touched (`Walk.Sound.records_apply`), and no path is opened or closed but those
that the change mentions (`Walk.at?_apply`). What holds of every run is derived from these two equations.
-/

namespace Hotspots

namespace FileChange

/-- The paths that a change mentions: its own, and the old path of a rename unless it is empty. -/
def mentioned (c : FileChange) : List String :=
  c.path :: (c.oldPath.filter fun old => c.kind = .renamed && !old.isEmpty).toList

variable {c : FileChange} {path : String}

/-- The path of a change and the old path of a rename are mentioned. -/
theorem mem_mentioned :
    path ∈ c.mentioned ↔ path = c.path ∨ (c.kind = .renamed ∧ c.oldPath = some path ∧ path ≠ "") := by
  rw [mentioned, List.mem_cons, Option.mem_toList, Option.filter_eq_some_iff]
  simp only [Bool.and_eq_true, decide_eq_true_eq, Bool.not_eq_true', String.isEmpty_eq_false_iff]
  tauto

/-- The path of a change is mentioned. -/
theorem path_mem_mentioned (c : FileChange) : c.path ∈ c.mentioned := List.mem_cons_self

/-- A path that a change fills is mentioned. -/
theorem Fills.mem_mentioned (h : c.Fills path) : path ∈ c.mentioned := h.2 ▸ c.path_mem_mentioned

/-- A path that a change clears is mentioned. -/
theorem Clears.mem_mentioned (h : c.Clears path) : path ∈ c.mentioned :=
  FileChange.mem_mentioned.2 (h.imp (fun h => h.2.symm) id)

/-- What a change makes of the record that it is about. -/
def effect (time : Int) (c : FileChange) (r : ChurnRecord) : ChurnRecord :=
  match c.kind with
  | .added => r.touch time
  | .modified => r.touch time
  | .deleted => r.close time
  | .renamed => Walk.relocated c time r

/-- A change touches a record, closes it, moves it, or moves and touches it. -/
theorem effect_cases (time : Int) (c : FileChange) (r : ChurnRecord) :
    c.effect time r = r.touch time ∨ c.effect time r = r.close time ∨ c.effect time r = r.moveTo c.path ∨
      c.effect time r = (r.moveTo c.path).touch time := by
  unfold effect Walk.relocated
  cases c.kind with
  | added => exact .inl rfl
  | modified => exact .inl rfl
  | deleted => exact .inr (.inl rfl)
  | renamed =>
    dsimp only
    split
    · exact .inr (.inr (.inr rfl))
    · exact .inr (.inr (.inl rfl))

end FileChange

namespace Walk

variable {w : Walk} {c : FileChange} {path : String} {place : Nat} {time : Int}

/-- Whether a change opens a record. -/
def opens (w : Walk) (c : FileChange) : Bool := c.kind != .deleted && (w.met? c).isNone

/-- The place of the record that a change displaces: a rename that moves a record finds another one at its new path. -/
def displaced? (w : Walk) (c : FileChange) : Option Nat :=
  if c.kind = .renamed ∧ (w.met? c).isSome then w.at? c.path else none

/-- What becomes of the record at a place by a change. -/
def edited (w : Walk) (time : Int) (c : FileChange) (place : Nat) (r : ChurnRecord) : ChurnRecord :=
  if w.met? c = some place then c.effect time r else if w.displaced? c = some place then r.close time else r

/-! ## The record that a change is about -/

/-- The record that a change is about is open at a path that it mentions. -/
theorem at?_of_met? (h : w.met? c = some place) : ∃ path ∈ c.mentioned, w.at? path = some place := by
  unfold met? at h
  split at h
  · next hkind =>
    obtain ⟨old, hold, hne, hat⟩ := at?_of_moved? h
    exact ⟨old, FileChange.mem_mentioned.2 (.inr ⟨hkind, hold, hne⟩), hat⟩
  · exact ⟨c.path, c.path_mem_mentioned, h⟩

/-- The places that a change finds depend only on what is open at the paths that it mentions. -/
theorem met?_eq_map {v : Walk} {place : Nat → Nat} (h : ∀ path ∈ c.mentioned, v.at? path = (w.at? path).map place) :
    v.met? c = (w.met? c).map place := by
  unfold met?
  split
  · next hkind =>
    unfold moved?
    cases hold : c.oldPath with
    | none => rfl
    | some old =>
      dsimp only
      split
      · rfl
      · next hne => exact h old (FileChange.mem_mentioned.2 (.inr ⟨hkind, hold, by simpa using hne⟩))
  · exact h c.path c.path_mem_mentioned

/-- The record that a change displaces depends only on what is open at the paths that it mentions. -/
theorem displaced?_eq_map {v : Walk} {place : Nat → Nat}
    (h : ∀ path ∈ c.mentioned, v.at? path = (w.at? path).map place) :
    v.displaced? c = (w.displaced? c).map place := by
  unfold displaced?
  rw [met?_eq_map h, Option.isSome_map]
  split
  · exact h c.path c.path_mem_mentioned
  · rfl

/-- Whether a change opens a record depends only on what is open at the paths that it mentions. -/
theorem opens_eq_of_map {v : Walk} {place : Nat → Nat}
    (h : ∀ path ∈ c.mentioned, v.at? path = (w.at? path).map place) : v.opens c = w.opens c := by
  rw [opens, opens, met?_eq_map h, Option.isNone_map]

/-- The record that a change displaces is open at its path. -/
theorem at?_of_displaced? (h : w.displaced? c = some place) : w.at? c.path = some place := by
  unfold displaced? at h
  split at h
  · exact h
  · cases h

/-- A change leaves a record alone that is open at none of the paths that it mentions. -/
theorem edited_eq_self (h : ∀ path ∈ c.mentioned, w.at? path ≠ some place) (r : ChurnRecord) :
    w.edited time c place r = r := by
  rw [edited, if_neg, if_neg]
  · exact fun hdisplaced => h c.path c.path_mem_mentioned (at?_of_displaced? hdisplaced)
  · intro hmet
    obtain ⟨path, hpath, hat⟩ := at?_of_met? hmet
    exact h path hpath hat

/-- A change moves a record to its own path or leaves it where it is. -/
theorem path_edited (w : Walk) (time : Int) (c : FileChange) (place : Nat) (r : ChurnRecord) :
    (w.edited time c place r).identity.path = r.identity.path ∨
      (w.met? c = some place ∧ (w.edited time c place r).identity.path = c.path) := by
  unfold edited
  split
  · next hmet =>
    obtain heq | heq | heq | heq := c.effect_cases time r
    · exact .inl (by rw [heq]; rfl)
    · exact .inl (by rw [heq]; rfl)
    · exact .inr ⟨hmet, by rw [heq]; rfl⟩
    · exact .inr ⟨hmet, by rw [heq]; rfl⟩
  · split <;> exact .inl rfl

/-! ## Records after a change -/

/-- The records after one of them was changed. -/
theorem records_modify (w : Walk) (place : Nat) (f : ChurnRecord → ChurnRecord) :
    (w.modify place f).history.records =
      w.history.records.mapIdx fun i r => if some place = some i then f r else r := by
  refine List.ext_getElem? fun i => ?_
  rw [getElem?_records_modify, List.getElem?_mapIdx]
  by_cases heq : place = i <;> simp [heq]

/-- Records that are not changed are the same ones. -/
theorem mapIdx_eq_self {records : List ChurnRecord} {f : Nat → ChurnRecord → ChurnRecord} (h : ∀ i r, f i r = r) :
    records.mapIdx f = records := by
  refine List.mapIdx_eq_iff.2 fun i => ?_
  rw [show f i = id from funext (h i), Option.map_id_apply]

/-- The records after a path was closed. -/
theorem records_close (w : Walk) (path : String) (time : Int) : (w.close path time).history.records =
    w.history.records.mapIdx fun i r => if w.at? path = some i then r.close time else r := by
  unfold close
  cases w.at? path with
  | some place => exact records_modify w place (.close time)
  | none => exact (mapIdx_eq_self fun _ _ => if_neg (by simp)).symm

/-- The records after a path was touched. -/
theorem records_touch (w : Walk) (path : String) (time : Int) : (w.touch path time).history.records =
    (w.history.records.mapIdx fun i r => if w.at? path = some i then r.touch time else r) ++
      if (w.at? path).isNone then [.opened w.history.records.length path time] else [] := by
  unfold touch
  cases w.at? path with
  | some place =>
    rw [if_neg (by simp), List.append_nil]
    exact records_modify w place (.touch time)
  | none =>
    rw [mapIdx_eq_self fun _ _ => if_neg (by simp)]
    rfl

/-- The records after a rename that moves one of them. -/
theorem Sound.records_move_of_moved? (hw : w.Sound) (h : w.moved? c = some place) (time : Int) :
    (w.move place c time).history.records = w.history.records.mapIdx fun i r =>
      if place = i then relocated c time r else if w.at? c.path = some i then r.close time else r := by
  obtain ⟨old, hold, -, hat⟩ := at?_of_moved? h
  -- Giving up the old path first makes a difference only if it is the new path as well, where the moved record is open.
  have hgap : ∀ i, place ≠ i →
      (({ w with openAt := Record.erase old w.openAt } : Walk).at? c.path = some i ↔ w.at? c.path = some i) := by
    intro i hi
    change Record.get? c.path (Record.erase old w.openAt) = some i ↔ _
    rw [Record.get?_erase]
    split
    · next heq =>
      rw [heq, hat]
      simp [hi]
    · rfl
  rw [Walk.records_move]
  refine List.ext_getElem? fun i => ?_
  rw [getElem?_records_modify, List.getElem?_mapIdx]
  by_cases hi : place = i
  · obtain ⟨r, hr, -, hr'⟩ := hw.record_vacated h time
    subst hi
    rw [if_pos rfl, hr, hr', Option.map_some, Option.map_some, if_pos rfl]
  · rw [if_neg hi, Walk.vacated, records_close, List.getElem?_mapIdx, hold, Option.getD_some]
    simp only [hgap i hi, if_neg hi]

/-- A change edits the records that were there, and adds the one that it opens. -/
theorem Sound.records_apply (hw : w.Sound) (time : Int) (c : FileChange) : (w.apply time c).history.records =
    w.history.records.mapIdx (w.edited time c) ++
      if w.opens c then [.opened w.history.records.length c.path time] else [] := by
  have hedited : w.edited time c = fun i r => if w.met? c = some i then c.effect time r
      else if w.displaced? c = some i then r.close time else r := rfl
  cases hkind : c.kind with
  | added =>
    simpa [Walk.apply, opens, hedited, met?, displaced?, FileChange.effect, hkind] using records_touch w c.path time
  | modified =>
    simpa [Walk.apply, opens, hedited, met?, displaced?, FileChange.effect, hkind] using records_touch w c.path time
  | deleted =>
    simpa [Walk.apply, opens, hedited, met?, displaced?, FileChange.effect, hkind] using records_close w c.path time
  | renamed =>
    cases hmoved : w.moved? c with
    | none =>
      rw [mapIdx_eq_self fun i r => by simp [hedited, met?, displaced?, hkind, hmoved]]
      simp [Walk.apply, opens, met?, hkind, hmoved, Walk.openPath, ChurnRecord.opened]
    | some place =>
      simpa [Walk.apply, opens, hedited, met?, displaced?, FileChange.effect, hkind, hmoved] using
        hw.records_move_of_moved? hmoved time

/-- A change leaves the paths alone that it does not mention. -/
theorem at?_apply_of_not_mentioned (h : path ∉ c.mentioned) (w : Walk) (time : Int) :
    (w.apply time c).at? path = w.at? path := by
  rw [at?_apply, if_neg fun hfills => h hfills.mem_mentioned, if_neg fun hclears => h hclears.mem_mentioned]

/-- A change adds the record that it opens to the number of records. -/
theorem Sound.length_records_apply (hw : w.Sound) (time : Int) (c : FileChange) :
    (w.apply time c).history.records.length = w.history.records.length + (w.opens c).toNat := by
  rw [hw.records_apply, List.length_append, List.length_mapIdx]
  cases w.opens c <;> rfl

/-- The records after a change are the edited ones and the one that it opens. -/
theorem Sound.getElem?_records_apply (hw : w.Sound) (time : Int) (c : FileChange) {b : ChurnRecord} :
    (w.apply time c).history.records[place]? = some b ↔
      (∃ a, w.history.records[place]? = some a ∧ w.edited time c place a = b) ∨
        (w.opens c = true ∧ place = w.history.records.length ∧ .opened place c.path time = b) := by
  rw [hw.records_apply, List.getElem?_append, List.length_mapIdx, List.getElem?_mapIdx]
  split
  · next hlt =>
    rw [Option.map_eq_some_iff]
    exact ⟨.inl, fun h => h.resolve_right fun ⟨_, heq, _⟩ => absurd heq (Nat.ne_of_lt hlt)⟩
  · next hge =>
    rw [List.getElem?_eq_none (Nat.not_lt.1 hge)]
    cases w.opens c with
    | false => simp
    | true =>
      have hplace : place - w.history.records.length = 0 ↔ place = w.history.records.length := by omega
      simp only [if_true, List.getElem?_singleton, hplace]
      split
      · next heq => simp [heq]
      · next hne => simp [hne]

end Walk

end Hotspots
