import Hotspots.Proofs.History.SoundWalk

/-!
# The record that is open at a path

In a sound walk each open path has a record of its own, so that a step changes the records at the paths of its
change and no others. `recordAt?` looks up the record at a path, and there is one lemma for what each kind of step
leaves there; none of them speaks of places.
-/

namespace Hotspots

/-- The record that a walk opens at a path. -/
def ChurnRecord.opened (place : Nat) (path : String) (time : Int) : ChurnRecord :=
  { identity := { uid := place, path := path }
    changeCount := 1
    firstModified := time
    lastModified := time }

namespace Walk

/-- The record that is open at a path. -/
def recordAt? (w : Walk) (path : String) : Option ChurnRecord :=
  (w.at? path).bind fun place => w.history.records[place]?

variable {w : Walk}

namespace Sound

/-- The record that is open at a path is live and stands there. -/
theorem live_of_recordAt? (hw : w.Sound) {path : String} {r : ChurnRecord} (h : w.recordAt? path = some r) :
    r ∈ w.history.records ∧ r.isLive = true ∧ r.identity.path = path := by
  obtain ⟨place, hat, hr⟩ := Option.bind_eq_some_iff.1 h
  obtain ⟨r', hr', hlive, hpath⟩ := hw.live_of_at? path place hat
  obtain rfl : r = r' := Option.some.inj (hr.symm.trans hr')
  exact ⟨List.mem_of_getElem? hr, hlive, hpath⟩

/-- An open path has a record. -/
theorem recordAt?_eq_some (hw : w.Sound) {path : String} {place : Nat} (h : w.at? path = some place) :
    ∃ r, w.recordAt? path = some r ∧ w.history.records[place]? = some r := by
  obtain ⟨r, hr, -, -⟩ := hw.live_of_at? path place h
  exact ⟨r, by rw [recordAt?, h]; exact hr, hr⟩

/-- There is a record at the open paths and at no others. -/
theorem isSome_recordAt? (hw : w.Sound) (path : String) : (w.recordAt? path).isSome = w.isOpen path := by
  unfold isOpen
  cases hat : w.at? path with
  | none => rw [recordAt?, hat]; rfl
  | some place =>
    obtain ⟨r, hr, -⟩ := hw.recordAt?_eq_some hat
    rw [hr]
    rfl

/-- A change of the record at an open path leaves the other paths alone. -/
theorem recordAt?_modify (hw : w.Sound) {changed : String} {place : Nat} (hat : w.at? changed = some place)
    (f : ChurnRecord → ChurnRecord) (path : String) :
    (w.modify place f).recordAt? path =
      if path = changed then (w.recordAt? changed).map f else w.recordAt? path := by
  rw [recordAt?, at?_modify]
  split
  · next heq =>
    rw [heq, recordAt?, hat, Option.bind_some, Option.bind_some, getElem?_records_modify, if_pos rfl]
  · next hne =>
    refine Option.bind_congr fun i hi => ?_
    rw [getElem?_records_modify, if_neg]
    rintro rfl
    exact hne (hw.at?_injective hi hat)

/-- A change of a record that is open nowhere does not show. -/
theorem recordAt?_modify_of_free {place : Nat} (hfree : ∀ path, w.at? path ≠ some place)
    (f : ChurnRecord → ChurnRecord) (path : String) : (w.modify place f).recordAt? path = w.recordAt? path := by
  rw [recordAt?, at?_modify]
  refine Option.bind_congr fun i hi => ?_
  rw [getElem?_records_modify, if_neg]
  rintro rfl
  exact hfree path hi

/-- A path that is opened has a new record. -/
theorem recordAt?_openPath (hw : w.Sound) (opened : String) (time : Int) (path : String) :
    (w.openPath opened time).recordAt? path =
      if path = opened then some (.opened w.history.records.length opened time) else w.recordAt? path := by
  rw [recordAt?, at?_openPath]
  split
  · exact List.getElem?_concat_length
  · refine Option.bind_congr fun i hi => ?_
    obtain ⟨r, hr, -⟩ := hw.live_of_at? path i hi
    exact List.getElem?_append_left (List.getElem?_eq_some_iff.1 hr).1

/-- A path that is touched has the touched record, or a new one. -/
theorem recordAt?_touch (hw : w.Sound) (touched : String) (time : Int) (path : String) :
    (w.touch touched time).recordAt? path =
      if path = touched then
        some (((w.recordAt? touched).map (.touch time)).getD (.opened w.history.records.length touched time))
      else w.recordAt? path := by
  unfold Walk.touch
  split
  · next place hat =>
    obtain ⟨r, hr, -⟩ := hw.recordAt?_eq_some hat
    rw [hw.recordAt?_modify hat, hr]
    rfl
  · next hnone =>
    rw [hw.recordAt?_openPath, show w.recordAt? touched = none by rw [recordAt?, hnone]; rfl]
    rfl

/-- A path that is given up has no record. -/
theorem recordAt?_forget (w : Walk) (given path : String) :
    ({ w with openAt := Record.erase given w.openAt } : Walk).recordAt? path =
      if path = given then none else w.recordAt? path := by
  rw [recordAt?, show ({ w with openAt := Record.erase given w.openAt } : Walk).at? path = _ from
    Record.get?_erase _ _ _]
  split <;> rfl

/-- A path that is closed has no record. -/
theorem recordAt?_close (hw : w.Sound) (closed : String) (time : Int) (path : String) :
    (w.close closed time).recordAt? path = if path = closed then none else w.recordAt? path := by
  unfold Walk.close
  split
  · next place hat =>
    have hforgot := recordAt?_forget (w.modify place (.close time)) closed path
    rw [hw.recordAt?_modify hat] at hforgot
    refine hforgot.trans ?_
    split <;> rfl
  · next hnone =>
    split
    · next heq => rw [heq, recordAt?, hnone]; rfl
    · rfl

/-- A rename takes the record from its old path to its new one. -/
theorem recordAt?_move (hw : w.Sound) {c : FileChange} {place : Nat} (h : w.moved? c = some place) {old : String}
    (hold : c.oldPath = some old) (time : Int) (path : String) :
    (w.move place c time).recordAt? path =
      if path = c.path then (w.recordAt? old).map (relocated c time)
      else if path = old then none else w.recordAt? path := by
  obtain ⟨old', hold', -, hat⟩ := at?_of_moved? h
  obtain rfl : old = old' := Option.some.inj (hold.symm.trans hold')
  obtain ⟨r, hvacated, -, hr⟩ := hw.record_vacated h time
  have hgap : ∀ path, (w.vacated c time).recordAt? path =
      if path = c.path then none else if path = old then none else w.recordAt? path := by
    intro path
    rw [Walk.vacated, (hw.forget _).recordAt?_close, recordAt?_forget, hold, Option.getD_some]
  by_cases hpath : path = c.path
  · rw [if_pos hpath, recordAt?, at?_move, if_pos hpath, recordAt?, hat, Option.bind_some, Option.bind_some,
      records_move, getElem?_records_modify, if_pos rfl, hvacated, hr]
  · have hopen : (w.move place c time).at? path = (w.vacated c time).at? path := by
      rw [at?_move_eq, Record.get?_put, if_neg hpath]
      rfl
    calc (w.move place c time).recordAt? path
        = ((w.vacated c time).modify place (relocated c time)).recordAt? path := by
          rw [recordAt?, recordAt?, at?_modify, hopen, records_move]
      _ = (w.vacated c time).recordAt? path :=
          recordAt?_modify_of_free (hw.at?_vacated_ne h time) _ path
      _ = if path = c.path then (w.recordAt? old).map (relocated c time)
          else if path = old then none else w.recordAt? path := by
          rw [hgap, if_neg hpath, if_neg hpath]

end Sound

end Walk

end Hotspots
