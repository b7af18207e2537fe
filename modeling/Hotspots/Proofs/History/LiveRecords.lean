import Hotspots.Proofs.History.SoundWalk

/-!
# The live records at a path

A history has two readers of a path: `forPath` takes the first live record there, `liveByPath` the last one.
They agree exactly when there is at most one. `Accounted` keeps the books of a walk: the live records at a
path are the open one, if there is one, and those that stand there unseen because a later record was opened
over them.
-/

namespace Hotspots

/-- Whether a record is live at a path. -/
def ChurnRecord.standsAt (path : String) (r : ChurnRecord) : Bool := r.identity.path == path && r.isLive

namespace ChurnHistory

/-- The live records at a path, in order. -/
def liveAt (h : ChurnHistory) (path : String) : List ChurnRecord := h.records.filter (·.standsAt path)

/-- The only live record at a path stands there. -/
theorem standsAt_of_liveAt_eq {h : ChurnHistory} {path : String} {r : ChurnRecord} (honly : h.liveAt path = [r]) :
    r.standsAt path = true := (List.mem_filter.1 (honly ▸ List.mem_singleton_self r)).2

/-- The paths of the live records, in order. -/
def livePaths (h : ChurnHistory) : List String := (h.records.filter ChurnRecord.isLive).map (·.identity.path)

/-- A path is listed as often as it has live records. -/
theorem count_livePaths (h : ChurnHistory) (path : String) :
    h.livePaths.count path = (h.liveAt path).length := by
  rw [livePaths, liveAt, List.count_eq_countP, List.countP_map, List.countP_filter,
    List.countP_eq_length_filter]
  rfl

/-- The reader by records takes the first live record at a path. -/
theorem forPath_eq_head? (h : ChurnHistory) (path : String) : h.forPath path = (h.liveAt path).head? := by
  rw [liveAt, List.head?_filter]
  rfl

/-- The reader by paths takes the last live record at a path. -/
theorem get?_liveByPath (h : ChurnHistory) (path : String) :
    Record.get? path h.liveByPath = (h.liveAt path).getLast?.map (·.identity) := by
  have hmap : ∀ records : List ChurnRecord,
      ((records.map fun r => (r.identity.path, r.identity)).reverse.find? fun e => e.1 = path) =
        (records.filter fun r => r.identity.path == path).getLast?.map
          fun r => (r.identity.path, r.identity) := by
    intro records
    rw [← List.map_reverse, List.find?_map, ← List.head?_filter, ← List.head?_reverse,
      ← List.filter_reverse]
    rfl
  rw [liveByPath, Record.get?_putAll, hmap, List.filter_filter, liveAt]
  simp only [Record.get?, Option.or_none, Option.map_map]
  rfl

end ChurnHistory

namespace Walk

/-- Later records have greater numbers. -/
theorem Sound.pairwise_uid {w : Walk} (hw : w.Sound) :
    w.history.records.Pairwise fun a b => a.identity.uid < b.identity.uid := by
  rw [List.pairwise_iff_getElem]
  intro i j hi hj hij
  rw [hw.uid_eq i _ (List.getElem?_eq_getElem hi), hw.uid_eq j _ (List.getElem?_eq_getElem hj)]
  omega

/-- The two readers name the same record at a path exactly when at most one record is live there. -/
theorem Sound.readers_agree_iff {w : Walk} (hw : w.Sound) (path : String) :
    (w.history.forPath path).map (·.identity) = Record.get? path w.history.liveByPath ↔
      (w.history.liveAt path).length ≤ 1 := by
  rw [ChurnHistory.forPath_eq_head?, ChurnHistory.get?_liveByPath]
  have huids := hw.pairwise_uid.filter (·.standsAt path)
  change (w.history.liveAt path).Pairwise _ at huids
  generalize w.history.liveAt path = live at huids ⊢
  rcases live with _ | ⟨first, _ | ⟨second, rest⟩⟩
  · simp
  · simp
  · have hlast : (second :: rest).getLast (by simp) ∈ second :: rest := List.getLast_mem _
    have hlt := (List.pairwise_cons.1 huids).1 _ hlast
    constructor
    · intro heq
      rw [List.getLast?_cons_cons, List.getLast?_eq_some_getLast (by simp)] at heq
      simp only [List.head?_cons, Option.map_some, Option.some.injEq] at heq
      rw [heq] at hlt
      omega
    · simp

/-! ## The books of a walk -/

/-- The live records at each path are the open one and those that stand there unseen. -/
def Accounted (unseen : List String) (w : Walk) : Prop :=
  ∀ path, (w.history.liveAt path).length = (w.isOpen path).toNat + unseen.count path

/-- In an empty walk nothing is live. -/
theorem accounted_empty : Accounted [] {} := fun _ => rfl

/-- Changing one record changes the books at the paths where it stands before and after. -/
theorem length_liveAt_modify {w : Walk} {place : Nat} {r : ChurnRecord}
    (hr : w.history.records[place]? = some r) (f : ChurnRecord → ChurnRecord) (path : String) :
    ((w.modify place f).history.liveAt path).length + (r.standsAt path).toNat =
      (w.history.liveAt path).length + ((f r).standsAt path).toNat := by
  have hmodify : ∀ (records : List ChurnRecord) (place : Nat), records[place]? = some r →
      ((records.modify place f).filter (·.standsAt path)).length + (r.standsAt path).toNat =
        (records.filter (·.standsAt path)).length + ((f r).standsAt path).toNat := by
    intro records
    induction records with
    | nil => simp
    | cons first rest ih =>
      intro place hplace
      cases place with
      | zero =>
        simp only [List.getElem?_cons_zero, Option.some.injEq] at hplace
        subst hplace
        cases hbefore : first.standsAt path <;> cases hafter : (f first).standsAt path <;>
          simp [List.modify_zero_cons, hbefore, hafter]
      | succ place =>
        have := ih place (by simpa using hplace)
        rw [List.modify_succ_cons]
        cases hfirst : first.standsAt path <;> simp [hfirst] <;> omega
  exact hmodify w.history.records place hr

/-- The record of an open path stands there and nowhere else. -/
theorem Sound.standsAt_of_at? {w : Walk} (hw : w.Sound) {path : String} {place : Nat}
    (h : w.at? path = some place) :
    ∃ r, w.history.records[place]? = some r ∧ ∀ other, r.standsAt other = decide (path = other) := by
  obtain ⟨r, hr, hlive, hpath⟩ := hw.live_of_at? path place h
  refine ⟨r, hr, fun other => ?_⟩
  by_cases heq : path = other <;> simp [ChurnRecord.standsAt, hlive, hpath, heq]

/-- If nothing stands unseen, the record of an open path is the only live one there. -/
theorem Accounted.liveAt_eq {w : Walk} (h : Accounted [] w) (hw : w.Sound) {path : String} {place : Nat}
    (hat : w.at? path = some place) :
    ∃ r, w.history.records[place]? = some r ∧ w.history.liveAt path = [r] := by
  obtain ⟨r, hr, hstands⟩ := hw.standsAt_of_at? hat
  have hlength : (w.history.liveAt path).length = 1 := by
    rw [h path, isOpen, hat]
    rfl
  have hmem : r ∈ w.history.liveAt path :=
    List.mem_filter.2 ⟨List.mem_of_getElem? hr, (hstands path).trans (decide_eq_true rfl)⟩
  obtain ⟨only, honly⟩ := List.length_eq_one_iff.1 hlength
  rw [honly, List.mem_singleton] at hmem
  exact ⟨r, hr, hmem ▸ honly⟩

/-- Opening a path hides the record that was open there. -/
theorem Accounted.openPath {unseen : List String} {w : Walk} (h : Accounted unseen w) (opened : String)
    (time : Int) :
    Accounted (if w.isOpen opened then opened :: unseen else unseen) (w.openPath opened time) := by
  intro path
  have hcount : ((w.openPath opened time).history.liveAt path).length =
      (w.history.liveAt path).length + (decide (opened = path)).toNat := by
    unfold ChurnHistory.liveAt Walk.openPath
    rw [List.filter_append, List.length_append]
    by_cases hp : opened = path <;> simp [ChurnRecord.standsAt, ChurnRecord.isLive, hp]
  rw [hcount, h path]
  by_cases hp : path = opened
  · subst hp
    cases hopen : w.isOpen path with
    | false => simp [isOpen, at?_openPath]; omega
    | true => simp [isOpen, at?_openPath]; omega
  · have hother : (w.openPath opened time).isOpen path = w.isOpen path := by
      simp [isOpen, at?_openPath, hp]
    rw [hother]
    split <;> simp [Ne.symm hp]

/-- Touching a record leaves the books alone. -/
theorem Accounted.touchRecord {unseen : List String} {w : Walk} (h : Accounted unseen w) (hw : w.Sound)
    {touched : String} {place : Nat} (hat : w.at? touched = some place) (time : Int) :
    Accounted unseen (w.modify place (.touch time)) := by
  intro path
  obtain ⟨r, hr, -⟩ := hw.standsAt_of_at? hat
  have := length_liveAt_modify hr (.touch time) path
  rw [show (ChurnRecord.touch time r).standsAt path = r.standsAt path from rfl] at this
  rw [show (w.modify place (.touch time)).isOpen path = w.isOpen path from rfl, ← h path]
  omega

/-- Closing a path leaves the unseen records alone. -/
theorem Accounted.close {unseen : List String} {w : Walk} (h : Accounted unseen w) (hw : w.Sound)
    (closed : String) (time : Int) : Accounted unseen (w.close closed time) := by
  intro path
  have hopen := at?_close w closed time path
  unfold Walk.close at hopen ⊢
  split at hopen
  · next place hplace =>
    obtain ⟨r, hr, hstands⟩ := hw.standsAt_of_at? hplace
    have hlength := length_liveAt_modify hr (.close time) path
    have hclosed : (ChurnRecord.close time r).standsAt path = false := by
      simp [ChurnRecord.standsAt, ChurnRecord.close, ChurnRecord.isLive]
    rw [hstands, hclosed] at hlength
    have hbooks := h path
    rw [isOpen, hopen]
    change ((w.modify place (.close time)).history.liveAt path).length = _
    by_cases hp : path = closed
    · subst hp
      simp only [isOpen, hplace, Option.isSome_some, Bool.toNat_true] at hbooks
      simp at hlength ⊢
      omega
    · simp only [if_neg hp, decide_eq_false (Ne.symm hp), Bool.toNat_false, Nat.add_zero] at hlength ⊢
      rw [hlength, hbooks]
      rfl
  · exact h path

/-- A path that is closed without its record hides the record. -/
theorem Accounted.forget {unseen : List String} {w : Walk} (h : Accounted unseen w) {path : String}
    {place : Nat} (hat : w.at? path = some place) :
    Accounted (path :: unseen) { w with openAt := Record.erase path w.openAt } := by
  intro other
  have hopen : ({ w with openAt := Record.erase path w.openAt } : Walk).isOpen other =
      (!decide (other = path) && w.isOpen other) := by
    change (Record.get? other (Record.erase path w.openAt)).isSome = _
    rw [Record.get?_erase]
    by_cases hp : other = path <;> simp [hp, isOpen, at?]
  have hbooks := h other
  rw [hopen]
  change (w.history.liveAt other).length = _
  by_cases hp : other = path
  · subst hp
    simp only [isOpen, hat, Option.isSome_some, Bool.toNat_true] at hbooks
    simp
    omega
  · simp [hp, Ne.symm hp, hbooks]

/-- A record that is opened again at a path is no longer unseen at its old one. -/
theorem Accounted.reopen {unseen : List String} {w : Walk} {old : String}
    (h : Accounted (old :: unseen) w) {place : Nat} {r : ChurnRecord}
    (hr : w.history.records[place]? = some r) (hstands : ∀ other, r.standsAt other = decide (old = other))
    {path : String} (hclosed : w.isOpen path = false) {f : ChurnRecord → ChurnRecord}
    (hmoved : ∀ other, (f r).standsAt other = decide (path = other)) :
    Accounted unseen { w.modify place f with openAt := Record.put path place w.openAt } := by
  intro other
  have hlength := length_liveAt_modify hr f other
  rw [hstands, hmoved] at hlength
  have hbooks := h other
  have hopen : ({ w.modify place f with openAt := Record.put path place w.openAt } : Walk).isOpen other =
      (decide (path = other) || w.isOpen other) := by
    change (Record.get? other (Record.put path place w.openAt)).isSome = _
    rw [Record.get?_put]
    by_cases hp : other = path
    · simp [hp]
    · simp [hp, isOpen, at?, Ne.symm hp]
  rw [hopen]
  change ((w.modify place f).history.liveAt other).length = _
  rw [List.count_cons] at hbooks
  by_cases hp : path = other
  · subst hp
    simp only [hclosed, decide_true, Bool.true_or, Bool.toNat_true, Bool.toNat_false] at hbooks hlength ⊢
    by_cases ho : old = path <;> simp [ho] at hbooks hlength <;> omega
  · by_cases ho : old = other <;> simp [hp, ho] at hbooks hlength ⊢ <;> omega

/-- The books depend on the records and on what is open, and not on the order of the unseen paths. -/
theorem Accounted.congr {unseen unseen' : List String} {w v : Walk} (h : Accounted unseen w)
    (hunseen : unseen.Perm unseen') (hrecords : v.history.records = w.history.records)
    (hat : ∀ path, v.at? path = w.at? path) : Accounted unseen' v := by
  intro path
  rw [isOpen, hat path, ← hunseen.count_eq path, ChurnHistory.liveAt, hrecords]
  exact h path

/-- A rename of an open identity leaves no record unseen: the one that stood at the new path is closed. -/
theorem Accounted.move {unseen : List String} {w : Walk} (h : Accounted unseen w) (hw : w.Sound)
    {c : FileChange} {place : Nat} (hmoved : w.moved? c = some place) (time : Int) :
    Accounted unseen (w.move place c time) := by
  obtain ⟨r, hr, hlive, hbefore⟩ := hw.record_vacated hmoved time
  obtain ⟨old, hold, -, hat⟩ := at?_of_moved? hmoved
  obtain ⟨r', hr', hstands⟩ := hw.standsAt_of_at? hat
  obtain rfl : r = r' := by simpa [hbefore] using hr'
  have hforgot : Accounted (old :: unseen)
      { w with openAt := Record.erase (c.oldPath.getD "") w.openAt } := by
    rw [hold]
    exact h.forget hat
  have hvacant : Accounted (old :: unseen) (w.vacated c time) := hforgot.close (hw.forget _) _ _
  have hclosed : (w.vacated c time).isOpen c.path = false := by simp [isOpen, at?_vacated]
  have hafter : ∀ other, (relocated c time r).standsAt other = decide (c.path = other) := by
    intro other
    by_cases heq : c.path = other <;>
      simp [ChurnRecord.standsAt, relocated_path, relocated_isLive, hlive, heq]
  exact (hvacant.reopen hr hstands hclosed hafter).congr (List.Perm.refl _) (records_move w place c time)
    (at?_move_eq w place c time)

end Walk

end Hotspots
