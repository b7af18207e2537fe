import Hotspots.Proofs.History.ChangeCounts

/-!
# A walk that began later

Two walks along the same commits, one of which began later, know different things of the files that were there
when it did: what the later one meets for the first time it opens with one change and without earlier paths, and
what it has not met it cannot move. So whatever the later walk holds open at a path is part of what the earlier
one holds open there (`Walk.IsPartOf`): a change keeps it so, and so do the commits that both walk and the paths
that are filled up in the end.
-/

namespace Hotspots

namespace ChurnRecord

/-- A record counts no more changes than another one, and its earlier paths are the last ones of the other. -/
structure IsPartOf (a b : ChurnRecord) : Prop where
  changeCount_le : a.changeCount ≤ b.changeCount
  previousPaths_suffix : a.identity.previousPaths <:+ b.identity.previousPaths

variable {a b : ChurnRecord}

/-- A record that was just opened is part of every record that counts a change. -/
theorem isPartOf_opened (h : 1 ≤ b.changeCount) (place : Nat) (path : String) (time : Int) :
    (opened place path time).IsPartOf b := ⟨h, List.nil_suffix⟩

/-- Touching both records keeps the one part of the other. -/
theorem IsPartOf.touch (h : a.IsPartOf b) (time : Int) : (a.touch time).IsPartOf (b.touch time) :=
  ⟨Int.add_le_add_right h.changeCount_le 1, h.previousPaths_suffix⟩

/-- Moving both records from one path to another keeps the one part of the other. -/
theorem IsPartOf.moveTo (h : a.IsPartOf b) (hpath : a.identity.path = b.identity.path) (path : String) :
    (a.moveTo path).IsPartOf (b.moveTo path) := by
  obtain ⟨earlier, heq⟩ := h.previousPaths_suffix
  refine ⟨h.changeCount_le, earlier, ?_⟩
  change earlier ++ (a.identity.previousPaths ++ [a.identity.path]) = b.identity.previousPaths ++ [b.identity.path]
  rw [← List.append_assoc, heq, hpath]

end ChurnRecord

namespace Walk

/-! ## What the later walk holds open -/

/-- What a walk holds open at a path is part of what another one holds open there. -/
def IsPartOf (w v : Walk) : Prop :=
  ∀ path a, w.recordAt? path = some a → ∃ b, v.recordAt? path = some b ∧ a.IsPartOf b

namespace IsPartOf

variable {w v : Walk}

/-- An empty walk is part of every walk. -/
theorem of_empty (v : Walk) : IsPartOf {} v := by
  intro path a ha
  simp [recordAt?, at?, Record.get?] at ha

/-- The part may open a path at which the greater walk holds something after the step, if the other paths of the
part are left alone there. -/
theorem openPath (h : w.IsPartOf v) (hw : w.Sound) {v' : Walk} (hv' : v'.Sound) (hcounted : v'.IsCounted)
    {opened : String} (hopen : v'.isOpen opened = true)
    (hrest : ∀ path, path ≠ opened → w.recordAt? path ≠ none → v'.recordAt? path = v.recordAt? path)
    (time : Int) : (w.openPath opened time).IsPartOf v' := by
  intro path a ha
  rw [hw.recordAt?_openPath] at ha
  split at ha
  · next heq =>
    cases ha
    rw [← hv'.isSome_recordAt?, Option.isSome_iff_exists] at hopen
    obtain ⟨b, hb⟩ := hopen
    exact ⟨b, heq ▸ hb, ChurnRecord.isPartOf_opened (hcounted.of_recordAt? hv' hb) _ _ _⟩
  · next hne =>
    rw [hrest path hne (by rw [ha]; exact Option.some_ne_none a)]
    exact h path a ha

/-- Both walks may change what they hold at a path, if that keeps the one part of the other. -/
theorem modify (h : w.IsPartOf v) (hw : w.Sound) (hv : v.Sound) {changed : String} {i j : Nat}
    (hi : w.at? changed = some i) (hj : v.at? changed = some j) {f : ChurnRecord → ChurnRecord}
    (hf : ∀ a b : ChurnRecord, a.IsPartOf b → (f a).IsPartOf (f b)) :
    (w.modify i f).IsPartOf (v.modify j f) := by
  intro path a ha
  rw [hw.recordAt?_modify hi] at ha
  rw [hv.recordAt?_modify hj]
  by_cases hpath : path = changed
  · rw [if_pos hpath] at ha ⊢
    obtain ⟨a₀, ha₀, rfl⟩ := Option.map_eq_some_iff.1 ha
    obtain ⟨b, hb, hpart⟩ := h changed a₀ ha₀
    exact ⟨f b, by rw [hb]; rfl, hf a₀ b hpart⟩
  · rw [if_neg hpath] at ha ⊢
    exact h path a ha

/-- What the part holds open is open in the greater walk. -/
theorem exists_at? (h : w.IsPartOf v) (hw : w.Sound) {path : String} {i : Nat} (hi : w.at? path = some i) :
    ∃ j, v.at? path = some j := by
  obtain ⟨a, ha, -⟩ := hw.recordAt?_eq_some hi
  obtain ⟨b, hb, -⟩ := h path a ha
  obtain ⟨j, hj, -⟩ := Option.bind_eq_some_iff.1 hb
  exact ⟨j, hj⟩

/-- Closing a path in both walks keeps the one part of the other. -/
theorem close (h : w.IsPartOf v) (hw : w.Sound) (hv : v.Sound) (closed : String) (time : Int) :
    (w.close closed time).IsPartOf (v.close closed time) := by
  intro path a ha
  rw [hw.recordAt?_close] at ha
  rw [hv.recordAt?_close]
  by_cases hpath : path = closed
  · rw [if_pos hpath] at ha
    cases ha
  · rw [if_neg hpath] at ha ⊢
    exact h path a ha

/-- A rename that moves a record in both walks keeps the one part of the other. -/
theorem move (h : w.IsPartOf v) (hw : w.Sound) (hv : v.Sound) {c : FileChange} {i j : Nat}
    (hi : w.moved? c = some i) (hj : v.moved? c = some j) (time : Int) :
    (w.move i c time).IsPartOf (v.move j c time) := by
  obtain ⟨old, hold, -, -⟩ := at?_of_moved? hi
  intro path a ha
  rw [hw.recordAt?_move hi hold] at ha
  rw [hv.recordAt?_move hj hold]
  by_cases hnew : path = c.path
  · rw [if_pos hnew] at ha ⊢
    obtain ⟨a₀, ha₀, rfl⟩ := Option.map_eq_some_iff.1 ha
    obtain ⟨b, hb, hpart⟩ := h old a₀ ha₀
    have hpath : a₀.identity.path = b.identity.path := by
      rw [(hw.live_of_recordAt? ha₀).2.2, (hv.live_of_recordAt? hb).2.2]
    refine ⟨relocated c time b, by rw [hb]; rfl, ?_⟩
    unfold relocated
    split
    · exact (hpart.moveTo hpath c.path).touch time
    · exact hpart.moveTo hpath c.path
  · rw [if_neg hnew] at ha ⊢
    by_cases hleft : path = old
    · rw [if_pos hleft] at ha
      cases ha
    · rw [if_neg hleft] at ha ⊢
      exact h path a ha

/-- Touching a path in both walks keeps the one part of the other. -/
theorem touch (h : w.IsPartOf v) (hw : w.Sound) (hv : v.Sound) (hcounted : v.IsCounted) (touched : String)
    (time : Int) : (w.touch touched time).IsPartOf (v.touch touched time) := by
  cases hi : w.at? touched with
  | some i =>
    obtain ⟨j, hj⟩ := h.exists_at? hw hi
    simp only [Walk.touch, hi, hj]
    exact h.modify hw hv hi hj fun _ _ hpart => hpart.touch time
  | none =>
    rw [Walk.touch, hi]
    refine h.openPath hw (hv.touch touched time) (hcounted.grow (growsBy_touch v touched time)) ?_
      (fun path hne _ => ?_) time
    · rw [isOpen_touch]
      simp
    · rw [hv.recordAt?_touch, if_neg hne]

/-- A rename of a path that the part does not hold keeps it part of the greater walk, which may move a record. -/
theorem rename (h : w.IsPartOf v) (hw : w.Sound) (hv : v.Sound) (hcounted : v.IsCounted) {c : FileChange}
    (hkind : c.kind = .renamed) (hi : w.moved? c = none) (time : Int) :
    (w.openPath c.path time).IsPartOf (v.apply time c) := by
  have hopen : (v.apply time c).isOpen c.path = true :=
    (isOpen_apply v time c c.path).2 (.inl ⟨by rw [hkind]; decide, rfl⟩)
  refine h.openPath hw (hv.apply time c) (hcounted.grow (growsBy_apply time v c)) hopen (fun path hne hheld => ?_) time
  rw [Walk.apply, hkind]
  dsimp only
  cases hj : v.moved? c with
  | none => rw [hv.recordAt?_openPath, if_neg hne]
  | some j =>
    obtain ⟨old, hold, hempty, -⟩ := at?_of_moved? hj
    rw [hv.recordAt?_move hj hold, if_neg hne, if_neg]
    -- The path that is left there is closed in the part, which would have moved its record too.
    rintro rfl
    exact hheld (by rw [recordAt?, at?_of_moved?_eq_none hi hold hempty]; rfl)

/-- A change keeps the later walk part of the earlier one. -/
theorem apply (h : w.IsPartOf v) (hw : w.Sound) (hv : v.Sound) (hcounted : v.IsCounted) (time : Int)
    (c : FileChange) : (w.apply time c).IsPartOf (v.apply time c) := by
  cases hkind : c.kind with
  | added =>
    rw [Walk.apply, Walk.apply, hkind]
    exact h.touch hw hv hcounted c.path time
  | modified =>
    rw [Walk.apply, Walk.apply, hkind]
    exact h.touch hw hv hcounted c.path time
  | deleted =>
    rw [Walk.apply, Walk.apply, hkind]
    exact h.close hw hv c.path time
  | renamed =>
    cases hi : w.moved? c with
    | none =>
      have hopened : w.apply time c = w.openPath c.path time := by rw [Walk.apply, hkind, hi]
      rw [hopened]
      exact h.rename hw hv hcounted hkind hi time
    | some i =>
      obtain ⟨old, hold, hne, hat⟩ := at?_of_moved? hi
      obtain ⟨j, hj⟩ := h.exists_at? hw hat
      have hmoved : v.moved? c = some j := by simp [moved?, hold, hne, hj]
      simp only [Walk.apply, hkind, hi, hmoved]
      exact h.move hw hv hi hmoved time

/-- The changes of a commit keep the later walk part of the earlier one. -/
theorem foldl_apply (h : w.IsPartOf v) (hw : w.Sound) (hv : v.Sound) (hcounted : v.IsCounted) (time : Int)
    (changes : List FileChange) :
    (changes.foldl (Walk.apply time) w).IsPartOf (changes.foldl (Walk.apply time) v) := by
  induction changes generalizing w v with
  | nil => exact h
  | cons c rest ih =>
    exact ih (h.apply hw hv hcounted time c) (hw.apply time c) (hv.apply time c)
      (hcounted.grow (growsBy_apply time v c))

/-- Commits keep the later walk part of the earlier one. -/
theorem foldl_feed (h : w.IsPartOf v) (hw : w.Sound) (hv : v.Sound) (hcounted : v.IsCounted)
    (commits : List Commit) : (commits.foldl Walk.feed w).IsPartOf (commits.foldl Walk.feed v) := by
  induction commits generalizing w v with
  | nil => exact h
  | cons c rest ih =>
    exact ih (h.foldl_apply hw hv hcounted c.timestamp c.changes) (hw.feed c) (hv.feed c)
      (hcounted.grow (growsBy_feed v c))

/-! ## Filling up -/

/-- The part may be filled up with paths that are open in the greater walk. -/
theorem backfill_left (h : w.IsPartOf v) (hw : w.Sound) (hv : v.Sound) (hcounted : v.IsCounted)
    {paths : List String} (hopen : ∀ path ∈ paths, v.isOpen path = true) (time : Int) :
    (w.backfill paths time).IsPartOf v := by
  refine (backfill_induction (P := fun w => w.Sound ∧ w.IsPartOf v) ⟨hw, h⟩ fun w path hpath _ hw => ?_).2
  obtain ⟨hsound, hpart⟩ := hw
  exact ⟨hsound.openPath path time, hpart.openPath hsound hv hcounted (hopen path hpath) (fun _ _ _ => rfl) time⟩

/-- The greater walk may be filled up. -/
theorem backfill_right (h : w.IsPartOf v) (hv : v.Sound) (paths : List String) (time : Int) :
    w.IsPartOf (v.backfill paths time) := by
  refine (backfill_induction (P := fun v => v.Sound ∧ w.IsPartOf v) ⟨hv, h⟩ fun v path _ hclosed hv => ?_).2
  obtain ⟨hsound, hpart⟩ := hv
  refine ⟨hsound.openPath path time, fun other a ha => ?_⟩
  obtain ⟨b, hb, hab⟩ := hpart other a ha
  refine ⟨b, ?_, hab⟩
  rw [hsound.recordAt?_openPath, if_neg, hb]
  rintro rfl
  rw [← hsound.isSome_recordAt?, hb] at hclosed
  cases hclosed

end IsPartOf

end Walk

end Hotspots
