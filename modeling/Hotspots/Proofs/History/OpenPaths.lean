import Hotspots.History.Walk
import Hotspots.Proofs.Record.Lookup

/-!
# The paths that a walk holds open

What a walk knows of a path is the place of the record that is open there. `at?_apply` says where each path
is open after a change and `isOpen_apply` which paths are, `isOpen_foldl_apply` which are open after the changes
of a commit, if no path is both filled and cleared by it, and `isOpen_backfill` which are open after missing
paths were filled up.
-/

namespace Hotspots

namespace FileChange

/-- A change fills a path when it leaves a file there. -/
def Fills (c : FileChange) (path : String) : Prop := c.kind ≠ .deleted ∧ c.path = path

/-- A change clears a path when it takes the file away from there. -/
def Clears (c : FileChange) (path : String) : Prop :=
  (c.kind = .deleted ∧ c.path = path) ∨ (c.kind = .renamed ∧ c.oldPath = some path ∧ path ≠ "")

variable {c : FileChange} {path : String}

instance : Decidable (c.Fills path) := inferInstanceAs (Decidable (_ ∧ _))

instance : Decidable (c.Clears path) := inferInstanceAs (Decidable (_ ∨ _))

end FileChange

namespace Walk

/-- Whether an identity is open at a path. -/
def isOpen (w : Walk) (path : String) : Bool := (w.at? path).isSome

/-! ## What one step does to the open paths -/

/-- Changing a record leaves the open paths alone. -/
@[simp] theorem at?_modify (w : Walk) (place : Nat) (f : ChurnRecord → ChurnRecord) (path : String) :
    (w.modify place f).at? path = w.at? path := rfl

/-- Opening an identity opens its path at the next place. -/
theorem at?_openPath (w : Walk) (opened : String) (time : Int) (path : String) :
    (w.openPath opened time).at? path =
      if path = opened then some w.history.records.length else w.at? path := Record.get?_put _ _ _ _

/-- Closing an identity closes its path only. -/
theorem at?_close (w : Walk) (closed : String) (time : Int) (path : String) :
    (w.close closed time).at? path = if path = closed then none else w.at? path := by
  unfold close
  split
  · exact Record.get?_erase _ _ _
  · next h =>
    split
    · next heq => rw [heq, h]
    · rfl

/-- Moving an identity opens its new path and closes its old one. -/
theorem at?_move (w : Walk) (place : Nat) (c : FileChange) (time : Int) (path : String) :
    (w.move place c time).at? path =
      if path = c.path then some place
      else if path = c.oldPath.getD "" then none else w.at? path := by
  unfold move
  dsimp only
  rw [show ∀ (v : Walk) (openAt : List (String × Nat)),
    ({ v with openAt := openAt } : Walk).at? path = Record.get? path openAt from fun _ _ => rfl,
    Record.get?_put]
  split
  · rfl
  · have herase : ∀ v : Walk, v.openAt = Record.erase (c.oldPath.getD "") w.openAt →
        Record.get? path v.openAt = if path = c.oldPath.getD "" then none else w.at? path := by
      intro v hv
      rw [hv, Record.get?_erase]
      rfl
    split <;> exact herase _ rfl

/-- A touched path is open at its place or at the next one, and the others stay as they were. -/
theorem at?_touch (w : Walk) (touched : String) (time : Int) (path : String) :
    (w.touch touched time).at? path =
      if path = touched then some ((w.at? touched).getD w.history.records.length) else w.at? path := by
  unfold touch
  cases hat : w.at? touched with
  | some place =>
    dsimp only
    split
    · next heq => rw [heq, at?_modify, hat, Option.getD_some]
    · rfl
  | none => exact at?_openPath w touched time path

/-- A touched path is open, and the others stay as they were. -/
theorem isOpen_touch (w : Walk) (touched : String) (time : Int) (path : String) :
    (w.touch touched time).isOpen path = (decide (path = touched) || w.isOpen path) := by
  rw [isOpen, at?_touch]
  split <;> simp [isOpen, *]

/-- The place that a rename moves from is open at the old path. -/
theorem at?_of_moved? {w : Walk} {c : FileChange} {place : Nat} (h : w.moved? c = some place) :
    ∃ old, c.oldPath = some old ∧ old ≠ "" ∧ w.at? old = some place := by
  unfold moved? at h
  split at h
  · simp at h
  · next old hold =>
    split at h
    · simp at h
    · next hne => exact ⟨old, hold, by simpa using hne, h⟩

/-- Nothing is open at the old path of a rename that moves no identity. -/
theorem at?_of_moved?_eq_none {w : Walk} {c : FileChange} (h : w.moved? c = none) {old : String}
    (hold : c.oldPath = some old) (hne : old ≠ "") : w.at? old = none := by
  simpa [moved?, hold, hne] using h

/-- The place of the record that a change is about. -/
def met? (w : Walk) (c : FileChange) : Option Nat := if c.kind = .renamed then w.moved? c else w.at? c.path

/-- After a change the path that it fills is open at the place of the record that it is about, or at a new one; the
paths that it clears are closed, and the others are as they were. -/
theorem at?_apply (w : Walk) (time : Int) (c : FileChange) (path : String) : (w.apply time c).at? path =
    if c.Fills path then some ((w.met? c).getD w.history.records.length)
    else if c.Clears path then none else w.at? path := by
  cases hkind : c.kind with
  | added => simp [apply, met?, FileChange.Fills, FileChange.Clears, hkind, at?_touch, eq_comm]
  | modified => simp [apply, met?, FileChange.Fills, FileChange.Clears, hkind, at?_touch, eq_comm]
  | deleted => simp [apply, FileChange.Fills, FileChange.Clears, hkind, at?_close, eq_comm]
  | renamed =>
    by_cases hpath : c.path = path
    · cases hmoved : w.moved? c <;>
        simp [apply, met?, FileChange.Fills, hkind, hmoved, at?_openPath, at?_move, hpath]
    · rw [if_neg fun hfills => hpath hfills.2]
      cases hmoved : w.moved? c with
      | none =>
        have hstays : (w.apply time c).at? path = w.at? path := by
          simp [apply, hkind, hmoved, at?_openPath, Ne.symm hpath]
        rw [hstays]
        split
        · next hclears =>
          obtain ⟨hdel, -⟩ | ⟨-, hold, hne⟩ := hclears
          · cases hkind.symm.trans hdel
          · exact at?_of_moved?_eq_none hmoved hold hne
        · rfl
      | some place =>
        obtain ⟨old, hold, hne, -⟩ := at?_of_moved? hmoved
        have hmoves : w.apply time c = w.move place c time := by simp [apply, hkind, hmoved]
        have hclears : c.Clears path ↔ path = old := by
          simp only [FileChange.Clears, hkind, hold, Option.some.injEq, reduceCtorEq, false_and, false_or, true_and]
          exact ⟨fun h => h.1.symm, fun heq => ⟨heq.symm, heq ▸ hne⟩⟩
        rw [hmoves, at?_move, if_neg (Ne.symm hpath), hold, Option.getD_some]
        simp only [hclears]

/-- A change opens the path that it fills, closes the one that it clears, and leaves the others alone. -/
theorem isOpen_apply (w : Walk) (time : Int) (c : FileChange) (path : String) :
    (w.apply time c).isOpen path = true ↔ c.Fills path ∨ (w.isOpen path = true ∧ ¬c.Clears path) := by
  rw [isOpen, at?_apply]
  split
  · next hfills => simp [hfills]
  · next hfills =>
    split
    · next hclears => simp [hfills, hclears]
    · next hclears => simp [hfills, hclears, isOpen]

/-- After the changes of a commit the open paths are the filled ones and those that were open and not
cleared, if no path is both filled and cleared. -/
theorem isOpen_foldl_apply (time : Int) (changes : List FileChange) (w : Walk)
    (hsep : ∀ c ∈ changes, ∀ d ∈ changes, ∀ path, c.Fills path → ¬d.Clears path) (path : String) :
    (changes.foldl (apply time) w).isOpen path = true ↔
      (∃ c ∈ changes, c.Fills path) ∨ (w.isOpen path = true ∧ ∀ c ∈ changes, ¬c.Clears path) := by
  induction changes generalizing w with
  | nil => simp
  | cons c rest ih =>
    rw [List.foldl_cons, ih _ fun d hd e he =>
      hsep d (List.mem_cons_of_mem _ hd) e (List.mem_cons_of_mem _ he), isOpen_apply]
    simp only [List.exists_mem_cons_iff, List.forall_mem_cons]
    constructor
    · rintro (hrest | ⟨hfills | ⟨hopen, hc⟩, hclears⟩)
      · exact .inl (.inr hrest)
      · exact .inl (.inl hfills)
      · exact .inr ⟨hopen, hc, hclears⟩
    · rintro ((hfills | hrest) | ⟨hopen, hc, hclears⟩)
      · exact .inr ⟨.inl hfills, fun d hd =>
          hsep c List.mem_cons_self d (List.mem_cons_of_mem _ hd) path hfills⟩
      · exact .inl hrest
      · exact .inr ⟨.inr ⟨hopen, hc⟩, hclears⟩

/-- A path that is open is left as it is when missing paths are opened. -/
theorem openMissing_of_isOpen {w : Walk} {path : String} (h : w.isOpen path = true) (time : Int) :
    openMissing time w path = w := if_pos h

/-- A path that is not open is opened when missing paths are. -/
theorem openMissing_of_closed {w : Walk} {path : String} (h : w.isOpen path = false) (time : Int) :
    openMissing time w path = w.openPath path time := if_neg (ne_true_of_eq_false h)

/-- What the opening of a missing path keeps, filling up keeps. -/
theorem backfill_induction {P : Walk → Prop} {w : Walk} {paths : List String} {time : Int} (h : P w)
    (hopen : ∀ w path, path ∈ paths → w.isOpen path = false → P w → P (w.openPath path time)) :
    P (w.backfill paths time) := by
  refine List.foldlRecOn _ _ h fun w hw path hpath => ?_
  unfold openMissing
  split
  · exact hw
  · next hclosed =>
    exact hopen w path ((List.mergeSort_perm _ _).mem_iff.1 hpath) (Bool.eq_false_iff.2 hclosed) hw

/-- Filling up opens the missing paths and nothing else. -/
theorem isOpen_backfill (w : Walk) (paths : List String) (time : Int) (path : String) :
    (w.backfill paths time).isOpen path = true ↔ w.isOpen path = true ∨ path ∈ paths := by
  have hfold : ∀ (sorted : List String) (w : Walk),
      (sorted.foldl (openMissing time) w).isOpen path = true ↔
        w.isOpen path = true ∨ path ∈ sorted := by
    intro sorted
    induction sorted with
    | nil => simp
    | cons first rest ih =>
      intro w
      rw [List.foldl_cons, ih, List.mem_cons]
      have hstep : (openMissing time w first).isOpen path = true ↔
          w.isOpen path = true ∨ path = first := by
        unfold openMissing
        split
        · next hopen =>
          exact ⟨.inl, fun h => h.elim id fun heq => heq ▸ hopen⟩
        · by_cases hp : path = first <;> simp [isOpen, at?_openPath, hp]
      rw [hstep, or_assoc]
  rw [backfill, hfold, (List.mergeSort_perm _ _).mem_iff]

end Walk

end Hotspots
