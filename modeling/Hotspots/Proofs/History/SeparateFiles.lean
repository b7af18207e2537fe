import Hotspots.Proofs.History.CountedChanges
import Hotspots.Proofs.History.LiveRecords
import Hotspots.Proofs.History.MirroredWalks
import Hotspots.Proofs.Record.Sorted
import Mathlib.Data.List.Sort
import Mathlib.Data.String.Basic

/-!
# Unrelated files do not influence each other

Let paths be chosen such that no rename leads from a chosen path to another one or back. Then the operations that are
cut down to the chosen paths mirror these paths in the full run: a change is either taken by both walks or by the full
one alone (`Walk.Mirrors.perform_onlyAt`). So the records at the chosen paths are the records of the run that never
heard of the other files (`Walk.separate_files`).
-/

namespace Hotspots

namespace Walk

variable {part full : Walk} {chosen : String → Bool} {place : Nat → Nat}

/-- What is left of an operation at the chosen paths. A commit stays, with the changes at these paths. -/
def Operation.onlyAt (chosen : String → Bool) : Operation → Operation
  | .feed c => .feed { c with changes := c.changes.filter fun d => chosen d.path }
  | .backfill paths time => .backfill (paths.filter chosen) time

namespace Mirrors

/-- Changes keep a mirror if it takes those at the chosen paths. -/
theorem foldl_apply_filter (h : Mirrors (chosen · = true) place part full) (hmono : StrictMono place) (time : Int)
    {changes : List FileChange} (hseparate : ∀ d ∈ changes, ∀ path ∈ d.mentioned, chosen path = chosen d.path) :
    ∃ place', StrictMono place' ∧ Mirrors (chosen · = true) place'
      ((changes.filter fun d => chosen d.path).foldl (Walk.apply time) part)
      (changes.foldl (Walk.apply time) full) := by
  induction changes generalizing place part full with
  | nil => exact ⟨place, hmono, h⟩
  | cons d rest ih =>
    obtain ⟨hd, hrest⟩ := List.forall_mem_cons.1 hseparate
    cases hchosen : chosen d.path with
    | true =>
      rw [List.filter_cons, if_pos hchosen]
      exact ih (h.apply (fun path hpath => (hd path hpath).trans hchosen) time) hmono hrest
    | false =>
      rw [List.filter_cons, if_neg (ne_true_of_eq_false hchosen)]
      have hother : ∀ path ∈ d.mentioned, ¬ chosen path = true := fun path hpath =>
        ne_true_of_eq_false ((hd path hpath).trans hchosen)
      obtain ⟨place', hmono', h'⟩ := h.apply_full hmono hother time
      exact ih h' hmono' hrest

/-- Looking for paths keeps a mirror if it looks for the chosen ones. -/
theorem foldl_openMissing_filter (h : Mirrors (chosen · = true) place part full) (hmono : StrictMono place)
    (time : Int) (paths : List String) :
    ∃ place', StrictMono place' ∧ Mirrors (chosen · = true) place'
      ((paths.filter chosen).foldl (Walk.openMissing time) part) (paths.foldl (Walk.openMissing time) full) := by
  induction paths generalizing place part full with
  | nil => exact ⟨place, hmono, h⟩
  | cons path rest ih =>
    cases hchosen : chosen path with
    | true =>
      rw [List.filter_cons_of_pos hchosen]
      exact ih (h.openMissing hchosen time) hmono
    | false =>
      rw [List.filter_cons_of_neg (ne_true_of_eq_false hchosen)]
      obtain ⟨place', hmono', h'⟩ := h.openMissing_full hmono (ne_true_of_eq_false hchosen) time
      exact ih h' hmono'

/-- An operation keeps a mirror that takes what is left of it at the chosen paths. -/
theorem perform_onlyAt (h : Mirrors (chosen · = true) place part full) (hmono : StrictMono place)
    {operation : Operation} (hseparate : ∀ d ∈ operation.fed, ∀ path ∈ d.mentioned, chosen path = chosen d.path) :
    ∃ place', StrictMono place' ∧
      Mirrors (chosen · = true) place' (part.perform (operation.onlyAt chosen)) (full.perform operation) := by
  cases operation with
  | feed c =>
    obtain ⟨place', hmono', h'⟩ := h.foldl_apply_filter hmono c.timestamp hseparate
    exact ⟨place', hmono', h'.committed c.sha⟩
  | backfill paths time =>
    have hsorted : (paths.filter chosen).mergeSort (fun a b => decide (a ≤ b)) =
        (paths.mergeSort fun a b => decide (a ≤ b)).filter chosen := (filter_mergeSort_key id chosen paths).symm
    have hfilled := h.foldl_openMissing_filter hmono time (paths.mergeSort fun a b => decide (a ≤ b))
    rwa [← hsorted] at hfilled

/-- Operations keep a mirror that takes what is left of them at the chosen paths. -/
theorem foldl_perform_onlyAt (h : Mirrors (chosen · = true) place part full) (hmono : StrictMono place)
    {operations : List Operation}
    (hseparate : ∀ d ∈ operations.flatMap Operation.fed, ∀ path ∈ d.mentioned, chosen path = chosen d.path) :
    ∃ place', StrictMono place' ∧ Mirrors (chosen · = true) place'
      ((operations.map (Operation.onlyAt chosen)).foldl perform part) (operations.foldl perform full) := by
  induction operations generalizing place part full with
  | nil => exact ⟨place, hmono, h⟩
  | cons operation rest ih =>
    rw [List.flatMap_cons, List.forall_mem_append] at hseparate
    obtain ⟨place', hmono', h'⟩ := h.perform_onlyAt hmono hseparate.1
    exact ih h' hmono' hseparate.2

/-- The records at the chosen paths are the records of the mirror, in their order. -/
theorem filter_records (h : Mirrors (chosen · = true) place part full) (hmono : StrictMono place) :
    full.history.records.filter (fun r => chosen r.identity.path) =
      part.history.records.map fun r => r.numbered (place r.identity.uid.toNat) := by
  have huid : ∀ (i : Nat) r, part.history.records[i]? = some r → place r.identity.uid.toNat = place i := by
    intro i r hr
    rw [h.sound.uid_eq i r hr, Int.toNat_natCast]
  -- Both lists are in the order of the numbers, so that it is enough to compare their elements.
  have hfull := h.sound_full.pairwise_uid.filter fun r => chosen r.identity.path
  have hpart : (part.history.records.map fun r => r.numbered (place r.identity.uid.toNat)).Pairwise
      fun a b => a.identity.uid < b.identity.uid := by
    refine List.pairwise_map.2 (h.sound.pairwise_uid.imp_of_mem fun {a b} ha _ hab => Int.ofNat_lt.2 (hmono ?_))
    obtain ⟨i, hi⟩ := List.mem_iff_getElem?.1 ha
    have hnonneg := h.sound.uid_eq i a hi
    omega
  have hirrefl : Std.Irrefl fun a b : ChurnRecord => a.identity.uid < b.identity.uid :=
    ⟨fun a => Int.lt_irrefl a.identity.uid⟩
  refine hfull.eq_of_mem_iff hpart fun b => ?_
  rw [List.mem_filter, List.mem_map]
  constructor
  · rintro ⟨hb, hchosen⟩
    obtain ⟨j, hj⟩ := List.mem_iff_getElem?.1 hb
    obtain ⟨i, hi, rfl⟩ := h.covered j b hj hchosen
    obtain ⟨r, hr⟩ : ∃ r, part.history.records[i]? = some r := ⟨_, List.getElem?_eq_getElem hi⟩
    refine ⟨r, List.mem_of_getElem? hr, ?_⟩
    rw [huid i r hr]
    exact Option.some.inj ((h.record i r hr).2.symm.trans hj)
  · rintro ⟨r, hr, rfl⟩
    obtain ⟨i, hi⟩ := List.mem_iff_getElem?.1 hr
    obtain ⟨hchosen, himage⟩ := h.record i r hi
    rw [huid i r hi]
    exact ⟨List.mem_of_getElem? himage, hchosen⟩

end Mirrors

/-- Unrelated files do not influence each other's churn. If each change is at chosen paths only or at other paths only,
the records at the chosen paths are, in their order, the records of the run in which all other changes and all other
tracked paths are left out. They differ in their numbers alone, and the numbers are in the same order. -/
theorem separate_files (chosen : String → Bool) (operations : List Operation)
    (hseparate : ∀ d ∈ operations.flatMap Operation.fed, ∀ path ∈ d.mentioned, chosen path = chosen d.path) :
    ∃ number : Nat → Nat, StrictMono number ∧
      (run operations).history.records.filter (fun r => chosen r.identity.path) =
        (run (operations.map (Operation.onlyAt chosen))).history.records.map
          fun r => r.numbered (number r.identity.uid.toNat) := by
  obtain ⟨number, hmono, h⟩ := (mirrors_empty (chosen · = true)).foldl_perform_onlyAt strictMono_id hseparate
  exact ⟨number, hmono, h.filter_records hmono⟩

/-- Two files are moved about among others, one of them onto the other, and a third one is filled up. The files beside
them change nothing but the numbers, which would be 0, 1 and 2. -/
theorem separate_files_moved :
    let operations : List Operation :=
      [.feed { sha := "1", timestamp := 1,
               changes := [{ kind := .added, path := "x" }, { kind := .added, path := "a" },
                 { kind := .added, path := "y" }, { kind := .added, path := "b" }] },
       .feed { sha := "2", timestamp := 2,
               changes := [{ kind := .renamed, path := "y", oldPath := some "x", similarity := .ofInt 1 },
                 { kind := .renamed, path := "b", oldPath := some "a", similarity := .ofInt 1 }] },
       .backfill ["z"] 3, .backfill ["c"] 4]
    let chosen (path : String) : Bool := ["a", "b", "c"].contains path
    let records := (run operations).history.records.filter fun r => chosen r.identity.path
    records.map (fun r => (r.identity.uid, r.identity.path, r.deletedAt)) =
        [(1, "b", none), (3, "b", some 2), (5, "c", none)] ∧
      ∃ number : Nat → Nat, StrictMono number ∧
        records = (run (operations.map (Operation.onlyAt chosen))).history.records.map
          fun r => r.numbered (number r.identity.uid.toNat) := by
  intro operations chosen records
  have hseparate : ∀ d ∈ operations.flatMap Operation.fed, ∀ path ∈ d.mentioned, chosen path = chosen d.path := by
    decide +kernel
  exact ⟨by decide +kernel, separate_files chosen operations hseparate⟩

end Walk

end Hotspots
