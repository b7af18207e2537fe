import Hotspots.Proofs.Git.Shown

/-!
# The repository of a history

Every history that a repository could show is shown by one: its commands print what there is to show of the history,
and its helper serves a store.
-/

namespace Hotspots

variable {f : ObjectFormat} {revisions : List (Revision f)} {store : ObjectStore f}

/-- A limit leaves something of a history that has revisions. -/
theorem Revision.drop_leftOut_ne_nil (limit : Int) (h : revisions ≠ []) :
    revisions.drop (leftOut limit revisions) ≠ [] := by
  have hlength := List.length_pos_iff.2 h
  have hlt : leftOut limit revisions < revisions.length := by
    unfold leftOut
    split <;> omega
  rw [Ne, List.drop_eq_nil_iff]
  omega

/-- A whole number is a limit if it is above zero. -/
theorem Reader.isLimit_int (limit : Int) : isLimit (.int limit) = decide (0 < limit) := by
  have hcompare : isLimit (.int limit) = (some (compare 0 limit) == some Ordering.lt) := rfl
  rw [hcompare, Bool.eq_iff_iff, beq_iff_eq, Option.some.injEq, compare_lt_iff_lt, decide_eq_true_eq]

namespace Repository

/-- The number that the log is limited to. -/
def limitOf : Option Value → Int
  | some (.int limit) => limit
  | _ => 0

/-- The log leaves out what the limit leaves out that it was asked for. -/
theorem leftOut_limitOf (limit : Int) :
    Revision.leftOut (limitOf (Reader.askedLimit (.int limit))) revisions = Revision.leftOut limit revisions := by
  unfold Reader.askedLimit
  rw [Reader.isLimit_int]
  by_cases hlimit : 0 < limit
  · rw [if_pos (decide_eq_true hlimit), limitOf]
  · rw [if_neg (by simpa using hlimit)]
    change Revision.leftOut 0 revisions = Revision.leftOut limit revisions
    rw [Revision.leftOut, Revision.leftOut, if_neg (Int.lt_irrefl 0), if_neg hlimit]

/-- The newest revisions of a history, without some that are older, as the log prints them. -/
def printedLog (revisions : List (Revision f)) (older : Nat) : Bytes :=
  Utf8.encodeChars (Revision.log (Revision.lastTree .empty (revisions.take older)) (revisions.drop older))

/-- A repository whose commands show a history to whoever asks, and whose helper serves a store. -/
def ofHistory (revisions : List (Revision f)) (store : ObjectStore f) : Repository :=
  { locate := some
    answer := fun
      | .gitDir => .exited 0 [] []
      | .verify _ =>
        match revisions.getLast? with
        | some last => .exited 0 (Utf8.encode (last.sha ++ "\n")) []
        | none => .exited 1 [] []
      | .log limit _ => .exited 0 (printedLog revisions (Revision.leftOut (limitOf limit) revisions)) []
      | .listTree _ => .exited 0 ((revisions.getLast?.map fun last => last.tree.listing).getD []) []
    reply := fun line =>
      match (ObjectId.ofText? (Utf8.decodeLossy line) : Option (ObjectId f)) with
      | some id => .printed (store.shown id)
      | none => .exits }

/-- The helper shows what the store has. -/
theorem reply_ofHistory (id : ObjectId f) :
    (ofHistory revisions store).reply (Utf8.encode id.text) = .printed (store.shown id) := by
  simp only [ofHistory, Utf8.decodeLossy_encode, ObjectId.ofText?_text]

/-- A revision is looked up as the last one. -/
theorem answer_verify_ofHistory {last : Revision f} (hlast : revisions.getLast? = some last) (name : String) :
    (ofHistory revisions store).answer (.verify name) = .exited 0 (Utf8.encode (last.sha ++ "\n")) [] := by
  simp only [ofHistory, hlast]

/-- The repository of a history shows it. -/
theorem shows_ofHistory (name : String) (hhistory : Revision.IsHistory .empty revisions)
    (hnamed : ∀ r ∈ revisions, r.IsNamed) (hparents : ∀ r ∈ revisions.tail, r.parents ≠ [])
    (hpath : ∀ r ∈ revisions, ∀ path ∈ r.tree.entries.map Prod.fst, Char.ofNat 0 ∉ path.toList) :
    (ofHistory revisions store).Shows name revisions store where
  isHistory := hhistory
  isNamed := hnamed
  hasParents := hparents
  isPath := hpath
  head code printed complaint heq := by
    cases hlast : revisions.getLast? with
    | none =>
      simp only [ofHistory, hlast] at heq
      injection heq with hcode
      simp [← hcode, List.getLast?_eq_none_iff.1 hlast]
    | some last =>
      rw [answer_verify_ofHistory hlast] at heq
      injection heq with hcode
      exact iff_of_true hcode.symm (List.ne_nil_of_mem (List.mem_of_getLast? hlast))
  names r hr n _ printed complaint heq := by
    rw [answer_verify_ofHistory hr] at heq
    injection heq with _ hprinted
    exact hprinted.symm
  log r hr limit := by
    refine ⟨_, _, (List.take_append_drop (Revision.leftOut (limitOf limit) revisions) revisions).symm,
      Revision.drop_leftOut_ne_nil _ (List.ne_nil_of_mem (List.mem_of_getLast? hr)), ?_⟩
    rintro printed complaint heq
    injection heq with _ hprinted
    exact hprinted.symm
  listing r hr printed complaint heq := by
    simp only [ofHistory, hr] at heq
    injection heq with _ hprinted
    exact hprinted.symm
  objects id output hreply := by
    rw [reply_ofHistory] at hreply
    injection hreply with hreply
    exact hreply.symm

/-- The log of the repository of a history keeps to its limits. -/
theorem keepsLimits_ofHistory : (ofHistory revisions store).KeepsLimits revisions := by
  intro r hr limit printed complaint heq
  injection heq with _ hprinted
  rw [← hprinted, printedLog, leftOut_limitOf]

/-- The repository of a history answers if the store has the blobs of its trees and the times are short. -/
theorem answers_ofHistory (name : String)
    (hblobs : ∀ r ∈ revisions, ∀ path (id : ObjectId f), TreeNode.blobOf (r.tree.node? path) = some id.text →
      ∃ content, store id = some (.blob, content) ∧ content.length < 2 ^ 63)
    (htime : ∀ r ∈ revisions, (natText r.timestamp.toNat).toList.length ≤ Reading.maxDigits) :
    (ofHistory revisions store).Answers name revisions store where
  verify r hr n _ := ⟨_, _, answer_verify_ofHistory hr n⟩
  log _ _ _ := ⟨_, _, rfl⟩
  listing _ _ := ⟨_, _, rfl⟩
  blobs r hr path id hblob := by
    obtain ⟨content, hstore, hfits⟩ := hblobs r hr path id hblob
    exact ⟨content, hstore, hfits, reply_ofHistory id⟩
  isRunning _ := rfl
  isCalm _ _ := rfl
  timestamp := htime

end Repository

end Hotspots
