import Hotspots.Proofs.Run.Exec
import Hotspots.Proofs.Scan.Findings
import Mathlib.Algebra.BigOperators.Group.List.Basic

/-!
# What many files add to the tally

Tallies add up counter by counter. A file adds one to the total and one to the files that were scored, clean or
skipped, whatever its engine does with it, and many files add what each of them adds (`returns_scoreAll`): neither
the order nor a pool makes a difference to that.
-/

namespace Hotspots

namespace Tally

instance : Zero Tally := ⟨{}⟩

instance : Add Tally :=
  ⟨fun a b => ⟨a.scored + b.scored, a.clean + b.clean, a.skipped + b.skipped, a.total + b.total⟩⟩

/-- The counters of no files. -/
theorem zero_eq : (0 : Tally) = {} := rfl

/-- Tallies are added counter by counter. -/
theorem add_eq (a b : Tally) :
    a + b = ⟨a.scored + b.scored, a.clean + b.clean, a.skipped + b.skipped, a.total + b.total⟩ := rfl

instance : AddCommMonoid Tally where
  add_assoc a b c := by simp only [add_eq, Nat.add_assoc]
  zero_add a := by simp only [add_eq, zero_eq, Nat.zero_add]
  add_zero a := by simp only [add_eq, zero_eq, Nat.add_zero]
  add_comm a b := by simp only [add_eq, Nat.add_comm]
  nsmul := nsmulRec

/-- Every file is scored, clean or skipped. -/
def IsBalanced (t : Tally) : Prop := t.total = t.scored + t.clean + t.skipped

/-- Sums of balanced tallies are balanced. -/
theorem IsBalanced.add {a b : Tally} (ha : a.IsBalanced) (hb : b.IsBalanced) : (a + b).IsBalanced := by
  unfold IsBalanced at *
  rw [add_eq]
  dsimp only
  omega

end Tally

namespace Scorer

variable {s : Scorer}

/-! ## One file -/

/-- A scorer whose engine neither interrupts nor cancels the run. Its engine may have any findings, and may fail in
any other way. -/
structure IsOrdinary (s : Scorer) : Prop where
  answers : ∀ path, s.engine.failure? path ≠ some .interrupted
  not_interrupted : ∀ path source, s.engine.analyze path source ≠ .error .interrupted
  not_cancelled : ∀ path, s.engine.cancels path = false

/-- What a file with an outcome adds to the tally in the end. -/
def Outcome.tally : Outcome → Tally
  | unscannable => { total := 1, skipped := 1 }
  | clean => { total := 1, clean := 1 }
  | found _ => { total := 1, scored := 1 }
  | failed _ => { total := 1, skipped := 1 }

/-- What a file adds to the tally. -/
def tallyOf (s : Scorer) (file : FileIdentity × Bytes) : Tally := (s.examine file.1.path file.2).1.tally

/-- An ordinary scorer is not interrupted by a file. -/
theorem IsOrdinary.examine_ne (hs : s.IsOrdinary) (path : String) (content : Bytes) :
    (s.examine path content).1 ≠ .failed .interrupted := by
  unfold examine
  split
  · next e he =>
    intro h
    cases h
    exact hs.answers path he
  · split
    · exact nofun
    · next source hsource =>
      unfold analyzed
      split
      · split <;> exact nofun
      · next e he =>
        split
        · exact nofun
        · intro h
          cases h
          exact hs.not_interrupted _ _ he

/-- An ordinary scorer does not cancel the run. -/
theorem IsOrdinary.cancelsOn_eq (hs : s.IsOrdinary) (path : String) (content : Bytes) :
    s.cancelsOn path content = false := by
  unfold cancelsOn
  split
  · exact hs.not_cancelled path
  · rfl

/-- A file that is scored or skipped adds its part to the tally. -/
theorem returns_scoreGuarded (hs : s.IsOrdinary) (identity : FileIdentity) (content : Bytes) {st : Scoring}
    (hst : st.session.cancelled = false) :
    ∃ st', (s.scoreGuarded identity content).Returns st (s.finding? identity.path content) st' ∧
      st'.session.cancelled = false ∧ st'.tally = st.tally + s.tallyOf (identity, content) := by
  have hordinary := hs.examine_ne identity.path content
  unfold scoreGuarded score finding? tallyOf Run.Returns
  rw [hs.cancelsOn_eq]
  dsimp only
  generalize s.examine identity.path content = examined at hordinary ⊢
  obtain ⟨outcome, entries⟩ := examined
  cases outcome with
  | unscannable => exact ⟨_, rfl, hst, rfl⟩
  | clean => exact ⟨_, rfl, hst, rfl⟩
  | found f => exact ⟨_, rfl, hst, rfl⟩
  | failed e =>
    cases e with
    | interrupted => exact (hordinary rfl).elim
    | triage e => exact ⟨_, rfl, hst, rfl⟩
    | fault f => exact ⟨_, rfl, hst, rfl⟩

/-! ## Many files -/

/-- What files add to the tally. -/
def tallyOfAll (s : Scorer) (snapshot : Snapshot) : Tally := (snapshot.map s.tallyOf).sum

/-- One more file adds its part. -/
theorem tallyOfAll_cons (s : Scorer) (file : FileIdentity × Bytes) (rest : Snapshot) :
    s.tallyOfAll (file :: rest) = s.tallyOf file + s.tallyOfAll rest := List.sum_cons

/-- Every file is counted once in the total. -/
theorem total_tallyOfAll (s : Scorer) (snapshot : Snapshot) : (s.tallyOfAll snapshot).total = snapshot.length := by
  induction snapshot with
  | nil => rfl
  | cons file rest ih =>
    rw [tallyOfAll_cons, Tally.add_eq, ih, List.length_cons, tallyOf]
    cases (s.examine file.1.path file.2).1 <;> exact Nat.add_comm _ _

/-- The files that are scored are those with a finding. -/
theorem scored_tallyOfAll (s : Scorer) (snapshot : Snapshot) :
    (s.tallyOfAll snapshot).scored = (s.findings snapshot).length := by
  induction snapshot with
  | nil => rfl
  | cons file rest ih =>
    have hfindings : s.findings (file :: rest) =
        scored file.1 (s.finding? file.1.path file.2) ++ s.findings rest := rfl
    rw [tallyOfAll_cons, Tally.add_eq, ih, hfindings, List.length_append, tallyOf, finding?]
    cases (s.examine file.1.path file.2).1 <;> rfl

/-- Every file is scored, clean or skipped. -/
theorem isBalanced_tallyOfAll (s : Scorer) (snapshot : Snapshot) : (s.tallyOfAll snapshot).IsBalanced := by
  induction snapshot with
  | nil => rfl
  | cons file rest ih =>
    rw [tallyOfAll_cons]
    refine Tally.IsBalanced.add ?_ ih
    rw [tallyOf]
    cases (s.examine file.1.path file.2).1 <;> rfl

/-- Files that are scored in turn add their parts to the tally. -/
theorem returns_inTurn (hs : s.IsOrdinary) (snapshot : Snapshot) {st : Scoring}
    (hst : st.session.cancelled = false) :
    ∃ st', (s.inTurn snapshot).Returns st (s.findings snapshot) st' ∧ st'.session.cancelled = false ∧
      st'.tally = st.tally + s.tallyOfAll snapshot := by
  induction snapshot generalizing st with
  | nil => exact ⟨st, rfl, hst, (add_zero st.tally).symm⟩
  | cons file rest ih =>
    obtain ⟨identity, content⟩ := file
    obtain ⟨st₁, hfirst, hst₁, htally₁⟩ := returns_scoreGuarded hs identity content hst
    obtain ⟨st₂, hrest, hst₂, htally₂⟩ := ih hst₁
    refine ⟨st₂, ?_, hst₂, ?_⟩
    · refine Run.returns_bind.2 ⟨(), st, Run.returns_checkpoint.2 ⟨hst, rfl⟩, ?_⟩
      refine Run.returns_bind.2 ⟨_, st₁, hfirst, ?_⟩
      exact Run.returns_bind.2 ⟨_, st₂, hrest, Run.returns_pure.2 ⟨rfl, rfl⟩⟩
    · rw [htally₂, htally₁, add_assoc, tallyOfAll_cons]

/-- Tasks of a run that is not cancelled add the parts of their files to the tally. -/
theorem returns_runTasks (hs : s.IsOrdinary) (snapshot : Snapshot) {st : Scoring}
    (hst : st.session.cancelled = false) :
    ∃ st', (s.runTasks snapshot).Returns st (s.findings snapshot) st' ∧ st'.session.cancelled = false ∧
      st'.tally = st.tally + s.tallyOfAll snapshot := by
  induction snapshot generalizing st with
  | nil => exact ⟨st, rfl, hst, (add_zero st.tally).symm⟩
  | cons file rest ih =>
    obtain ⟨identity, content⟩ := file
    obtain ⟨st₁, hfirst, hst₁, htally₁⟩ := returns_scoreGuarded hs identity content hst
    obtain ⟨st₂, hrest, hst₂, htally₂⟩ := ih hst₁
    have htask : (s.task identity content).Returns st (s.finding? identity.path content) st₁ :=
      Run.returns_bind.2 ⟨false, st, Run.returns_isCancelled.2 ⟨hst, rfl⟩, hfirst⟩
    refine ⟨st₂, ?_, hst₂, ?_⟩
    · refine Run.returns_bind.2 ⟨_, st₁, htask, ?_⟩
      exact Run.returns_bind.2 ⟨_, st₂, hrest, Run.returns_pure.2 ⟨rfl, rfl⟩⟩
    · rw [htally₂, htally₁, add_assoc, tallyOfAll_cons]

/-- Files have their findings, in the order of the uids, and add their parts to the tally, whichever way they are
scored. -/
theorem returns_scoreAll (hs : s.IsOrdinary) (hworkers : makesPool s.workers = true) (snapshot : Snapshot)
    (parallel : Bool) {st : Scoring} (hst : st.session.cancelled = false) :
    ∃ st', (s.scoreAll snapshot parallel).Returns st (byUid (s.findings snapshot)) st' ∧
      st'.tally = st.tally + s.tallyOfAll snapshot := by
  have hend (results : Scores) (st' : Scoring) : Run.Returns (do
      let state : Scoring ← Run.state
      Run.log .info (tallyText state.tally)
      return byUid results) st' (byUid results) (Run.logged [⟨.info, tallyText st'.tally⟩] st') := rfl
  unfold scoreAll
  dsimp only
  split
  · obtain ⟨st', hreturns, -, htally⟩ := returns_inTurn hs snapshot hst
    exact ⟨_, Run.returns_bind.2 ⟨_, st', hreturns, hend _ st'⟩, htally⟩
  · obtain ⟨st', hreturns, hst', htally⟩ := returns_runTasks hs snapshot hst
    have hpool : (s.withPool snapshot).Returns st (s.findings snapshot) st' := by
      unfold withPool
      rw [hworkers]
      refine Run.returns_bind.2 ⟨_, st', hreturns, ?_⟩
      exact Run.returns_bind.2 ⟨(), st', Run.returns_checkpoint.2 ⟨hst', rfl⟩, Run.returns_pure.2 ⟨rfl, rfl⟩⟩
    exact ⟨_, Run.returns_bind.2 ⟨_, st', hpool, hend _ st'⟩, htally⟩

end Scorer

end Hotspots
