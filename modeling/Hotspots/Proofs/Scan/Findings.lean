import Hotspots.Proofs.Ranking.DenseOrder
import Hotspots.Proofs.Run.Ensures
import Hotspots.Scan.Scorer

/-!
# The findings of many files

Files are scored one after the other or by tasks of a pool. Either way a run that returns was not cut short,
and its findings are those of the single files: a task that is passed over belongs to a cancelled run, and a
cancelled run does not pass the checkpoint at its end.
-/

namespace Hotspots.Scorer

variable {s : Scorer}

/-! ## One file -/

/-- The finding that an outcome holds. -/
def Outcome.finding? : Outcome → Option Finding
  | found f => some f
  | _ => none

/-- The finding of a path with a content, if it can be scanned and has one. -/
def finding? (s : Scorer) (path : String) (content : Bytes) : Option Finding :=
  (s.examine path content).1.finding?

/-- Scoring a file ends with its finding, or fails on a file without one; a cancelled run stays cancelled. -/
theorem exec_score (s : Scorer) (identity : FileIdentity) (content : Bytes) (st : Scoring) :
    ∃ ending st', Run.exec (s.score identity content) st = (ending, st') ∧
      (st.session.cancelled = true → st'.session.cancelled = true) ∧
      match ending with
      | .ok finding => finding = s.finding? identity.path content
      | .error _ => s.finding? identity.path content = none := by
  unfold score finding?
  rcases s.examine identity.path content with ⟨outcome, entries⟩
  dsimp only
  cases s.cancelsOn identity.path content <;> cases outcome <;>
    exact ⟨_, _, rfl, by simp [HasSession.session, HasSession.withSession], rfl⟩

/-- Scoring a file returns a finding exactly if it is the finding of its path and content. -/
theorem exists_returns_score_iff {identity : FileIdentity} {content : Bytes} {st : Scoring} {f : Finding} :
    (∃ st', (s.score identity content).Returns st (some f) st') ↔
      s.finding? identity.path content = some f := by
  obtain ⟨ending, st', hexec, -, hending⟩ := s.exec_score identity content st
  unfold Run.Returns
  rw [hexec]
  cases ending with
  | ok finding => simp [← hending]
  | error e => simp [show s.finding? identity.path content = none from hending]

/-- Scoring a file with a source that the engine can analyze returns the finding that stands for it. -/
theorem exists_returns_score {identity : FileIdentity} {content : Bytes} {source : String} {findings : List Finding}
    (hanswers : s.engine.failure? identity.path = none) (hsource : s.sourceOf identity.path content = .ok source)
    (hanalyze : s.engine.analyze identity.path source = .ok findings) (st : Scoring) :
    ∃ st', (s.score identity content).Returns st (representative? findings) st' := by
  have hexamine : s.examine identity.path content = ((representative? findings).elim .clean .found, []) := by
    rw [examine, hanswers, hsource]
    change s.analyzed identity.path source = _
    rw [analyzed, hanalyze]
    dsimp only
    cases representative? findings <;> rfl
  unfold score
  rw [hexamine]
  cases s.cancelsOn identity.path content <;> cases representative? findings <;> exact ⟨_, rfl⟩

/-- A file that was scored or skipped has the finding of its path and content; a cancelled run stays
cancelled. -/
theorem eq_of_returns_scoreGuarded {identity : FileIdentity} {content : Bytes} {st st' : Scoring}
    {finding : Option Finding} (h : (s.scoreGuarded identity content).Returns st finding st') :
    finding = s.finding? identity.path content ∧
      (st.session.cancelled = true → st'.session.cancelled = true) := by
  obtain ⟨ending, t, hexec, hcancelled, hending⟩ := s.exec_score identity content st
  unfold scoreGuarded at h
  obtain ⟨ending', t', hscore, h⟩ := Run.returns_bind.1 h
  rw [Run.returns_outcome, hexec] at hscore
  injection hscore with hend hstate
  subst hend hstate
  split at h
  · obtain ⟨rfl, rfl⟩ := Run.returns_pure.1 h
    exact ⟨hending, hcancelled⟩
  · exact (Run.returns_fail.1 h).elim
  · obtain ⟨_, t₁, hlog, h⟩ := Run.returns_bind.1 h
    obtain ⟨_, t₂, hupdate, h⟩ := Run.returns_bind.1 h
    obtain ⟨rfl, rfl⟩ := Run.returns_pure.1 h
    rw [Run.returns_log] at hlog
    rw [Run.returns_update] at hupdate
    subst hlog hupdate
    exact ⟨hending.symm, hcancelled⟩

/-! ## Many files -/

/-- The findings of files with their identities. -/
def findings (s : Scorer) (snapshot : Snapshot) : Scores :=
  snapshot.flatMap fun (identity, content) => scored identity (s.finding? identity.path content)

/-- A finding is one of many if its file is there and has it. -/
theorem mem_findings {snapshot : Snapshot} {identity : FileIdentity} {f : Finding} :
    (identity, f) ∈ s.findings snapshot ↔
      ∃ content, (identity, content) ∈ snapshot ∧ s.finding? identity.path content = some f := by
  simp only [findings, scored, List.mem_flatMap, Option.mem_toList, Option.map_eq_some_iff]
  constructor
  · rintro ⟨⟨i, content⟩, hmem, g, hg, heq⟩
    injection heq with hi hf
    subst hi hf
    exact ⟨content, hmem, hg⟩
  · rintro ⟨content, hmem, hf⟩
    exact ⟨(identity, content), hmem, f, hf, rfl⟩

/-- Files with findings come in the order of the files. -/
theorem map_fst_findings_sublist (s : Scorer) (snapshot : Snapshot) :
    ((s.findings snapshot).map Prod.fst).Sublist (snapshot.map Prod.fst) := by
  induction snapshot with
  | nil => exact List.Sublist.refl _
  | cons entry rest ih =>
    obtain ⟨identity, content⟩ := entry
    rw [findings, List.flatMap_cons, ← findings, List.map_append, List.map_cons]
    dsimp only
    cases s.finding? identity.path content with
    | none => exact ih.cons identity
    | some f => exact ih.cons_cons identity

/-- Files that are scored in turn have their findings. -/
theorem ensures_inTurn (s : Scorer) (snapshot : Snapshot) :
    Run.Ensures (fun _ => True) (s.inTurn snapshot) fun scores => scores = s.findings snapshot := by
  induction snapshot with
  | nil => exact Run.ensures_pure rfl
  | cons entry rest ih =>
    obtain ⟨identity, content⟩ := entry
    have hfirst : Run.Ensures (fun _ => True) (s.scoreGuarded identity content) fun finding =>
        finding = s.finding? identity.path content :=
      fun st finding st' _ h => ⟨(eq_of_returns_scoreGuarded h).1, trivial⟩
    apply (Run.ensures_checkpoint _).bind
    intro _ _
    apply hfirst.bind
    intro finding hfinding
    apply ih.bind
    intro more hmore
    apply Run.ensures_pure
    rw [hfinding, hmore]
    rfl

/-- A task of a run that is not cancelled afterwards has scored its file. -/
theorem eq_of_returns_task {identity : FileIdentity} {content : Bytes} {st st' : Scoring}
    {finding : Option Finding} (h : (s.task identity content).Returns st finding st')
    (hgoes : st'.session.cancelled = false) :
    finding = s.finding? identity.path content ∧ st.session.cancelled = false := by
  obtain ⟨cancelled, t, hcancelled, h⟩ := Run.returns_bind.1 h
  obtain ⟨hwas, rfl⟩ := Run.returns_isCancelled.1 hcancelled
  change st.session.cancelled = cancelled at hwas
  cases cancelled with
  | true =>
    obtain ⟨-, rfl⟩ := Run.returns_pure.1 h
    rw [hgoes] at hwas
    cases hwas
  | false => exact ⟨(eq_of_returns_scoreGuarded h).1, hwas⟩

/-- Tasks of a run that is not cancelled afterwards have scored all files. -/
theorem eq_of_returns_runTasks {snapshot : Snapshot} {st st' : Scoring} {scores : Scores}
    (h : (s.runTasks snapshot).Returns st scores st') (hgoes : st'.session.cancelled = false) :
    scores = s.findings snapshot ∧ st.session.cancelled = false := by
  induction snapshot generalizing st scores with
  | nil =>
    obtain ⟨rfl, rfl⟩ := Run.returns_pure.1 h
    exact ⟨rfl, hgoes⟩
  | cons entry rest ih =>
    obtain ⟨identity, content⟩ := entry
    obtain ⟨finding, t, hfirst, h⟩ := Run.returns_bind.1 h
    obtain ⟨more, t', hmore, h⟩ := Run.returns_bind.1 h
    obtain ⟨rfl, rfl⟩ := Run.returns_pure.1 h
    obtain ⟨hrest, hbetween⟩ := ih hmore
    obtain ⟨hfinding, hwas⟩ := eq_of_returns_task hfirst hbetween
    rw [hfinding, hrest]
    exact ⟨rfl, hwas⟩

/-- Files that are scored by a pool have their findings. -/
theorem ensures_withPool (s : Scorer) (snapshot : Snapshot) :
    Run.Ensures (fun _ => True) (s.withPool snapshot) fun scores => scores = s.findings snapshot := by
  intro st scores st' _ h
  unfold withPool at h
  split at h
  · exact (Run.returns_fail.1 h).elim
  · obtain ⟨results, t, hresults, h⟩ := Run.returns_bind.1 h
    obtain ⟨_, t', hcheckpoint, h⟩ := Run.returns_bind.1 h
    obtain ⟨hgoes, rfl⟩ := Run.returns_checkpoint.1 hcheckpoint
    obtain ⟨rfl, -⟩ := Run.returns_pure.1 h
    exact ⟨(eq_of_returns_runTasks hresults hgoes).1, trivial⟩

/-- The scores of files are their findings, whichever way they are scored. -/
theorem ensures_scoreAll (s : Scorer) (snapshot : Snapshot) (parallel : Bool) :
    Run.Ensures (fun _ => True) (s.scoreAll snapshot parallel) fun scores =>
      scores.Perm (s.findings snapshot) := by
  have hend : Run.Ensures (fun _ => True) (do
      let state : Scoring ← Run.state
      Run.log .info (tallyText state.tally)
      return byUid (s.findings snapshot)) fun scores => scores.Perm (s.findings snapshot) :=
    Run.ensures_state.bind fun _ _ => (Run.ensures_log (fun _ _ _ => trivial) _ _).bind fun _ _ =>
      Run.ensures_pure (List.mergeSort_perm _ _)
  unfold scoreAll
  dsimp only
  split
  · apply (s.ensures_inTurn snapshot).bind
    intro results hresults
    rw [hresults]
    exact hend
  · apply (s.ensures_withPool snapshot).bind
    intro results hresults
    rw [hresults]
    exact hend

/-! ## Scores -/

/-- The worse one of two findings is one of them. -/
theorem isAdmissible_worse {f g : Finding} (hf : isAdmissible f = true) (hg : isAdmissible g = true) :
    isAdmissible (worse f g) = true := by
  unfold worse
  split
  · exact hg
  · exact hf

/-- The finding that stands for a file counts. -/
theorem isAdmissible_of_representative? {findings : List Finding} {f : Finding}
    (h : representative? findings = some f) : isAdmissible f = true := by
  have hall : ∀ (rest : List Finding) (g : Finding), isAdmissible g = true →
      (∀ e ∈ rest, isAdmissible e = true) → isAdmissible (rest.foldl worse g) = true := by
    intro rest
    induction rest with
    | nil => exact fun g hg _ => hg
    | cons e rest ih =>
      intro g hg hrest
      exact ih _ (isAdmissible_worse hg (hrest e List.mem_cons_self))
        fun e' he' => hrest e' (List.mem_cons_of_mem _ he')
  have hfilter : ∀ e ∈ findings.filter isAdmissible, isAdmissible e = true := fun _ he =>
    (List.mem_filter.1 he).2
  unfold representative? at h
  split at h
  · cases h
  · next g rest heq =>
    rw [heq] at hfilter
    injection h with h
    rw [← h]
    exact hall rest g (hfilter g List.mem_cons_self) fun e he => hfilter e (List.mem_cons_of_mem _ he)

/-- A score that is at least zero is not below it. -/
theorem lt_zero_of_isAdmissible {f : Finding} (h : isAdmissible f = true) : f.score.lt .zero = false := by
  have hnumber : f.score.isNaN = false := by
    cases hscore : f.score with
    | nan => simp [isAdmissible, Binary64.le, Binary64.lt, Binary64.eq, Binary64.zero, hscore] at h
    | infinite s => rfl
    | finite s u => rfl
  have hzero : Binary64.zero.isNaN = false := rfl
  rw [← Bool.not_eq_true, DenseRank.real_lt_iff hnumber hzero, not_lt]
  exact (DenseRank.real_le_iff hzero hnumber).1 h

/-- The score of the finding of a file is not below zero. -/
theorem lt_zero_of_finding? {path : String} {content : Bytes} {f : Finding}
    (h : s.finding? path content = some f) : f.score.lt .zero = false := by
  unfold finding? examine at h
  split at h
  · cases h
  · split at h
    · cases h
    · unfold analyzed at h
      split at h
      · split at h
        · cases h
        · next g hg =>
          injection h with h
          rw [← h]
          exact lt_zero_of_isAdmissible (isAdmissible_of_representative? hg)
      · split at h <;> cases h

end Hotspots.Scorer
