import Hotspots.Proofs.Config.Domain
import Hotspots.Proofs.Triage.CleanFailures

/-!
# Which accepted settings a run can trip over

Settings with values of the right shapes that pass their checks give an analysis that can be run: the rule for god
classes can divide by its thresholds, the patterns are texts and the workers make a pool. Every failure of such an
analysis of a well-formed repository is one that this tool reports as its own, unless the system does not tell whether
there is a repository or does not pass the revision on to a command, or the run comes to one of four places that the
checks do not see to: the time that commands may take is longer than the system waits, the limit on the number of
commits has too many digits, the largest size of a file is no number of bytes, or a weight does not fit in a machine
word (`Triage.fails_as_triage_iff`).
-/

namespace Hotspots

variable {f : ObjectFormat} {s : Settings}

open Failure (IsTriage)

/-! ## What the bounds are good for -/

/-- A ratio has units. -/
theorem Settings.IsRatio.exists_units {v : Value} (h : IsRatio v) :
    ∃ u, 0 < u ∧ (Triage.numberOf v).HasUnits u := by
  obtain ⟨x, hx, hpos, hle⟩ := h
  obtain ⟨n, hn, hrational⟩ := exists_number_of_admits (admits_of_rational? hx)
  rw [Triage.numberOf, hn, Option.getD_some]
  exact Number.exists_units_of_rational (hrational.symm.trans hx) hpos hle

namespace Settings.InBounds

/-- The rule for god classes can divide by its thresholds. -/
theorem hasDivisors (h : s.InBounds) : (Triage.godClassOf s).HasDivisors := by
  obtain ⟨w, hw, hpos⟩ := h.godClassWmcThreshold
  obtain ⟨a, ha, -⟩ := h.godClassAtfdThreshold
  obtain ⟨u, hu, hunits⟩ := h.godClassTccThreshold.exists_units
  exact {
    wmc := ⟨w, by rw [Triage.godClassOf, hw]; rfl, by omega⟩
    atfd := ⟨a, by rw [Triage.godClassOf, ha]; rfl⟩
    tcc := ⟨_, hunits.toReal, Binary64.isZero_of_pos false hu⟩ }

/-- The workers make a pool. -/
theorem makesPool (h : s.InBounds) : Scorer.makesPool (s .workers) = true := by
  rcases h.workers with hnone | ⟨i, hi, hpos⟩
  · rw [hnone]
    rfl
  · rw [hi]
    have hle : (Number.whole i).le (.whole 0) = false := by
      refine Bool.eq_false_iff.2 fun hle => ?_
      have hneg := Int.cast_le.1 ((Number.le_iff_of_rational rfl rfl).1 hle)
      omega
    simp [Scorer.makesPool, Value.number?, hle]

/-- The analysis can be run. -/
theorem isRunnable (h : s.InBounds) (parse : Source.Parser) : (Triage.ofSettings s parse).IsRunnable where
  patterns := h.excludePatterns
  answers _ := rfl
  not_interrupted := { Triage.godClassOf s with parse := parse }.analyze_ne_interrupted
  makesPool := h.makesPool

/-- The system waits for a command unless this may take more than 2147483 seconds. -/
theorem waitFault?_eq_none_iff (h : s.InBounds) :
    Wait.fault? (s .gitTimeoutSeconds) = none ↔ ∀ i, s .gitTimeoutSeconds = .int i → i ≤ 2147483 := by
  obtain ⟨seconds, hseconds, hpos⟩ := h.gitTimeoutSeconds
  have hlongest : 1000 * seconds ≤ Wait.longest ↔ seconds ≤ 2147483 := by
    rw [Wait.longest]
    omega
  have hfinite : seconds ≤ 2147483 → (Binary64.ofInt seconds).isFinite = true := fun hle =>
    Binary64.isFinite_ofInt (k := 31) (by decide) (by omega)
  have hwaits : Wait.fault? (.int seconds) = none ↔ seconds ≤ 2147483 := by
    change (if (Binary64.ofInt seconds).isFinite then
      if 1000 * seconds ≤ Wait.longest then none else some (Wait.refusal (.ofInt seconds))
      else some Fault.wholeTooLarge) = none ↔ _
    by_cases hle : seconds ≤ 2147483
    · simp [hfinite hle, hlongest, hle]
    · rw [if_neg (hlongest.not.2 hle)]
      exact iff_of_false (by split <;> nofun) hle
  rw [hseconds, hwaits]
  exact ⟨fun hle i hi => Value.int.inj hi ▸ hle, fun hle => hle seconds rfl⟩

/-- The limit on the number of commits is asked for unless it has too many digits. -/
theorem checkLimit_eq_ok_iff (h : s.InBounds) :
    Reader.checkLimit (s .gitMaxCommits) = .ok () ↔ (s .gitMaxCommits).isWritable = true := by
  obtain ⟨n, hn, hnonneg⟩ := h.gitMaxCommits
  rw [hn, Reader.checkLimit]
  cases hwritable : (Value.int n).isWritable with
  | true => simp
  | false =>
    have hpos : 0 < n := by
      by_contra hzero
      obtain rfl : n = 0 := by omega
      revert hwritable
      decide
    simp [Reader.isLimit, Value.number?, hpos]

/-- A whole weight from zero on is used unless it does not fit in a machine word. -/
theorem checkWeight_eq_ok_iff {v : Value} (h : IsWholeFrom 0 v) :
    Worklist.checkWeight (Triage.numberOf v) = .ok () ↔ ∀ i, v = .int i → i < 2 ^ 63 := by
  obtain ⟨w, rfl, hw⟩ := h
  have hword : DenseRank.isWord w = true ↔ w < 2 ^ 63 := by
    simp [DenseRank.isWord]
    omega
  have hcheck : Worklist.checkWeight (.whole w) = .ok () ↔ DenseRank.isWord w = true := by simp [Worklist.checkWeight]
  rw [show Triage.numberOf (.int w) = .whole w from rfl, hcheck, hword]
  exact ⟨fun h i hi => Value.int.inj hi ▸ h, fun h => h w rfl⟩

/-- Weights are used unless they do not fit in machine words. -/
theorem checkWeights_eq_ok_iff (h : s.InBounds) :
    Worklist.checkWeight (Triage.weights s).change = .ok () ∧
      Worklist.checkWeight (Triage.weights s).disharmony = .ok () ↔
    ∀ g ∈ [Field.changeWeight, Field.disharmonyWeight], ∀ i, s g = .int i → i < 2 ^ 63 := by
  rw [List.forall_mem_cons, List.forall_mem_singleton]
  exact and_congr (checkWeight_eq_ok_iff h.changeWeight) (checkWeight_eq_ok_iff h.disharmonyWeight)

end Settings.InBounds

namespace Triage

/-- With accepted settings of the right shapes, the rule for god classes comes to a finding or to none, and an analysis
of a well-formed repository fails only in ways that this tool reports as its own, exactly if the system tells whether
the repository is there, waits for its commands as long as they may take and passes the revision on to them, the limit
on the number of commits can be written where it is asked for, the largest size of a file is a number of bytes where
files are scored, and the weights fit in machine words where candidates are ranked. -/
theorem fails_as_triage_iff (hshape : ∀ g : Field, g.shape.admits (s g) = true) (hvalid : s.validate = .ok ())
    {repository : Repository} (h : repository.IsWellFormed f) (parse : Source.Parser) (path revision : String)
    (c : Conversation) :
    (∀ m : ClassMetrics, m.wmc.natAbs < 2 ^ 1023 → m.atfd.natAbs < 2 ^ 1023 →
      ∃ finding?, (godClassOf s).evaluate m = .ok finding?) ∧
    ((∀ e, (Run.exec ((ofSettings s parse).calculate repository path revision) c).1 = .error e → IsTriage e) ↔
      repository.refuses? path = none ∧
      ((repository.locate path).isSome = true → ∀ i, s .gitTimeoutSeconds = .int i → i ≤ 2147483) ∧
      (repository.HasCommits path → repository.Starts (.verify revision)) ∧
      (repository.Knows path revision → (s .gitMaxCommits).isWritable = true) ∧
      (∀ churn snapshot c', ((ofSettings s parse).read repository path revision).Returns c (some (churn, snapshot)) c' →
        ∃ size, s.maxFileSizeBytes = .ok size) ∧
      (∀ churn scores c', ((ofSettings s parse).found repository path revision).Returns c (some (churn, scores)) c' →
        candidatesOf churn scores ≠ [] →
          ∀ g ∈ [Field.changeWeight, Field.disharmonyWeight], ∀ i, s g = .int i → i < 2 ^ 63)) := by
  have hbounds := Settings.inBounds_of_validate hvalid hshape
  refine ⟨fun m hwmc hatfd => hbounds.hasDivisors.exists_evaluate (Nat.le_refl _) hwmc hatfd, ?_⟩
  have hfails :
      (∀ e, (Run.exec ((ofSettings s parse).calculate repository path revision) c).1 = .error e → IsTriage e) ↔
        ¬Run.FailsBeyond IsTriage ((ofSettings s parse).calculate repository path revision) c := by
    simp only [Run.FailsBeyond, not_exists, not_and, not_not]
  have hwait : repository.waitFault? (s .gitTimeoutSeconds) = none ↔
      ∀ i, s .gitTimeoutSeconds = .int i → i ≤ 2147483 := by
    rw [h.waits]
    exact hbounds.waitFault?_eq_none_iff
  rw [hfails, (hbounds.isRunnable parse).failsBeyond_calculate_iff h]
  change ¬(_ ∨ _ ∧ repository.waitFault? (s .gitTimeoutSeconds) ≠ none ∨ _ ∨
    _ ∧ Reader.checkLimit (s .gitMaxCommits) ≠ .ok () ∨ _ ∧ (¬∃ size, s.maxFileSizeBytes = .ok size) ∨
    ∃ churn scores c', _ ∧ _ ∧ ¬(Worklist.checkWeight (weights s).change = .ok () ∧
      Worklist.checkWeight (weights s).disharmony = .ok ())) ↔ _
  rw [hbounds.checkWeights_eq_ok_iff, Ne, Ne, Ne, hbounds.checkLimit_eq_ok_iff, hwait]
  simp only [not_or, not_and, not_not, not_exists, not_forall, forall_exists_index]

/-- An analysis of one file with the defaults fails only in ways that this tool reports as its own. -/
theorem fails_as_triage_of_defaults :
    let path : RawPath := ⟨[0x61], by decide, by decide⟩
    let id : ObjectId .sha1 := .repeated .sha1 'd' (by decide) (by decide)
    let log : List (LoggedCommit .sha1) := [
      { sha := id, parents := [], time := 0, length_le := by decide, emptyLines := 1,
        differences := [⟨path, none, some (.file false id), nofun⟩] }]
    let repository : Repository := .ofLog id log [(path, .file false id)] fun _ => some (.blob, [])
    (∀ g : Field, g.shape.admits (Settings.default g) = true) ∧ Settings.default.validate = .ok () ∧
      repository.IsWellFormed .sha1 ∧
      ∀ e, (Run.exec ((ofSettings .default).calculate repository "/" "HEAD") {}).1 = .error e → IsTriage e := by
  intro path id log repository
  obtain ⟨⟨⟩, hvalid⟩ : ∃ u, Settings.default.validate = .ok u := exists_eq_ok_of_isOk (by decide +kernel)
  have hsize : ∃ size, Settings.default.maxFileSizeBytes = .ok size := exists_eq_ok_of_isOk (by decide +kernel)
  have hwellFormed : repository.IsWellFormed .sha1 :=
    Repository.isWellFormed_ofLog (by decide +kernel) (by decide +kernel) fun _ => ⟨[], rfl, by decide⟩
  refine ⟨Field.admits_default, hvalid, hwellFormed, ?_⟩
  refine (fails_as_triage_iff Field.admits_default hvalid hwellFormed Source.parser "/" "HEAD" {}).2.2
    ⟨rfl, ?_, fun _ => nofun, ?_, ?_, ?_⟩
  · intro _ i hi
    obtain rfl := Value.int.inj hi
    decide
  · exact fun _ => by decide +kernel
  · exact fun _ _ _ _ => hsize
  · intro churn scores c' _ _ g hg i hi
    rcases List.mem_pair.1 hg with rfl | rfl
    · obtain rfl := Value.int.inj hi
      decide
    · obtain rfl := Value.int.inj hi
      decide

/-- A largest size of a file that is not a number is accepted, and the analysis of one empty commit fails with a fault
where it cuts the size to bytes. -/
theorem not_fails_as_triage_of_nan_size :
    let s : Settings := Function.update Settings.default .maxFileSizeMb (.float .nan)
    let id : ObjectId .sha1 := .repeated .sha1 'd' (by decide) (by decide)
    let log : List (LoggedCommit .sha1) := [
      { sha := id, parents := [], time := 0, length_le := by decide, emptyLines := 0, differences := [] }]
    let repository : Repository := .ofLog id log [] fun _ => some (.blob, [])
    (∀ g : Field, g.shape.admits (s g) = true) ∧ s.validate = .ok () ∧ repository.IsWellFormed .sha1 ∧
      ¬∀ e, (Run.exec ((ofSettings s).calculate repository "/" "HEAD") {}).1 = .error e → IsTriage e := by
  intro s id log repository
  obtain ⟨⟨⟩, hvalid⟩ : ∃ u, s.validate = .ok u := exists_eq_ok_of_isOk (by decide +kernel)
  have hfails : Run.FailsBeyond IsTriage ((ofSettings s).calculate repository "/" "HEAD") {} := by decide +kernel
  refine ⟨fun g => by cases g <;> rfl, hvalid, ?_, fun h => ?_⟩
  · exact Repository.isWellFormed_ofLog (by decide +kernel) (by decide +kernel) fun _ => ⟨[], rfl, by decide⟩
  · obtain ⟨e, hend, hbeyond⟩ := hfails
    exact hbeyond (h e hend)

end Triage

end Hotspots
