import Hotspots.Config.Settings
import Mathlib.Data.List.Basic

/-!
# The checks of settings

Settings are checked one check after the other. A check fails in one of two ways: a value does not compare with the
bound, or it does and is refused. `validate` is the list of these checks (`validate_eq`), so that settings are accepted
exactly if every check passes, and refused by the first one that does not.
-/

namespace Hotspots.Settings

/-- A check: a test that must not hold, and what is said of the setting if it does. -/
structure Check where
  test : Except Fault Bool
  key : String
  value : Value
  reason : String

namespace Check

/-- The outcome of a check. -/
def run (stack : Stack) (c : Check) : Except Failure Unit := reject c.test (invalid stack c.key c.value c.reason)

/-- Runs checks up to the first one that fails. -/
def runAll (stack : Stack) : List Check → Except Failure Unit
  | [] => .ok ()
  | c :: rest => do
    c.run stack
    runAll stack rest

variable {stack : Stack} {c : Check} {cs : List Check} {e : Failure}

/-- A check passes if its test does not hold. -/
theorem run_eq_ok_iff : c.run stack = .ok () ↔ c.test = .ok false := by
  unfold run reject
  split <;> simp_all

/-- Checks pass if every one of them does. -/
theorem runAll_eq_ok_iff : runAll stack cs = .ok () ↔ ∀ c ∈ cs, c.test = .ok false := by
  induction cs with
  | nil => simp [runAll]
  | cons c rest ih =>
    rw [List.forall_mem_cons, ← ih, ← run_eq_ok_iff, runAll]
    cases hrun : c.run stack with
    | error e => simp [bind, Except.bind]
    | ok u => simp [bind, Except.bind]

/-- Checks fail with the first one that fails. -/
theorem runAll_eq_error_iff : runAll stack cs = .error e ↔
    ∃ before c after, cs = before ++ c :: after ∧ (∀ b ∈ before, b.test = .ok false) ∧ c.run stack = .error e := by
  induction cs with
  | nil => simp [runAll]
  | cons c rest ih =>
    rw [runAll]
    cases hrun : c.run stack with
    | error e' =>
      constructor
      · intro h
        exact ⟨[], c, rest, rfl, List.forall_mem_nil _, hrun.trans h⟩
      · rintro ⟨before, c', after, hcs, hpass, hfail⟩
        cases before with
        | nil =>
          obtain ⟨rfl, -⟩ := List.cons.inj hcs
          exact hrun.symm.trans hfail
        | cons b before =>
          obtain ⟨rfl, -⟩ := List.cons.inj hcs
          rw [run_eq_ok_iff.2 (hpass c List.mem_cons_self)] at hrun
          cases hrun
    | ok u =>
      have hpassed : c.test = .ok false := run_eq_ok_iff.1 hrun
      refine ih.trans ⟨?_, ?_⟩
      · rintro ⟨before, c', after, rfl, hpass, hfail⟩
        exact ⟨c :: before, c', after, rfl, List.forall_mem_cons.2 ⟨hpassed, hpass⟩, hfail⟩
      · rintro ⟨before, c', after, hcs, hpass, hfail⟩
        cases before with
        | nil =>
          obtain ⟨rfl, -⟩ := List.cons.inj hcs
          rw [hrun] at hfail
          cases hfail
        | cons b before =>
          obtain ⟨rfl, rfl⟩ := List.cons.inj hcs
          exact ⟨before, c', after, rfl, fun b hb => hpass b (List.mem_cons_of_mem _ hb), hfail⟩

end Check

/-- The checks of settings, in order. -/
def checks (s : Settings) : List Check := [
  ⟨match s .workers with
    | .null => .ok false
    | v => v.lt one, "workers", s .workers, "must be at least 1"⟩,
  ⟨(s .gitTimeoutSeconds).lt one, "git_timeout_seconds", s .gitTimeoutSeconds, "must be at least 1"⟩,
  ⟨(s .gitMaxCommits).lt zero, "git_max_commits", s .gitMaxCommits, "must be non-negative"⟩,
  ⟨outsideUnit (s .renameThreshold), "rename_threshold", s .renameThreshold, "must be in (0.0, 1.0]"⟩,
  ⟨(s .renameLimit).lt zero, "rename_limit", s .renameLimit, "must be non-negative"⟩,
  ⟨(s .maxFileSizeMb).le zero, "max_file_size_mb", s .maxFileSizeMb, "must be positive"⟩,
  ⟨either ((s .changeWeight).lt zero) ((s .disharmonyWeight).lt zero), "change_weight/disharmony_weight",
    .tuple [s .changeWeight, s .disharmonyWeight], "must be non-negative"⟩,
  ⟨.ok ((s .changeWeight).isZero && (s .disharmonyWeight).isZero), "change_weight/disharmony_weight",
    .tuple [zero, zero], "at least one weight must be positive"⟩,
  ⟨either ((s .godClassWmcThreshold).lt one) ((s .godClassAtfdThreshold).lt zero), "god_class thresholds",
    .tuple [s .godClassWmcThreshold, s .godClassAtfdThreshold], "WMC must be at least 1 and ATFD non-negative"⟩,
  ⟨outsideUnit (s .godClassTccThreshold), "god_class_tcc_threshold", s .godClassTccThreshold,
    "must be in (0.0, 1.0]"⟩]

/-- Settings are checked by running their checks. -/
theorem validate_eq (s : Settings) (stack : Stack) : validate s stack = Check.runAll stack (checks s) := by
  have hlast : ∀ r : Except Failure Unit, (do r; .ok ()) = r := by
    intro r
    cases r <;> rfl
  simp only [checks, Check.runAll, Check.run, hlast]
  rfl

/-! ## Values of a wrong kind -/

section

variable {v w : Value} {f : Fault}

/-- Values fail to compare only if one of them is of a wrong kind. -/
theorem isKindFault_of_compareBy {operator : String} {holds : Number → Number → Bool}
    (h : Value.compareBy operator holds v w = .error f) : f.isKindFault = true := by
  unfold Value.compareBy at h
  split at h
  · cases h
  · cases h
    rfl

/-- A value has no place among the ratios only if it is of a wrong kind. -/
theorem isKindFault_of_outsideUnit (h : outsideUnit v = .error f) : f.isKindFault = true := by
  unfold outsideUnit at h
  cases hlow : Value.lt (.float .zero) v with
  | error low =>
    rw [hlow] at h
    cases h
    exact isKindFault_of_compareBy hlow
  | ok above =>
    rw [hlow] at h
    cases above with
    | false => cases h
    | true =>
      cases hhigh : v.le (.float (.ofInt 1)) with
      | error high =>
        rw [hhigh] at h
        cases h
        exact isKindFault_of_compareBy hhigh
      | ok within =>
        rw [hhigh] at h
        cases h

/-- Of two tests one fails. -/
theorem either_eq_error {first second : Except Fault Bool} (h : either first second = .error f) :
    first = .error f ∨ second = .error f := by
  unfold either at h
  split at h
  · exact .inr h
  · exact .inl h

end

/-- A check of settings cannot be made only if a value is of a wrong kind. -/
theorem isKindFault_of_mem_checks {s : Settings} {c : Check} {f : Fault} (hc : c ∈ checks s)
    (h : c.test = .error f) : f.isKindFault = true := by
  have either_of : ∀ {v w a b : Value}, either (v.lt a) (w.lt b) = .error f → f.isKindFault = true := by
    intro v w a b heither
    exact (either_eq_error heither).elim isKindFault_of_compareBy isKindFault_of_compareBy
  simp only [checks, List.mem_cons, List.not_mem_nil, or_false] at hc
  rcases hc with rfl | rfl | rfl | rfl | rfl | rfl | rfl | rfl | rfl | rfl
  · dsimp only at h
    split at h
    · cases h
    · exact isKindFault_of_compareBy h
  · exact isKindFault_of_compareBy h
  · exact isKindFault_of_compareBy h
  · exact isKindFault_of_outsideUnit h
  · exact isKindFault_of_compareBy h
  · exact isKindFault_of_compareBy h
  · exact either_of h
  · cases h
  · exact either_of h
  · exact isKindFault_of_outsideUnit h

end Hotspots.Settings
