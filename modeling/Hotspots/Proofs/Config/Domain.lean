import Hotspots.Proofs.Config.Checks
import Hotspots.Proofs.Config.Merging
import Hotspots.Proofs.Number.Rational

/-!
# What loaded settings hold

Every setting has a domain: the values of its shape that are within its bounds (`Settings.InDomain`). The checks look
at the bounds and leave it to the sources that values have their shapes, and only the environment sees to that. So
settings that are loaded are in their domains exactly if the values that were taken over from a file or an option have
their shapes and the largest size of a file is finite (`Sources.inDomain_iff`).
-/

namespace Hotspots

/-! ## Domains -/

/-- Whether a value is a text. -/
def Value.isText : Value → Bool
  | .text _ => true
  | _ => false

/-- The rational number that a value is, if it is a finite number and no truth value. -/
def Value.rational? : Value → Option ℚ
  | .int i => some i
  | .float x => Number.rational? (.real x)
  | _ => none

/-- Whether a value is of a shape. -/
def Field.Shape.admits : Field.Shape → Value → Bool
  | .optionalWhole, .null => true
  | .optionalWhole, .int _ => true
  | .whole, .int _ => true
  | .real, .int _ => true
  | .real, .float _ => true
  | .texts, .list items => items.all Value.isText
  | .choice names, .text name => names.contains name
  | _, _ => false

namespace Settings

/-- A whole number from a bound on. -/
def IsWholeFrom (low : Int) (v : Value) : Prop := ∃ i, v = .int i ∧ low ≤ i

/-- A number above zero and up to one. -/
def IsRatio (v : Value) : Prop := ∃ x, v.rational? = some x ∧ 0 < x ∧ x ≤ 1

/-- Settings within their bounds, the largest size of a file left aside. -/
structure InBounds (s : Settings) : Prop where
  workers : s .workers = .null ∨ IsWholeFrom 1 (s .workers)
  gitTimeoutSeconds : IsWholeFrom 1 (s .gitTimeoutSeconds)
  gitMaxCommits : IsWholeFrom 0 (s .gitMaxCommits)
  renameThreshold : IsRatio (s .renameThreshold)
  renameLimit : IsWholeFrom 0 (s .renameLimit)
  excludePatterns : ∃ patterns : List String, s .excludePatterns = .list (patterns.map .text)
  changeWeight : IsWholeFrom 0 (s .changeWeight)
  disharmonyWeight : IsWholeFrom 0 (s .disharmonyWeight)
  weights : ¬(s .changeWeight = .int 0 ∧ s .disharmonyWeight = .int 0)
  godClassWmcThreshold : IsWholeFrom 1 (s .godClassWmcThreshold)
  godClassAtfdThreshold : IsWholeFrom 0 (s .godClassAtfdThreshold)
  godClassTccThreshold : IsRatio (s .godClassTccThreshold)
  verbosity : ∃ name ∈ ["quiet", "normal", "verbose"], s .verbosity = .text name

/-- Settings with the values that they are documented to have. -/
structure InDomain (s : Settings) : Prop extends InBounds s where
  maxFileSizeMb : ∃ x, (s .maxFileSizeMb).rational? = some x ∧ 0 < x

end Settings

/-! ## Shapes -/

namespace Field.Shape

variable {v : Value} {names : List String}

/-- Values that may be left out are whole numbers otherwise. -/
theorem admits_optionalWhole : optionalWhole.admits v = true ↔ v = .null ∨ ∃ i, v = .int i := by
  cases v <;> simp [admits]

/-- Whole values are integers. -/
theorem admits_whole : whole.admits v = true ↔ ∃ i, v = .int i := by
  cases v <;> simp [admits]

/-- Real values are numbers. -/
theorem admits_real : real.admits v = true ↔ (∃ i, v = .int i) ∨ ∃ x, v = .float x := by
  cases v <;> simp [admits]

/-- Words are those that there are to choose from. -/
theorem admits_choice : (choice names).admits v = true ↔ ∃ name ∈ names, v = .text name := by
  cases v <;> simp [admits]

/-- Values that are all texts are a list of texts. -/
theorem forall_isText_iff {items : List Value} :
    (∀ item ∈ items, item.isText = true) ↔ ∃ ss : List String, items = ss.map .text := by
  induction items with
  | nil => exact iff_of_true nofun ⟨[], rfl⟩
  | cons item rest ih =>
    rw [List.forall_mem_cons, ih]
    constructor
    · rintro ⟨hitem, ss, rfl⟩
      cases item with
      | text s => exact ⟨s :: ss, rfl⟩
      | _ => cases hitem
    · rintro ⟨_ | ⟨s, ss⟩, h⟩
      · cases h
      · obtain ⟨rfl, rfl⟩ := List.cons.inj h
        exact ⟨rfl, ss, rfl⟩

/-- Texts come in lists. -/
theorem admits_texts : texts.admits v = true ↔ ∃ ss : List String, v = .list (ss.map .text) := by
  cases v <;> simp [admits, forall_isText_iff]

/-- What is read from a text has the shape that it was read for. -/
theorem admits_of_ofShape {shape : Field.Shape} {s : String} (h : Sources.ofShape shape s = .ok v) :
    shape.admits v = true := by
  have whole_of : ∀ {r : Except Fault Int}, r.map Value.int = .ok v → ∃ i, v = .int i := by
    intro r hr
    cases r with
    | error f => cases hr
    | ok i =>
      cases hr
      exact ⟨i, rfl⟩
  cases shape with
  | optionalWhole =>
    rw [Sources.ofShape] at h
    split at h
    · cases h
      rfl
    · exact admits_optionalWhole.2 (.inr (whole_of h))
  | whole => exact admits_whole.2 (whole_of h)
  | real =>
    rw [Sources.ofShape] at h
    cases hread : Reading.realOfText s with
    | error f =>
      rw [hread] at h
      cases h
    | ok x =>
      rw [hread] at h
      cases h
      rfl
  | texts =>
    cases h
    exact admits_texts.2 ⟨_, rfl⟩
  | choice names =>
    rw [Sources.ofShape] at h
    split at h
    · next hname =>
      cases h
      exact hname
    · cases h

end Field.Shape

/-- Every default has its shape. -/
theorem Field.admits_default (f : Field) : f.shape.admits f.default = true := by
  cases f <;> rfl

/-! ## Bounds -/

namespace Settings

variable {s : Settings} {stack : Stack} {v w : Value}

/-- An integer that is not below a bound is a whole number from it on. -/
theorem isWholeFrom_of_lt {low : Int} (hv : Field.Shape.whole.admits v = true) (h : v.lt (.int low) = .ok false) :
    IsWholeFrom low v := by
  obtain ⟨i, rfl⟩ := Field.Shape.admits_whole.1 hv
  refine ⟨i, rfl, ?_⟩
  simpa [Value.lt, Value.compareBy, Value.number?] using h

/-- A whole number has the shape of one. -/
theorem IsWholeFrom.admits {low : Int} (h : IsWholeFrom low v) : Field.Shape.whole.admits v = true :=
  let ⟨i, hv, _⟩ := h
  Field.Shape.admits_whole.2 ⟨i, hv⟩

/-- A finite number is of the shape of numbers. -/
theorem admits_of_rational? {x : ℚ} (h : v.rational? = some x) : Field.Shape.real.admits v = true := by
  cases v <;> first | rfl | cases h

/-- A number of the right shape is held as a number. -/
theorem exists_number_of_admits (hv : Field.Shape.real.admits v = true) :
    ∃ n, v.number? = some n ∧ v.rational? = n.rational? := by
  rcases Field.Shape.admits_real.1 hv with ⟨i, rfl⟩ | ⟨x, rfl⟩
  · exact ⟨.whole i, rfl, rfl⟩
  · exact ⟨.real x, rfl, rfl⟩

/-- What is not refused as a ratio is a number above zero and up to one. -/
theorem exists_rational_of_outsideUnit (h : outsideUnit v = .ok false) :
    ∃ n x, v.number? = some n ∧ n.rational? = some x ∧ 0 < x ∧ x ≤ 1 := by
  obtain ⟨n, hn, hlow, hhigh⟩ : ∃ n, v.number? = some n ∧ (Number.real .zero).lt n = true ∧
      n.le (.real (.ofInt 1)) = true := by
    unfold outsideUnit at h
    cases hv : v.number? with
    | none =>
      simp only [Value.lt, Value.compareBy, hv] at h
      cases h
    | some n =>
      simp only [Value.lt, Value.le, Value.compareBy, hv] at h
      dsimp only [Value.number?] at h
      refine ⟨n, rfl, ?_⟩
      cases hlow : (Number.real .zero).lt n with
      | false =>
        rw [hlow] at h
        cases h
      | true =>
        rw [hlow] at h
        cases hhigh : n.le (.real (.ofInt 1)) with
        | false =>
          rw [hhigh] at h
          cases h
        | true => exact ⟨rfl, rfl⟩
  have hone := Number.rational?_ofInt (i := 1) (by decide) (by decide)
  obtain ⟨x, hx, hpos, hle⟩ := Number.exists_rational_of_between Number.rational?_zero hone hlow hhigh
  exact ⟨n, x, hn, hx, hpos, by simpa using hle⟩

/-- A number that is not refused as a ratio is one. -/
theorem isRatio_of_outsideUnit (hv : Field.Shape.real.admits v = true) (h : outsideUnit v = .ok false) : IsRatio v := by
  obtain ⟨n, hn, hrational⟩ := exists_number_of_admits hv
  obtain ⟨n', x, hn', hx, hpos, hle⟩ := exists_rational_of_outsideUnit h
  obtain rfl : n = n' := Option.some.inj (hn.symm.trans hn')
  exact ⟨x, hrational.trans hx, hpos, hle⟩

/-- A finite number that is not at most zero is positive. -/
theorem pos_of_le {x : ℚ} (hx : v.rational? = some x) (h : v.le zero = .ok false) : 0 < x := by
  obtain ⟨n, hn, hrational⟩ := exists_number_of_admits (admits_of_rational? hx)
  rw [Value.le, Value.compareBy, hn] at h
  have hle : n.le (.whole 0) = false := Except.ok.inj h
  by_contra hneg
  rw [(Number.le_iff_of_rational (hrational.symm.trans hx) (by rfl)).2 (by simpa using hneg)] at hle
  cases hle

/-- Values within their domains are of their shapes. -/
theorem InDomain.admits (h : s.InDomain) (f : Field) : f.shape.admits (s f) = true := by
  have of_ratio : ∀ {v}, IsRatio v → Field.Shape.real.admits v = true := fun ⟨_, hx, _⟩ => admits_of_rational? hx
  cases f with
  | workers => exact Field.Shape.admits_optionalWhole.2 (h.workers.imp_right fun ⟨i, hi, _⟩ => ⟨i, hi⟩)
  | gitTimeoutSeconds => exact h.gitTimeoutSeconds.admits
  | gitMaxCommits => exact h.gitMaxCommits.admits
  | renameThreshold => exact of_ratio h.renameThreshold
  | renameLimit => exact h.renameLimit.admits
  | excludePatterns => exact Field.Shape.admits_texts.2 h.excludePatterns
  | maxFileSizeMb => exact admits_of_rational? h.maxFileSizeMb.choose_spec.1
  | changeWeight => exact h.changeWeight.admits
  | disharmonyWeight => exact h.disharmonyWeight.admits
  | godClassWmcThreshold => exact h.godClassWmcThreshold.admits
  | godClassAtfdThreshold => exact h.godClassAtfdThreshold.admits
  | godClassTccThreshold => exact of_ratio h.godClassTccThreshold
  | verbosity => exact Field.Shape.admits_choice.2 h.verbosity

/-- Of two tests that are made in turn neither holds. -/
theorem either_eq_ok_false {first second : Except Fault Bool} (h : either first second = .ok false) :
    first = .ok false ∧ second = .ok false := by
  unfold either at h
  split at h
  · exact ⟨rfl, h⟩
  · next hfirst => exact absurd h hfirst

/-- Settings that pass their checks are within their bounds if their values are of their shapes. -/
theorem inBounds_of_validate (h : validate s stack = .ok ()) (hshape : ∀ f : Field, f.shape.admits (s f) = true) :
    s.InBounds := by
  rw [validate_eq, Check.runAll_eq_ok_iff] at h
  simp only [checks, List.forall_mem_cons] at h
  obtain ⟨hworkers, htimeout, hcommits, hrename, hlimit, -, hnegative, hzero, hclass, htcc, -⟩ := h
  exact {
    workers := by
      rcases Field.Shape.admits_optionalWhole.1 (hshape .workers) with hnone | ⟨i, hi⟩
      · exact .inl hnone
      · rw [hi] at hworkers ⊢
        exact .inr (isWholeFrom_of_lt rfl hworkers)
    gitTimeoutSeconds := isWholeFrom_of_lt (hshape .gitTimeoutSeconds) htimeout
    gitMaxCommits := isWholeFrom_of_lt (hshape .gitMaxCommits) hcommits
    renameThreshold := isRatio_of_outsideUnit (hshape .renameThreshold) hrename
    renameLimit := isWholeFrom_of_lt (hshape .renameLimit) hlimit
    excludePatterns := Field.Shape.admits_texts.1 (hshape .excludePatterns)
    changeWeight := isWholeFrom_of_lt (hshape .changeWeight) (either_eq_ok_false hnegative).1
    disharmonyWeight := isWholeFrom_of_lt (hshape .disharmonyWeight) (either_eq_ok_false hnegative).2
    weights := by
      rintro ⟨hchange, hdisharmony⟩
      rw [hchange, hdisharmony] at hzero
      cases hzero
    godClassWmcThreshold := isWholeFrom_of_lt (hshape .godClassWmcThreshold) (either_eq_ok_false hclass).1
    godClassAtfdThreshold := isWholeFrom_of_lt (hshape .godClassAtfdThreshold) (either_eq_ok_false hclass).2
    godClassTccThreshold := isRatio_of_outsideUnit (hshape .godClassTccThreshold) htcc
    verbosity := Field.Shape.admits_choice.1 (hshape .verbosity) }

/-- Settings that pass their checks are within their domains if their values are of their shapes and the largest size
of a file is finite. -/
theorem inDomain_iff_of_validate (h : validate s stack = .ok ()) : s.InDomain ↔
    (∀ f : Field, f.shape.admits (s f) = true) ∧ (s .maxFileSizeMb).rational?.isSome = true := by
  constructor
  · intro hdomain
    refine ⟨hdomain.admits, ?_⟩
    obtain ⟨x, hx, -⟩ := hdomain.maxFileSizeMb
    rw [hx]
    rfl
  · rintro ⟨hshape, hfinite⟩
    obtain ⟨x, hx⟩ := Option.isSome_iff_exists.1 hfinite
    refine ⟨inBounds_of_validate h hshape, x, hx, ?_⟩
    rw [validate_eq, Check.runAll_eq_ok_iff] at h
    simp only [checks, List.forall_mem_cons] at h
    exact pos_of_le hx h.2.2.2.2.2.1

end Settings

/-! ## Sources -/

namespace Sources

variable {s : Sources} {stack : Stack} {f : Field} {v : Value}

/-- The environment gives every setting a value of its shape. -/
theorem admits_of_mem_ofEnvironment {environment : List (String × String)} {fields : List Field}
    {entries : List (String × Value)} (h : ofEnvironment environment fields = .ok entries)
    (hmem : (f.name, v) ∈ entries) : f.shape.admits v = true := by
  induction fields generalizing entries with
  | nil =>
    cases h
    cases hmem
  | cons g rest ih =>
    rw [ofEnvironment] at h
    split at h
    · exact ih h hmem
    · next raw hraw =>
      split at h
      · cases h
      · next w hw =>
        cases hrest : ofEnvironment environment rest with
        | error e =>
          rw [hrest] at h
          cases h
        | ok later =>
          rw [hrest] at h
          cases h
          rcases List.mem_cons.1 hmem with heq | hlater
          · obtain ⟨hname, rfl⟩ := Prod.mk.inj heq
            rw [Field.name_injective hname]
            exact Field.Shape.admits_of_ofShape hw
          · exact ih hrest hlater

/-- A setting that takes a value over as it is: from an option, or from a file if neither an option nor the
environment sets it. -/
inductive TakesOver (s : Sources) (f : Field) (v : Value) (stack : Stack := {}) : Prop
  | option (h : f.lastIn (ofOptions s.options) = some v)
  | file (p : Parts s stack) (hoptions : f.lastIn (ofOptions s.options) = none)
    (henvironment : f.lastIn p.environment = none)
    (h : (f.lastIn p.asked.values).or ((f.lastIn p.project.values).or (f.lastIn p.user.values)) = some v)

/-- Sources are read in one way. -/
theorem Parts.eq (p q : Parts s stack) : p = q := by
  obtain ⟨user, project, asked, environment, huser, hproject, hasked, henvironment⟩ := p
  obtain ⟨user', project', asked', environment', huser', hproject', hasked', henvironment'⟩ := q
  cases huser.symm.trans huser'
  cases hproject.symm.trans hproject'
  cases hasked.symm.trans hasked'
  cases henvironment.symm.trans henvironment'
  rfl

/-- A value that is taken over is the value of the setting. -/
theorem TakesOver.value? (h : s.TakesOver f v stack) (p : Parts s stack) : p.value? f = some v := by
  cases h with
  | option h => rw [Parts.value?, h, Option.some_or]
  | file q hoptions henvironment h =>
    cases q.eq p
    rw [Parts.value?, hoptions, henvironment, Option.none_or, Option.none_or, h]

/-- Settings that are loaded are within their domains exactly if every value that is taken over is of the shape of its
setting and the largest size of a file is finite. -/
theorem inDomain_iff {settings : Settings} (h : s.load stack = .ok settings) : settings.InDomain ↔
    (∀ f v, s.TakesOver f v stack → f.shape.admits v = true) ∧ (settings .maxFileSizeMb).rational?.isSome = true := by
  obtain ⟨p, rfl, hvalid⟩ := exists_parts_of_load h
  rw [Settings.inDomain_iff_of_validate hvalid]
  -- A value is taken over as it is, was read for its shape from a variable, or is the default.
  refine and_congr_left fun _ => ⟨fun hshape f v htakes => ?_, fun htakes f => ?_⟩
  · have hvalue := hshape f
    rwa [p.merged_values, htakes.value? p] at hvalue
  · rw [p.merged_values, Parts.value?]
    cases hoptions : f.lastIn (ofOptions s.options) with
    | some v => exact htakes f v (.option hoptions)
    | none =>
      cases henvironment : f.lastIn p.environment with
      | some v => exact admits_of_mem_ofEnvironment p.ofVariables (Field.mem_of_lastIn henvironment)
      | none =>
        cases hfiles : (f.lastIn p.asked.values).or ((f.lastIn p.project.values).or (f.lastIn p.user.values)) with
        | some v => exact htakes f v (.file p hoptions henvironment hfiles)
        | none => exact f.admits_default

/-- A number of workers that an option gives is within its domain, and so are the defaults beside it. -/
theorem inDomain_of_workers :
    ∃ settings, Sources.load { options := [("workers", .int 4)] } = .ok settings ∧ settings.InDomain := by
  obtain ⟨settings, hload⟩ : ∃ settings, Sources.load { options := [("workers", .int 4)] } = .ok settings :=
    exists_eq_ok_of_isOk (by decide +kernel)
  have hoptions : ofOptions [("workers", .int 4)] = [("workers", .int 4)] := rfl
  obtain ⟨p, hsettings, -⟩ := exists_parts_of_load hload
  cases p.eq ⟨{}, {}, {}, [], rfl, rfl, rfl, rfl⟩
  refine ⟨settings, hload, (inDomain_iff hload).2 ⟨?_, ?_⟩⟩
  · intro f v htakes
    cases htakes with
    | option h =>
      have hmem := Field.mem_of_lastIn h
      rw [hoptions, List.mem_singleton] at hmem
      obtain ⟨hname, rfl⟩ := Prod.mk.inj hmem
      rw [Field.name_injective (g := .workers) hname]
      rfl
    | file q _ _ h =>
      cases q.eq ⟨{}, {}, {}, [], rfl, rfl, rfl, rfl⟩
      cases h
  · have hsize : settings .maxFileSizeMb = .float (.ofInt 2) := by
      rw [hsettings, Parts.merged_values]
      rfl
    rw [hsize, Value.rational?, Number.rational?_ofInt (i := 2) (by decide) (by decide)]
    rfl

/-- A verbosity that there is none of is accepted from an option. -/
theorem not_inDomain_of_unknown_verbosity :
    ¬∀ settings, Sources.load { options := [("verbosity", .text "loud")] } = .ok settings → settings.InDomain := by
  intro h
  obtain ⟨settings, hload⟩ : ∃ settings, Sources.load { options := [("verbosity", .text "loud")] } = .ok settings :=
    exists_eq_ok_of_isOk (by decide +kernel)
  obtain ⟨p, rfl, -⟩ := exists_parts_of_load hload
  have htakes : TakesOver { options := [("verbosity", .text "loud")] } .verbosity (.text "loud") := .option rfl
  have hadmits := (h _ hload).admits .verbosity
  rw [p.merged_values, htakes.value? p] at hadmits
  revert hadmits
  decide

end Sources

end Hotspots
