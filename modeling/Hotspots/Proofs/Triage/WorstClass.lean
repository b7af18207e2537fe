import Hotspots.Proofs.Config.Domain
import Hotspots.Proofs.Record.Sorted
import Hotspots.Proofs.Scan.AcceptedRule
import Hotspots.Proofs.Scan.Findings
import Hotspots.Proofs.Scan.TreeSize
import Hotspots.Triage
import Mathlib.Data.Prod.Lex
import Mathlib.Data.String.Basic

/-!
# The worst class of a file

The rule for god classes finds every class of a syntax tree that is out on its three thresholds, however deep it is
nested, and lists each of them once with the highest score first. The finding that stands for the file is chosen by
other means, the greatest of the scores that are not negative, but it is the first of the list all the same: under
accepted thresholds no score is negative, and both orders agree (`Triage.score_returns_worst_class`).
-/

namespace Hotspots

/-! ## The order of findings -/

/-- The score, the line and the subject of a finding, by which findings are ordered. -/
def Finding.sortKey (f : Finding) : Lex ((WithBot (WithTop Int))ᵒᵈ × Lex (Int × String)) :=
  toLex (OrderDual.toDual f.score.place, toLex (f.line, f.subject))

section Order

variable {a b : Finding} {fs : List Finding}

/-- Findings with scores that are numbers are sorted by their keys. -/
theorem GodClass.precedes_eq (ha : a.score.isNaN = false) (hb : b.score.isNaN = false) :
    precedes a b = decide (a.sortKey ≤ b.sortKey) := by
  rw [Bool.eq_iff_iff, decide_eq_true_eq, Finding.sortKey, Finding.sortKey, Prod.Lex.toLex_le_toLex,
    Prod.Lex.toLex_le_toLex, OrderDual.toDual_lt_toDual, precedes]
  have hlt := DenseRank.real_lt_iff ha hb
  have heq := DenseRank.real_eq_iff ha hb
  by_cases h : a.score.eq b.score = true
  · have hplace := heq.1 h
    simp [h, hplace]
  · have hplace : a.score.place ≠ b.score.place := fun hplace => h (heq.2 hplace)
    simp only [h, Bool.false_eq_true, if_false, Bool.not_eq_true', ← Bool.not_eq_true, hlt, not_lt]
    constructor
    · exact fun hle => .inl (lt_of_le_of_ne hle hplace.symm)
    · rintro (hlt | ⟨hsame, -⟩)
      · exact hlt.le
      · exact absurd (OrderDual.toDual_inj.1 hsame) hplace

/-- A finding that comes first has no smaller score, and of the same score no later line. -/
theorem Finding.score_le_of_sortKey_le (ha : a.score.isNaN = false) (hb : b.score.isNaN = false)
    (h : a.sortKey ≤ b.sortKey) :
    b.score.le a.score = true ∧ (b.score.eq a.score = true → a.line ≤ b.line) := by
  rw [DenseRank.real_le_iff hb ha, DenseRank.real_eq_iff hb ha]
  rw [sortKey, sortKey, Prod.Lex.toLex_le_toLex, Prod.Lex.toLex_le_toLex, OrderDual.toDual_lt_toDual] at h
  rcases h with hlt | ⟨hsame, hrest⟩
  · exact ⟨hlt.le, fun heq => absurd heq hlt.ne⟩
  · refine ⟨(OrderDual.toDual_inj.1 hsame).symm.le, fun _ => ?_⟩
    exact hrest.elim le_of_lt fun h => h.1.le

/-- A finding that counts has a number for a score. -/
theorem Scorer.isNaN_of_isAdmissible {f : Finding} (h : isAdmissible f = true) : f.score.isNaN = false :=
  (Binary64.isNaN_of_le h).2

/-- Of findings in order, all of which count, the first stands for the file. -/
theorem Scorer.representative?_eq_head? (hall : ∀ f ∈ fs, isAdmissible f = true)
    (hsorted : fs.Pairwise fun a b => a.sortKey ≤ b.sortKey) : representative? fs = fs.head? := by
  have hfold : ∀ (f : Finding) (rest : List Finding), (∀ g ∈ rest, exceeds g f = false) → rest.foldl worse f = f := by
    intro f rest hrest
    induction rest with
    | nil => rfl
    | cons g rest ih =>
      have hkeep : worse f g = f := by
        rw [worse, hrest g List.mem_cons_self]
        rfl
      rw [List.foldl_cons, hkeep]
      exact ih fun e he => hrest e (List.mem_cons_of_mem g he)
  rw [representative?, List.filter_eq_self.2 hall]
  cases fs with
  | nil => rfl
  | cons f rest =>
    refine congrArg some (hfold f rest fun g hg => ?_)
    have hf := isNaN_of_isAdmissible (hall f List.mem_cons_self)
    have hg' := isNaN_of_isAdmissible (hall g (List.mem_cons_of_mem f hg))
    obtain ⟨hle, hline⟩ := Finding.score_le_of_sortKey_le hf hg' ((List.pairwise_cons.1 hsorted).1 g hg)
    rw [exceeds]
    split
    · next heq => exact decide_eq_false (not_lt.2 (hline heq))
    · rw [← Bool.not_eq_true, DenseRank.real_lt_iff hf hg', not_lt]
      exact (DenseRank.real_le_iff hg' hf).1 hle

end Order

/-! ## The findings of a tree -/

/-- The measures of the classes that are defined anywhere in a module. -/
def Source.Tree.classes (t : Source.Tree) : List ClassMetrics :=
  t.nodes.filterMap fun node => node.classHead?.map fun (name, line) =>
    .ofClass (ClassMetrics.importedNames t) name line node

namespace GodClass

variable {g : GodClass} {t : Source.Tree} {m : ClassMetrics} {fs : List Finding}

/-- The rule looks at every class of a module, and at each of them once. -/
theorem ofTree_perm_classes (t : Source.Tree) : (ClassMetrics.ofTree (ClassMetrics.importedNames t) t).Perm t.classes :=
  (Source.Tree.walk_perm_nodes t).filterMap _

/-- A class of a module has a cohesion from zero on. -/
theorem zero_le_tcc (hm : m ∈ t.classes) : Binary64.zero.le m.tcc = true := by
  obtain ⟨node, -, hnode⟩ := List.mem_filterMap.1 hm
  obtain ⟨⟨name, line⟩, -, rfl⟩ := Option.map_eq_some_iff.1 hnode
  exact ClassMetrics.zero_le_cohesion _

/-- A class of a module has at most the weighted method count and the foreign data that fit in the module. -/
theorem natAbs_le_size (hm : m ∈ t.classes) : m.wmc.natAbs ≤ t.size ∧ m.atfd.natAbs ≤ t.size := by
  obtain ⟨node, hmem, hnode⟩ := List.mem_filterMap.1 hm
  obtain ⟨⟨name, line⟩, -, rfl⟩ := Option.map_eq_some_iff.1 hnode
  obtain ⟨⟨hw, hwmc⟩, ha, hatfd⟩ := ClassMetrics.measures_le_size (ClassMetrics.importedNames t) name line node
  have hsize := Source.Tree.size_le_of_mem hmem
  dsimp only
  omega

/-- What the rule has for some classes is what it has for those that are out. -/
theorem map_evaluate_filter {ms : List ClassMetrics} {found : List (Option Finding)}
    (h : ms.map g.evaluate = found.map .ok) :
    (ms.filter (g.IsOut ·)).map g.evaluate = (found.filterMap id).map fun f => .ok (some f) := by
  induction ms generalizing found with
  | nil =>
    obtain rfl := List.map_eq_nil_iff.1 h.symm
    rfl
  | cons m ms ih =>
    cases found with
    | nil => cases h
    | cons r found =>
      obtain ⟨hm, hrest⟩ := List.cons.inj h
      obtain ⟨hflags, rfl⟩ | ⟨hflags, x, -, rfl⟩ := evaluate_eq_ok hm
      · have hout : ¬g.IsOut m := fun hout => Bool.false_ne_true (hflags.symm.trans (flags_eq_true_iff.2 hout))
        rw [List.filter_cons_of_neg (by simpa using hout), ih hrest]
        rfl
      · have hout := flags_eq_true_iff.1 hflags
        rw [List.filter_cons_of_pos (by simpa using hout), List.map_cons, hm, ih hrest]
        rfl

/-- The findings of a module are those of its classes that are out, each of them once. -/
theorem perm_of_findings (h : g.findings t = .ok fs) :
    (fs.map fun f => (.ok (some f) : Except Fault (Option Finding))).Perm
      ((t.classes.filter (g.IsOut ·)).map g.evaluate) := by
  obtain ⟨found, hfound, h⟩ := bind_eq_ok.1 h
  obtain rfl := Except.ok.inj h
  refine ((List.mergeSort_perm _ _).map _).trans ?_
  rw [← map_evaluate_filter (mapM_eq_ok_iff.1 hfound)]
  exact ((ofTree_perm_classes t).filter _).map _

/-- A finding of a module belongs to a class that is out. -/
theorem exists_class_of_mem (h : g.findings t = .ok fs) {f : Finding} (hf : f ∈ fs) :
    ∃ m ∈ t.classes, g.IsOut m ∧ g.evaluate m = .ok (some f) := by
  obtain ⟨m, hm, hf⟩ := List.mem_map.1 ((perm_of_findings h).mem_iff.1 (List.mem_map_of_mem hf))
  obtain ⟨hclass, hout⟩ := List.mem_filter.1 hm
  exact ⟨m, hclass, of_decide_eq_true hout, hf⟩

/-- A module has a finding exactly if one of its classes is out. -/
theorem isSome_head?_iff (h : g.findings t = .ok fs) : fs.head?.isSome = true ↔ ∃ m ∈ t.classes, g.IsOut m := by
  have hlength := (perm_of_findings h).length_eq
  rw [List.length_map, List.length_map] at hlength
  rw [List.isSome_head?, ← List.length_pos_iff, hlength, List.length_filter_pos_iff]
  simp only [decide_eq_true_eq]

/-- Under accepted thresholds every finding of a module counts. -/
theorem isAdmissible_of_mem (hg : g.IsAccepted) (h : g.findings t = .ok fs) {f : Finding} (hf : f ∈ fs) :
    Scorer.isAdmissible f = true := by
  obtain ⟨m, hm, -, hevaluate⟩ := exists_class_of_mem h hf
  exact hg.zero_le_score (zero_le_tcc hm) hevaluate

/-- Under accepted thresholds the findings of a module are in order. -/
theorem pairwise_of_findings (hg : g.IsAccepted) (h : g.findings t = .ok fs) :
    fs.Pairwise fun a b => a.sortKey ≤ b.sortKey := by
  have hall : ∀ f ∈ fs, Scorer.isAdmissible f = true := fun _ hf => isAdmissible_of_mem hg h hf
  obtain ⟨found, hfound, h⟩ := bind_eq_ok.1 h
  obtain rfl := Except.ok.inj h
  have hnumber : ∀ f ∈ found.filterMap id, f.score.isNaN = false := fun f hf =>
    Scorer.isNaN_of_isAdmissible (hall f ((List.mergeSort_perm _ _).mem_iff.2 hf))
  have hsorted : (found.filterMap id).mergeSort precedes =
      (found.filterMap id).mergeSort fun a b => decide (a.sortKey ≤ b.sortKey) := by
    have hkeys := List.map_mergeSort (f := id) (r := precedes) (s := fun a b => decide (a.sortKey ≤ b.sortKey))
      fun a ha b hb => precedes_eq (hnumber a ha) (hnumber b hb)
    rwa [List.map_id, List.map_id] at hkeys
  rw [hsorted]
  exact pairwise_mergeSort_key _ _

/-- Under accepted thresholds a module that fits in memory has findings, or none. -/
theorem exists_findings (hg : g.IsAccepted) (hsize : t.size < 2 ^ 1023) : ∃ fs, g.findings t = .ok fs := by
  have hall : ∀ m ∈ ClassMetrics.ofTree (ClassMetrics.importedNames t) t, ∃ r, g.evaluate m = .ok r := fun m hm => by
    have hclass := (ofTree_perm_classes t).mem_iff.1 hm
    obtain ⟨hwmc, hatfd⟩ := natAbs_le_size hclass
    exact hg.exists_evaluate (zero_le_tcc hclass) (by omega) (by omega)
  obtain ⟨found, hfound⟩ := exists_mapM_eq_ok_iff.2 hall
  exact ⟨_, bind_eq_ok.2 ⟨found, hfound, rfl⟩⟩

/-- A source text with a syntax tree has the findings of the tree. -/
theorem analyze_eq_ok_iff {path source : String} (h : g.parse source = .ok t) :
    g.analyze path source = .ok fs ↔ g.findings t = .ok fs := by
  rw [analyze, h]
  dsimp only
  cases g.findings t <;> simp [Except.mapError]

end GodClass

/-! ## Accepted settings -/

/-- What a value that is not below a bound is as a number, if it is one. -/
theorem Settings.lt_of_lt_eq_ok {v : Value} {i : Int} (h : v.lt (.int i) = .ok false) :
    (Triage.numberOf v).lt (.whole i) = false := by
  rw [Value.lt, Value.compareBy] at h
  rw [Triage.numberOf]
  cases hv : v.number? with
  | none =>
    rw [hv] at h
    cases h
  | some n =>
    rw [hv] at h
    exact Except.ok.inj h

/-- The thresholds of accepted settings are accepted. -/
theorem Settings.isAccepted_of_validate {s : Settings} (h : s.validate = .ok ()) :
    (Triage.godClassOf s).IsAccepted := by
  rw [validate_eq, Check.runAll_eq_ok_iff] at h
  simp only [checks, List.forall_mem_cons] at h
  obtain ⟨-, -, -, -, -, -, -, -, hclass, htcc, -⟩ := h
  obtain ⟨hwmc, hatfd⟩ := either_eq_ok_false hclass
  exact {
    wmc := lt_of_lt_eq_ok hwmc
    atfd := lt_of_lt_eq_ok hatfd
    tcc := by
      obtain ⟨n, x, hn, hx, hpos, hle⟩ := exists_rational_of_outsideUnit htcc
      change ∃ v, 0 < v ∧ (Triage.numberOf (s .godClassTccThreshold)).HasUnits v
      rw [Triage.numberOf, hn]
      exact Number.exists_units_of_rational hx hpos hle }

namespace Triage

/-- With accepted settings a module that fits in memory is analyzed to the end. The list of findings of a module has
exactly one finding for each class, defined anywhere in it, that is out on the three thresholds. The scorer returns the
first of the list: it returns a finding exactly if there is such a class, and the finding belongs to one, has the
highest score, and of the same score the earliest line. -/
theorem score_returns_worst_class {settings : Settings} (hvalid : settings.validate = .ok ())
    {extensions : List String} {parse : Source.Parser} {scorer : Scorer} {identity : FileIdentity} {content : Bytes}
    {source : String} {tree : Source.Tree}
    (hengine : scorer.engine = { godClassOf settings with extensions := extensions, parse := parse }.engine)
    (hsource : scorer.sourceOf identity.path content = .ok source) (htree : parse source = .ok tree) :
    let g : GodClass := { godClassOf settings with extensions := extensions, parse := parse }
    (tree.size < 2 ^ 1023 → ∃ findings, g.analyze identity.path source = .ok findings) ∧
    ∀ findings, g.analyze identity.path source = .ok findings →
      (findings.map fun f => (.ok (some f) : Except Fault (Option Finding))).Perm
        ((tree.classes.filter (g.IsOut ·)).map g.evaluate) ∧
      (∀ st, ∃ st', (scorer.score identity content).Returns st findings.head? st') ∧
      (findings.head?.isSome = true ↔ ∃ m ∈ tree.classes, g.IsOut m) ∧
      ∀ f, findings.head? = some f → (∃ m ∈ tree.classes, g.IsOut m ∧ g.evaluate m = .ok (some f)) ∧
        ∀ f' ∈ findings, f'.score.le f.score = true ∧ (f'.score.eq f.score = true → f.line ≤ f'.line) := by
  intro g
  have hg : g.IsAccepted :=
    let h := Settings.isAccepted_of_validate hvalid
    ⟨h.wmc, h.atfd, h.tcc⟩
  refine ⟨fun hsize => ?_, fun findings hfindings => ?_⟩
  · obtain ⟨findings, hfindings⟩ := GodClass.exists_findings hg hsize
    exact ⟨findings, (GodClass.analyze_eq_ok_iff htree).2 hfindings⟩
  have hlist := (GodClass.analyze_eq_ok_iff htree).1 hfindings
  have hall : ∀ f ∈ findings, Scorer.isAdmissible f = true := fun _ hf => GodClass.isAdmissible_of_mem hg hlist hf
  have hsorted := GodClass.pairwise_of_findings hg hlist
  refine ⟨GodClass.perm_of_findings hlist, fun st => ?_, GodClass.isSome_head?_iff hlist, fun f hf => ?_⟩
  · rw [← Scorer.representative?_eq_head? hall hsorted]
    exact Scorer.exists_returns_score (by rw [hengine]; rfl) hsource (by rw [hengine]; exact hfindings) st
  · obtain ⟨rest, rfl⟩ := List.head?_eq_some_iff.1 hf
    refine ⟨GodClass.exists_class_of_mem hlist List.mem_cons_self, fun f' hf' => ?_⟩
    refine Finding.score_le_of_sortKey_le (Scorer.isNaN_of_isAdmissible (hall f List.mem_cons_self))
      (Scorer.isNaN_of_isAdmissible (hall f' hf')) ?_
    rcases List.mem_cons.1 hf' with rfl | hrest
    · exact le_rfl
    · exact (List.pairwise_cons.1 hsorted).1 f' hrest

/-- A file with a class in a function is represented by a finding if the thresholds are low. -/
theorem score_returns_worst_class_of_nested :
    let settings : Settings := Function.update (Function.update (Function.update Settings.default
      .godClassWmcThreshold (.int 1)) .godClassAtfdThreshold (.int 0)) .godClassTccThreshold (.float (.ofInt 1))
    let source := "def f():\n class A:\n  def g(self, o):\n   return o.x\n  def h(self):\n   return self.y\n"
    let scorer : Scorer := { engine := (godClassOf settings).engine }
    let identity : FileIdentity := { uid := 0, path := "a.py" }
    ∃ findings, (godClassOf settings).analyze identity.path source = .ok findings ∧ findings ≠ [] ∧
      ∀ st, ∃ st', (scorer.score identity (Utf8.encode source)).Returns st findings.head? st' := by
  intro settings source scorer identity
  obtain ⟨⟨⟩, hvalid⟩ : ∃ u, settings.validate = .ok u := exists_eq_ok_of_isOk (by decide +kernel)
  obtain ⟨tree, hparse, hout⟩ : ∃ tree, (Source.parser source).toOption = some tree ∧
      (decide (tree.size < 2 ^ 1023) && tree.classes.any fun m => decide ((godClassOf settings).IsOut m)) = true :=
    (Option.any_eq_true _ _).1 (by decide +kernel)
  have htree : Source.parser source = .ok tree := eq_ok_of_toOption hparse
  rw [Bool.and_eq_true, decide_eq_true_eq, List.any_eq_true] at hout
  obtain ⟨hsize, m, hm, hclass⟩ := hout
  have hsource : scorer.sourceOf identity.path (Utf8.encode source) = .ok source :=
    eq_ok_of_toOption (by decide +kernel)
  have hengine : scorer.engine = (godClassOf settings).engine := rfl
  obtain ⟨hends, hall⟩ := score_returns_worst_class hvalid hengine hsource htree
  obtain ⟨findings, hfindings⟩ := hends hsize
  obtain ⟨-, hscore, hiff, -⟩ := hall findings hfindings
  refine ⟨findings, hfindings, ?_, hscore⟩
  rintro rfl
  exact Bool.false_ne_true (hiff.2 ⟨m, hm, of_decide_eq_true hclass⟩)

end Triage

end Hotspots
