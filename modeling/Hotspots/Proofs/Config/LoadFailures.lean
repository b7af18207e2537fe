import Hotspots.Proofs.Config.Checks
import Hotspots.Proofs.Config.Merging

/-!
# How loading settings fails

Loading settings is meant to fail only in the family of configuration failures. It does so unless a source breaks it
(`fails_as_configuration_iff`): a file that is no text, that has a whole number with too many digits, whose values are
nested too deeply or whose part for this tool is neither a table nor a list of pairs is not caught, and neither is a
path that is too long to be asked for, nor a value that is refused but cannot be shown.
-/

namespace Hotspots

/-! ## Failures that are none of the settings -/

namespace Failure

/-- Whether a failure is one of the settings. -/
def isConfiguration : Failure → Bool
  | .triage (.general .configuration _ _) => true
  | .triage (.invalidSetting _ _ _) => true
  | _ => false

/-- An outcome that is a failure, but none of the settings. -/
def Escapes {α : Type} (x : Except Failure α) : Prop := ∃ e, x = .error e ∧ e.isConfiguration = false

variable {α β : Type}

/-- A result is no failure. -/
@[simp] theorem not_escapes_ok (a : α) : ¬Escapes (.ok a) := nofun

/-- A failure escapes if it is none of the settings. -/
@[simp] theorem escapes_error {e : Failure} : Escapes (.error e : Except Failure α) ↔ e.isConfiguration = false := by
  simp [Escapes]

/-- A fault is no failure of the settings. -/
@[simp] theorem isConfiguration_fault (f : Fault) : (fault f).isConfiguration = false := rfl

/-- Settings that cannot be read are a failure of the settings. -/
@[simp] theorem isConfiguration_configuration (text : String) : (configuration text).isConfiguration = true := rfl

/-- A step escapes, or the one after it does. -/
theorem escapes_bind {x : Except Failure α} {next : α → Except Failure β} :
    Escapes (x >>= next) ↔ Escapes x ∨ ∃ a, x = .ok a ∧ Escapes (next a) := by
  cases x <;> simp [bind, Except.bind]

/-- Telling faults as failures leaves results as they are. -/
theorem exists_mapError_iff {x : Except Fault α} : (∃ a, x.mapError fault = .ok a) ↔ ∃ a, x = .ok a := by
  cases x with
  | error f =>
    apply iff_of_false
    · rintro ⟨_, h⟩
      cases h
    · rintro ⟨_, h⟩
      cases h
  | ok a => exact iff_of_true ⟨a, rfl⟩ ⟨a, rfl⟩

/-- Every fault escapes. -/
theorem escapes_mapError {x : Except Fault α} : Escapes (x.mapError .fault) ↔ ¬∃ a, x = .ok a := by
  cases x with
  | error f => exact iff_of_true ⟨.fault f, rfl, rfl⟩ nofun
  | ok a => exact iff_of_false nofun fun hnone => hnone ⟨a, rfl⟩

end Failure

open Failure

namespace Sources

/-! ## Files -/

/-- What a file says to this tool: its `triage` entry if it has one. -/
def triagePart (root : List (String × Value)) : Value := (Record.get? "triage" root).getD (.table root)

/-- A pair of a key and a value. -/
def IsPair (item : Value) : Prop := ∃ key value, item.elements? = some [key, value] ∧ canBeKey key = true

/-- A value that can be merged: a table, or elements that are pairs. -/
def IsMergeable (v : Value) : Prop :=
  (∃ entries, v = .table entries) ∨ ∃ items, v.elements? = some items ∧ ∀ item ∈ items, IsPair item

/-- A list of pairs is read, and nothing else. -/
theorem exists_ofPairs_iff (index : Nat) (items : List Value) :
    (∃ entries, ofPairs index items = .ok entries) ↔ ∀ item ∈ items, IsPair item := by
  induction items generalizing index with
  | nil => simp [ofPairs]
  | cons item rest ih =>
    rw [List.forall_mem_cons, ← ih (index + 1), ofPairs]
    split
    · next h => simp [IsPair, h]
    · next key value h =>
      by_cases hkey : canBeKey key = true
      · have hpair : IsPair item := ⟨key, value, h, hkey⟩
        cases hrest : ofPairs (index + 1) rest with
        | error e => simp [hkey, bind, Except.bind]
        | ok later => cases key <;> simp_all [bind, Except.bind, pure, Except.pure]
      · simp [IsPair, h, hkey]
    · next parts hparts h =>
      have hnone : ¬IsPair item := by
        rintro ⟨key, value, hpair, -⟩
        rw [h] at hpair
        exact hparts key value (Option.some.inj hpair)
      simp [hnone]

/-- A value is read as entries exactly if it can be merged. -/
theorem exists_entriesOf_iff (v : Value) : (∃ entries, entriesOf v = .ok entries) ↔ IsMergeable v := by
  unfold entriesOf IsMergeable
  split
  · simp
  · next htable =>
    have hnone : ¬∃ entries, v = .table entries := fun ⟨entries, h⟩ => htable entries h
    rw [or_iff_right hnone]
    split
    · next items h => simp [exists_ofPairs_iff, h]
    · next h => simp [h]

variable {stack : Stack}

/-- A file that is read: a document in UTF-8 whose part for this tool can be merged. -/
def Yields (stack : Stack) (content : Bytes) : Prop :=
  ∃ text root, Utf8.decode content = .ok text ∧ Document.ofText text stack = .ok root ∧ IsMergeable (triagePart root)

/-- A file that fails as no configuration does. -/
inductive Spoils (stack : Stack) (content : Bytes) : Prop
  /-- It is no text. -/
  | undecodable {m : Utf8.Malformed} (h : Utf8.decode content = .error m)
  /-- It has a whole number with too many digits. -/
  | tooManyDigits {text : String} {count : Nat} (htext : Utf8.decode content = .ok text)
    (h : Document.ofText text stack = .error (.tooManyDigits count))
  /-- Its values are nested too deeply. -/
  | tooDeep {text words : String} (htext : Utf8.decode content = .ok text)
    (h : Document.ofText text stack = .error (.tooDeep words))
  /-- Its part for this tool cannot be merged. -/
  | unmergeable {text : String} {root : List (String × Value)} (htext : Utf8.decode content = .ok text)
    (hroot : Document.ofText text stack = .ok root) (h : ¬IsMergeable (triagePart root))

/-- A file is read if it yields something. -/
theorem exists_ofFile_iff {path : String} {content : Bytes} :
    (∃ entries, ofFile stack path content = .ok entries) ↔ Yields stack content := by
  unfold ofFile Yields
  cases hdecode : Utf8.decode content with
  | error m => simp
  | ok text =>
    cases hroot : Document.ofText text stack with
    | error flaw => cases flaw <;> simp [hroot]
    | ok root =>
      simp only [Except.ok.injEq, exists_and_left, exists_eq_left', hroot, ← exists_entriesOf_iff, triagePart]
      exact exists_mapError_iff

/-- A file fails as no configuration does if it spoils the settings. -/
theorem escapes_ofFile_iff {path : String} {content : Bytes} :
    Escapes (ofFile stack path content) ↔ Spoils stack content := by
  unfold ofFile
  cases hdecode : Utf8.decode content with
  | error m =>
    simp only [escapes_error, isConfiguration_fault, true_iff]
    exact .undecodable hdecode
  | ok text =>
    dsimp only
    cases hroot : Document.ofText text stack with
    | error flaw =>
      cases flaw with
      | malformed =>
        simp only [escapes_error, isConfiguration_configuration, Bool.true_eq_false, false_iff]
        intro h
        cases h <;> simp_all
      | tooManyDigits count =>
        simp only [escapes_error, isConfiguration_fault, true_iff]
        exact .tooManyDigits hdecode hroot
      | tooDeep words =>
        simp only [escapes_error, isConfiguration_fault, true_iff]
        exact .tooDeep hdecode hroot
    | ok root =>
      dsimp only
      rw [escapes_mapError, ← triagePart, exists_entriesOf_iff]
      constructor
      · exact .unmergeable hdecode hroot
      · intro h
        cases h <;> simp_all

/-- A file that may be missing escapes only if it is there and spoils the settings. -/
theorem escapes_optionalFile_iff {path : String} {file : Option Bytes} :
    Escapes (optionalFile stack path file) ↔ ∃ content ∈ file, Spoils stack content := by
  cases file <;> simp [optionalFile, escapes_ofFile_iff]

/-- A file that may be missing is read unless it yields nothing. -/
theorem exists_optionalFile_iff {path : String} {file : Option Bytes} :
    (∃ entries, optionalFile stack path file = .ok entries) ↔ ∀ content ∈ file, Yields stack content := by
  cases file <;> simp [optionalFile, exists_ofFile_iff]

/-- The content of the file that was asked for, if there is one. -/
def askedContent? (s : Sources) : Option Bytes :=
  s.asked.bind fun path =>
    match s.folder.look path with
    | .file content => some content
    | _ => none

/-- A path that was asked for of which the system does not tell what it leads to. -/
def AsksUntold (s : Sources) : Prop := ∃ path ∈ s.asked, s.folder.look path = .untold

/-- The file that was asked for escapes only if the system does not tell whether it is there, or if it is there and
spoils the settings. -/
theorem escapes_askedFile_iff {s : Sources} :
    Escapes (s.askedFile stack) ↔ s.AsksUntold ∨ ∃ content ∈ s.askedContent?, Spoils stack content := by
  unfold askedFile askedContent? AsksUntold
  cases s.asked with
  | none => simp
  | some path => cases hlook : s.folder.look path <;> simp [hlook, escapes_ofFile_iff, configuration, isConfiguration]

/-- The environment fails as a configuration does. -/
theorem not_escapes_ofEnvironment {environment : List (String × String)} {fields : List Field} :
    ¬Escapes (ofEnvironment environment fields) := by
  induction fields with
  | nil => nofun
  | cons f rest ih =>
    rw [ofEnvironment]
    split
    · exact ih
    · split
      · nofun
      · cases hrest : ofEnvironment environment rest <;> simp_all [Except.map]

/-! ## Settings -/

/-- A failure is told as it is unless a value is of a wrong kind. -/
theorem escapes_told_error {e : Failure} :
    Escapes (told (.error e)) ↔ e.isConfiguration = false ∧ ∀ f, e = .fault f → f.isKindFault = false := by
  cases e with
  | fault f => cases hkind : f.isKindFault <;> simp [told, hkind]
  | triage e => simp [told]
  | interrupted => simp [told]

end Sources

namespace Settings

open Sources

variable {stack : Stack}

/-- A value that cannot be shown: it is nested too deeply, or a whole number in it has too many digits. -/
def CannotShow (stack : Stack) (value : Value) : Prop := stack.showing? value ≠ none ∨ value.isWritable = false

/-- Settings whose first check that fails refuses a value that cannot be shown. -/
def RefusesUnshown (s : Settings) (stack : Stack) : Prop :=
  ∃ before check after, s.checks = before ++ check :: after ∧ (∀ passed ∈ before, passed.test = .ok false) ∧
    check.test = .ok true ∧ CannotShow stack check.value

/-- What is said of a value that is not allowed is a failure of the settings, unless the value cannot be shown. -/
theorem escapes_told_invalid {key : String} {value : Value} {reason : String} :
    Escapes (told (.error (invalid stack key value reason))) ↔ CannotShow stack value := by
  rw [escapes_told_error, invalid, CannotShow]
  cases stack.showing? value with
  | some words => simp [Fault.stackEnded, Fault.isKindFault, Fault.kind]
  | none => cases value.isWritable <;> simp [isConfiguration, Fault.isKindFault, Fault.kind]

/-- Checked settings fail as no configuration does exactly if the first check that fails refuses a value that cannot
be shown. -/
theorem escapes_told_validate_iff {s : Settings} :
    Escapes (told (do validate s stack; return s)) ↔ s.RefusesUnshown stack := by
  rw [validate_eq]
  constructor
  · intro h
    cases hrun : Check.runAll stack s.checks with
    | ok u =>
      rw [hrun] at h
      exact absurd h (not_escapes_ok s)
    | error e =>
      rw [hrun] at h
      replace h : Escapes (told (.error e)) := h
      obtain ⟨before, c, after, hchecks, hpassed, hfail⟩ := Check.runAll_eq_error_iff.1 hrun
      refine ⟨before, c, after, hchecks, hpassed, ?_⟩
      unfold Check.run reject at hfail
      split at hfail
      · next f htest =>
        -- The test has met a value of a wrong kind, and that is told as a failure of the settings.
        cases hfail
        have hkind := isKindFault_of_mem_checks (hchecks ▸ List.mem_append_right before List.mem_cons_self) htest
        rw [(escapes_told_error.1 h).2 f rfl] at hkind
        cases hkind
      · next htest =>
        cases hfail
        exact ⟨htest, escapes_told_invalid.1 h⟩
      · cases hfail
  · rintro ⟨before, c, after, hchecks, hpassed, htest, hvalue⟩
    have hrun : Check.runAll stack s.checks = .error (invalid stack c.key c.value c.reason) :=
      Check.runAll_eq_error_iff.2 ⟨before, c, after, hchecks, hpassed, by rw [Check.run, htest]; rfl⟩
    rw [hrun]
    exact escapes_told_invalid.2 hvalue

/-- A record fails as no configuration does only if its names are known and its values are checked. -/
theorem escapes_told_ofRecord_iff {record : List (String × Value)} :
    Escapes (told (ofRecord record stack)) ↔
      (∀ entry ∈ record, (Field.ofName? entry.1).isSome) ∧ (merged record).RefusesUnshown stack := by
  unfold ofRecord
  split
  · next name value hfind =>
    have hkind : (badName name).isKindFault = true := by
      unfold badName
      split <;> rfl
    have hunknown : ¬∀ entry ∈ record, (Field.ofName? entry.1).isSome := by
      intro h
      have hname := h _ (List.mem_of_find?_eq_some hfind)
      have hnone := List.find?_some hfind
      simp_all
    simp only [escapes_told_error, hunknown, false_and, iff_false, not_and]
    intro hother hkind'
    exact absurd hkind (by rw [hkind' _ rfl]; exact Bool.false_ne_true)
  · next hnone =>
    rw [escapes_told_validate_iff, and_iff_right]
    simpa [Option.isSome_iff_ne_none] using hnone

end Settings

namespace Sources

variable {stack : Stack}

/-- Sources that fail as no configuration does: of the files, in the order in which they are read, the first one that
is not read spoils the settings, or the system does not tell whether the file that was asked for is there, or all of
them are merged and a value is refused that cannot be shown. -/
inductive Breaks (s : Sources) (stack : Stack) : Prop
  | userFile {content : Bytes} (h : s.userFile = some content) (hspoils : Spoils stack content)
  | projectFile {content : Bytes} (huser : ∀ earlier ∈ s.userFile, Yields stack earlier)
    (h : s.projectFile = some content) (hspoils : Spoils stack content)
  | askedPath (huser : ∀ earlier ∈ s.userFile, Yields stack earlier)
    (hproject : ∀ earlier ∈ s.projectFile, Yields stack earlier) (h : s.AsksUntold)
  | askedFile {content : Bytes} (huser : ∀ earlier ∈ s.userFile, Yields stack earlier)
    (hproject : ∀ earlier ∈ s.projectFile, Yields stack earlier) (h : s.askedContent? = some content)
    (hspoils : Spoils stack content)
  | value {merged : Source.Entries} (h : s.record stack = .ok merged) (hkeys : merged.oddKeys = false)
    (hnames : ∀ entry ∈ merged.values, (Field.ofName? entry.1).isSome)
    (hvalue : (Settings.merged merged.values).RefusesUnshown stack)

/-- Merging the sources fails as no configuration does if a file spoils the settings, or if the system does not tell
whether the file that was asked for is there. -/
theorem escapes_record_iff {s : Sources} : Escapes (s.record stack) ↔
    (∃ content ∈ s.userFile, Spoils stack content) ∨ (∀ content ∈ s.userFile, Yields stack content) ∧
      ((∃ content ∈ s.projectFile, Spoils stack content) ∨ (∀ content ∈ s.projectFile, Yields stack content) ∧
        (s.AsksUntold ∨ ∃ content ∈ s.askedContent?, Spoils stack content)) := by
  unfold record
  simp only [escapes_bind, escapes_optionalFile_iff, escapes_askedFile_iff, not_escapes_ofEnvironment, pure,
    Except.pure, not_escapes_ok, and_false, exists_false, or_false, exists_and_right, exists_optionalFile_iff]

/-- Loading settings fails as one of the settings does exactly if no source breaks it, wherever the stack of calls
ends. -/
theorem fails_as_configuration_iff (s : Sources) (stack : Stack) :
    (∀ e, s.load stack = .error e → e.isConfiguration = true) ↔ ¬s.Breaks stack := by
  have hescapes : (∀ e, s.load stack = .error e → e.isConfiguration = true) ↔ ¬Escapes (s.load stack) := by
    simp [Escapes]
  rw [hescapes, not_iff_not, load_eq, escapes_bind, escapes_record_iff]
  constructor
  · rintro (hread | ⟨merged, h, htold⟩)
    · rcases hread with ⟨content, h, hspoils⟩ | ⟨huser, ⟨content, h, hspoils⟩ | ⟨hproject, hasked⟩⟩
      · exact .userFile h hspoils
      · exact .projectFile huser h hspoils
      · rcases hasked with huntold | ⟨content, h, hspoils⟩
        · exact .askedPath huser hproject huntold
        · exact .askedFile huser hproject h hspoils
    · cases hkeys : merged.oddKeys with
      | true => simp [hkeys, escapes_told_error, Fault.isKindFault, Fault.kind] at htold
      | false =>
        rw [hkeys, if_neg Bool.false_ne_true, Settings.escapes_told_ofRecord_iff] at htold
        exact .value h hkeys htold.1 htold.2
  · intro h
    cases h with
    | userFile h hspoils => exact .inl (.inl ⟨_, h, hspoils⟩)
    | projectFile huser h hspoils => exact .inl (.inr ⟨huser, .inl ⟨_, h, hspoils⟩⟩)
    | askedPath huser hproject h => exact .inl (.inr ⟨huser, .inr ⟨hproject, .inl h⟩⟩)
    | askedFile huser hproject h hspoils => exact .inl (.inr ⟨huser, .inr ⟨hproject, .inr ⟨_, h, hspoils⟩⟩⟩)
    | value h hkeys hnames hvalue =>
      refine .inr ⟨_, h, ?_⟩
      rw [hkeys, if_neg Bool.false_ne_true, Settings.escapes_told_ofRecord_iff]
      exact ⟨hnames, hvalue⟩

/-- A project's file of one byte that is no text fails as no configuration does. -/
theorem not_fails_as_configuration_of_undecodable :
    ¬∀ e, Sources.load { projectFile := some [0xFF] } = .error e → e.isConfiguration = true := by
  intro h
  exact Bool.false_ne_true (h _ rfl)

end Sources

end Hotspots
