import Hotspots.Proofs.Config.LoadFailures
import Mathlib

/-!
# The source that decides

Every setting is decided by the first source that sets it, from the options of the call down to the user's file
(`Sources.resolved`). Loading reads all sources, but it only checks and returns the settings that are decided this way
(`load_eq_of_isReadable`). So a source is heard at each setting on its own, and what a source says where a stronger one
is heard does not count, even if it is out of bounds (`load_by_priority`).
-/

namespace Hotspots

namespace Sources

/-! ## What each source sets -/

/-- The entries of a settings file: its part for this tool, if that is a table. -/
def tableOf? (stack : Stack) (content : Bytes) : Option (List (String × Value)) :=
  match Utf8.decode content with
  | .error _ => none
  | .ok text =>
    match Document.ofText text stack with
    | .error _ => none
    | .ok root =>
      match triagePart root with
      | .table entries => some entries
      | _ => none

/-- What a file sets a setting to. -/
def fileValue? (stack : Stack) (file : Option Bytes) (f : Field) : Option Value :=
  (file.bind (tableOf? stack)).bind f.lastIn

/-- What a variable of the environment sets a setting to. -/
def variableValue? (environment : List (String × String)) (f : Field) : Option Value :=
  (Record.get? (variableName f) environment).bind fun raw => (ofShape f.shape (Blank.trimText raw)).toOption

/-- What the options of the call set a setting to. The switch for silent runs comes before the one for loud runs, and
this one before a verbosity that is given; an option without a value sets nothing. -/
def optionValue? (options : List (String × Value)) (f : Field) : Option Value :=
  if f = .verbosity ∧ isOn "quiet" options = true then some (.text "quiet")
  else if f = .verbosity ∧ isOn "verbose" options = true then some (.text "verbose")
  else (Record.get? f.name options).filter isSet

/-- The sources of settings, told apart by their rank. -/
inductive Rank where
  | options
  | environment
  | askedFile
  | projectFile
  | userFile
  deriving DecidableEq, Repr

/-- The ranks of sources, the strongest first. -/
def Rank.all : List Rank := [options, environment, askedFile, projectFile, userFile]

/-- A rank that comes before another. -/
def Rank.Outranks (a b : Rank) : Prop := all.idxOf a < all.idxOf b

/-- The first source that sets something is found rank by rank. -/
theorem Rank.findSome?_all {α : Type} (g : Rank → Option α) : all.findSome? g =
    (g options).or ((g environment).or ((g askedFile).or ((g projectFile).or (g userFile)))) := by
  simp only [all, List.findSome?_cons, List.findSome?_nil]
  cases g options <;> cases g environment <;> cases g askedFile <;> cases g projectFile <;> cases g userFile <;> rfl

/-- The first source that sets something stays the same if others change only behind a source that sets something. -/
theorem findSome?_eq_of_behind {α β : Type} [DecidableEq α] {l : List α} {g g' : α → Option β}
    (h : ∀ a ∈ l, g a ≠ g' a → ∃ b, l.idxOf b < l.idxOf a ∧ (g b).isSome = true) :
    l.findSome? g' = l.findSome? g := by
  induction l with
  | nil => rfl
  | cons a rest ih =>
    have hfirst : g a = g' a := by
      by_contra hne
      obtain ⟨b, hb, -⟩ := h a List.mem_cons_self hne
      rw [List.idxOf_cons_self] at hb
      exact Nat.not_lt_zero _ hb
    rw [List.findSome?_cons, List.findSome?_cons, ← hfirst]
    cases hset : g a with
    | some v => rfl
    | none =>
      refine ih fun c hc hne => ?_
      obtain ⟨b, hb, hsome⟩ := h c (List.mem_cons_of_mem _ hc) hne
      have hba : a ≠ b := by
        rintro rfl
        rw [hset] at hsome
        cases hsome
      have hca : a ≠ c := by
        rintro rfl
        exact hne hfirst
      rw [List.idxOf_cons_ne _ hba, List.idxOf_cons_ne _ hca] at hb
      exact ⟨b, Nat.lt_of_succ_lt_succ hb, hsome⟩

variable {s t : Sources} {stack : Stack} {f : Field}

/-- What the source of a rank sets a setting to. -/
def setBy? (s : Sources) (stack : Stack) (f : Field) : Rank → Option Value
  | .options => optionValue? s.options f
  | .environment => variableValue? s.environment f
  | .askedFile => fileValue? stack s.askedContent? f
  | .projectFile => fileValue? stack s.projectFile f
  | .userFile => fileValue? stack s.userFile f

/-- The settings that sources decide: each has the value of the first source that sets it, or else its default. -/
def resolved (s : Sources) (stack : Stack) : Settings := fun f =>
  (Rank.all.findSome? (s.setBy? stack f)).getD f.default

/-- A setting of a source that a stronger source sets, too. -/
def Masks (s : Sources) (stack : Stack) (f : Field) (rank : Rank) : Prop :=
  ∃ higher : Rank, higher.Outranks rank ∧ (s.setBy? stack f higher).isSome = true

/-! ## Sources that are read -/

/-- Entries with known names. -/
def AreKnown (entries : List (String × Value)) : Prop := ∀ entry ∈ entries, (Field.ofName? entry.1).isSome = true

/-- No entries have no unknown names. -/
theorem areKnown_nil : AreKnown [] := fun _ hentry => absurd hentry List.not_mem_nil

/-- A file that is a table of known settings. -/
def IsSettingsFile (stack : Stack) (content : Bytes) : Prop :=
  ∃ entries, tableOf? stack content = some entries ∧ AreKnown entries

/-- Sources whose files are tables of known settings, whose variables can be converted and whose options have
different names. -/
structure IsReadable (s : Sources) (stack : Stack) : Prop where
  userFile : ∀ content ∈ s.userFile, IsSettingsFile stack content
  projectFile : ∀ content ∈ s.projectFile, IsSettingsFile stack content
  askedFile : ∀ path ∈ s.asked, ∃ content, s.folder.look path = .file content ∧ IsSettingsFile stack content
  environment : ∀ (f : Field) raw, Record.get? (variableName f) s.environment = some raw →
    ∃ v, ofShape f.shape (Blank.trimText raw) = .ok v
  options : (s.options.map Prod.fst).Nodup

/-- Every option with a value sets a known setting or is one of the switches. -/
def HasKnownOptions (s : Sources) : Prop :=
  ∀ entry ∈ s.options, isSet entry.2 = true →
    entry.1 = "quiet" ∨ entry.1 = "verbose" ∨ (Field.ofName? entry.1).isSome = true

/-- A file with a table is read as its entries. -/
theorem ofFile_of_tableOf? {path : String} {content : Bytes} {entries : List (String × Value)}
    (h : tableOf? stack content = some entries) : ofFile stack path content = .ok { values := entries } := by
  unfold tableOf? at h
  split at h
  · cases h
  · next text htext =>
    split at h
    · cases h
    · next root hroot =>
      split at h
      · next htable =>
        cases h
        simp only [ofFile, htext, hroot]
        rw [← triagePart, htable]
        rfl
      · cases h

/-- A file that may be missing is read as what it sets. -/
theorem exists_optionalFile_of_isSettingsFile {path : String} {file : Option Bytes}
    (h : ∀ content ∈ file, IsSettingsFile stack content) :
    ∃ entries, optionalFile stack path file = .ok { values := entries } ∧
      AreKnown entries ∧ ∀ f : Field, f.lastIn entries = fileValue? stack file f := by
  cases file with
  | none => exact ⟨[], rfl, areKnown_nil, fun _ => rfl⟩
  | some content =>
    obtain ⟨entries, htable, hknown⟩ := h content rfl
    refine ⟨entries, ofFile_of_tableOf? htable, hknown, fun f => ?_⟩
    rw [fileValue?, Option.bind_some, htable, Option.bind_some]

/-- The file that was asked for is read as what it sets. -/
theorem IsReadable.exists_askedFile (hs : s.IsReadable stack) :
    ∃ entries, s.askedFile stack = .ok { values := entries } ∧ AreKnown entries ∧
      ∀ f : Field, f.lastIn entries = fileValue? stack s.askedContent? f := by
  cases hasked : s.asked with
  | none =>
    refine ⟨[], ?_, areKnown_nil, fun f => ?_⟩
    · rw [Sources.askedFile, hasked]
    · rw [askedContent?, hasked]
      rfl
  | some path =>
    obtain ⟨content, hlook, entries, htable, hknown⟩ := hs.askedFile path hasked
    have hcontent : s.askedContent? = some content := by
      rw [askedContent?, hasked, Option.bind_some, hlook]
    refine ⟨entries, ?_, hknown, fun f => ?_⟩
    · rw [Sources.askedFile, hasked]
      simp only [hlook]
      exact ofFile_of_tableOf? htable
    · rw [fileValue?, hcontent, Option.bind_some, htable, Option.bind_some]

/-- Variables that can be converted are read as what they set, each for its own setting. -/
theorem exists_ofEnvironment {environment : List (String × String)} {fields : List Field}
    (hread : ∀ f ∈ fields, ∀ raw, Record.get? (variableName f) environment = some raw →
      ∃ v, ofShape f.shape (Blank.trimText raw) = .ok v) (hfields : fields.Nodup) :
    ∃ entries, ofEnvironment environment fields = .ok entries ∧ AreKnown entries ∧
      ∀ f : Field, f.lastIn entries = if f ∈ fields then variableValue? environment f else none := by
  induction fields with
  | nil => exact ⟨[], rfl, areKnown_nil, fun _ => rfl⟩
  | cons g rest ih =>
    rw [List.nodup_cons] at hfields
    obtain ⟨later, hlater, hknown, hvalues⟩ := ih (fun f hf => hread f (List.mem_cons_of_mem _ hf)) hfields.2
    cases hraw : Record.get? (variableName g) environment with
    | none =>
      refine ⟨later, ?_, hknown, fun f => ?_⟩
      · rw [ofEnvironment, hraw]
        exact hlater
      · rw [hvalues]
        by_cases hf : f = g
        · subst hf
          simp [hfields.1, variableValue?, hraw]
        · simp [hf]
    | some raw =>
      obtain ⟨v, hv⟩ := hread g List.mem_cons_self raw hraw
      refine ⟨(g.name, v) :: later, ?_, List.forall_mem_cons.2 ⟨?_, hknown⟩, fun f => ?_⟩
      · rw [ofEnvironment, hraw]
        simp only [hv, hlater]
        rfl
      · cases g <;> rfl
      · rw [Field.lastIn_cons, hvalues]
        by_cases hf : f = g
        · subst hf
          simp [hfields.1, variableValue?, hraw, hv, Except.toOption]
        · have hname : g.name ≠ f.name := fun h => hf (Field.name_injective h).symm
          simp [hf, hname]

/-- Entries in which a switch, if it is on, has set the verbosity. -/
def switched (on : Bool) (word : String) (entries : List (String × Value)) : List (String × Value) :=
  if on then Record.put "verbosity" (.text word) entries else entries

/-- A switch leaves names different. -/
theorem nodup_switched {on : Bool} {word : String} {entries : List (String × Value)}
    (h : (entries.map Prod.fst).Nodup) : ((switched on word entries).map Prod.fst).Nodup := by
  cases on with
  | false => exact h
  | true => exact Record.nodup_put h

/-- After a switch entries set the verbosity or are those that were there. -/
theorem mem_of_mem_switched {on : Bool} {word : String} {entries : List (String × Value)} {entry : String × Value}
    (h : entry ∈ switched on word entries) : entry.1 = "verbosity" ∨ entry ∈ entries := by
  cases on with
  | false => exact .inr h
  | true => exact (Record.mem_of_mem_put h).imp_left fun heq => congrArg Prod.fst heq

/-- A switch sets the verbosity and nothing else. -/
theorem get?_switched (on : Bool) (word : String) (entries : List (String × Value)) (f : Field) :
    Record.get? f.name (switched on word entries) =
      if f = .verbosity ∧ on = true then some (.text word) else Record.get? f.name entries := by
  have hverbosity : f.name = "verbosity" ↔ f = .verbosity :=
    ⟨fun hname => Field.name_injective (g := .verbosity) hname, fun hf => hf ▸ rfl⟩
  cases on with
  | false => simp [switched]
  | true =>
    rw [switched, if_pos rfl, Record.get?_put]
    simp only [hverbosity, and_true]

/-- Options with different names are read as what they set. -/
theorem lastIn_ofOptions {options : List (String × Value)} (h : (options.map Prod.fst).Nodup) (f : Field) :
    f.lastIn (ofOptions options) = optionValue? options f := by
  let plain := Record.erase "quiet" (Record.erase "verbose" options)
  let final := switched (isOn "quiet" options) "quiet" (switched (isOn "verbose" options) "verbose" plain)
  have hplain : Record.get? f.name plain = Record.get? f.name options := by
    -- The names of the switches are those of no setting.
    have hquiet : f.name ≠ "quiet" := by cases f <;> decide
    have hverbose : f.name ≠ "verbose" := by cases f <;> decide
    rw [Record.get?_erase_of_ne hquiet, Record.get?_erase_of_ne hverbose]
  have hfinal : (final.map Prod.fst).Nodup :=
    nodup_switched (nodup_switched (h.sublist ((List.filter_sublist.trans List.filter_sublist).map Prod.fst)))
  calc f.lastIn (ofOptions options)
      = Record.get? f.name (final.filter fun entry => isSet entry.2) :=
        Field.lastIn_of_nodup (hfinal.sublist (List.filter_sublist.map Prod.fst))
    _ = (Record.get? f.name final).filter isSet := Record.get?_filter hfinal
    _ = optionValue? options f := by
        rw [get?_switched, get?_switched, hplain, optionValue?]
        split
        · rfl
        · split <;> rfl

/-- Options that set something are known if they are given as known. -/
theorem areKnown_ofOptions (h : s.HasKnownOptions) : AreKnown (ofOptions s.options) := by
  intro entry hentry
  obtain ⟨hfinal, hset⟩ := List.mem_filter.1 hentry
  -- An entry is the verbosity that a switch has set, or an option that is no switch.
  rcases mem_of_mem_switched hfinal with hname | hloud
  · exact hname ▸ rfl
  · rcases mem_of_mem_switched hloud with hname | hplain
    · exact hname ▸ rfl
    · obtain ⟨hverbose, hquiet⟩ := List.mem_filter.1 hplain
      obtain ⟨hoption, hverbose⟩ := List.mem_filter.1 hverbose
      rcases h entry hoption hset with hname | hname | hknown
      · exact absurd hname (of_decide_eq_true hquiet)
      · exact absurd hname (of_decide_eq_true hverbose)
      · exact hknown

/-! ## Merging -/

/-- Names are known after known entries were put. -/
theorem areKnown_putAll {entries r : List (String × Value)} (hentries : AreKnown entries) (hr : AreKnown r) :
    AreKnown (Record.putAll entries r) := by
  intro entry hentry
  have hkey : entry.1 ∈ (Record.putAll entries r).map Prod.fst := List.mem_map_of_mem hentry
  rcases Record.mem_keys_putAll.1 hkey with h | h
  · obtain ⟨known, hmem, heq⟩ := List.mem_map.1 h
    exact heq ▸ hentries known hmem
  · obtain ⟨known, hmem, heq⟩ := List.mem_map.1 h
    exact heq ▸ hr known hmem

/-- Readable sources are merged into a record of the settings that they decide. -/
theorem IsReadable.exists_record (hs : s.IsReadable stack) : ∃ values, s.record stack = .ok { values := values } ∧
    Settings.merged values = s.resolved stack ∧ (s.HasKnownOptions → AreKnown values) := by
  obtain ⟨user, huser, huserKnown, huserValues⟩ := exists_optionalFile_of_isSettingsFile hs.userFile
  obtain ⟨project, hproject, hprojectKnown, hprojectValues⟩ := exists_optionalFile_of_isSettingsFile hs.projectFile
  obtain ⟨asked, hasked, haskedKnown, haskedValues⟩ := hs.exists_askedFile
  obtain ⟨environment, henvironment, henvironmentKnown, henvironmentValues⟩ :=
    exists_ofEnvironment (fun f _ => hs.environment f) (by decide : Field.all.Nodup)
  refine ⟨Record.putAll (ofOptions s.options) (Record.putAll environment
    (Record.putAll asked (Record.putAll project (Record.putAll user [])))), ?_, ?_, fun hknown => ?_⟩
  · rw [record, huser, hproject, hasked, henvironment]
    rfl
  · funext f
    simp only [Settings.merged, resolved, Rank.findSome?_all, setBy?, Field.get?_putAll_name, Record.get?,
      Option.or_none, lastIn_ofOptions hs.options, henvironmentValues, if_pos f.mem_all, haskedValues,
      hprojectValues, huserValues]
  · exact areKnown_putAll (areKnown_ofOptions hknown) (areKnown_putAll henvironmentKnown
      (areKnown_putAll haskedKnown (areKnown_putAll hprojectKnown (areKnown_putAll huserKnown areKnown_nil))))

/-- Loading readable sources checks and returns the settings that they decide. -/
theorem load_eq_of_isReadable (hs : s.IsReadable stack) (hknown : s.HasKnownOptions) :
    s.load stack = told (do Settings.validate (s.resolved stack) stack; return s.resolved stack) := by
  obtain ⟨values, hrecord, hmerged, hvalues⟩ := hs.exists_record
  have hfind : values.find? (fun entry => (Field.ofName? entry.1).isNone) = none := by
    simpa [AreKnown, Option.isSome_iff_ne_none] using hvalues hknown
  rw [load_eq, hrecord, ← hmerged]
  change told (Settings.ofRecord values stack) = _
  rw [Settings.ofRecord]
  split
  · next h => rw [hfind] at h; cases h
  · rfl

/-- Settings that are loaded from readable sources are those that the sources decide. -/
theorem eq_resolved_of_load (hs : s.IsReadable stack) {settings : Settings} (h : s.load stack = .ok settings) :
    settings = s.resolved stack := by
  obtain ⟨values, hrecord, hmerged, -⟩ := hs.exists_record
  rw [load_eq, hrecord] at h
  rw [← hmerged]
  exact (ofRecord_eq_ok (eq_of_told_eq_ok h)).1

/-- Sources that differ only where a stronger source is heard decide the same. -/
theorem resolved_eq_of_masks (h : ∀ f rank, s.setBy? stack f rank ≠ t.setBy? stack f rank → s.Masks stack f rank) :
    t.resolved stack = s.resolved stack := by
  funext f
  rw [resolved, resolved, findSome?_eq_of_behind fun rank _ => h f rank]

/-- Loading takes every setting from the first source that sets it. A source that changes at one setting changes no
other one, and one that changes where a stronger source is heard changes nothing, not even whether settings are
accepted. -/
theorem load_by_priority (hs : s.IsReadable stack) (ht : t.IsReadable stack) :
    (∀ settings, s.load stack = .ok settings →
      ∀ f, settings f = (Rank.all.findSome? (s.setBy? stack f)).getD f.default) ∧
    (∀ settings settings', s.load stack = .ok settings → t.load stack = .ok settings' →
      ∀ f, (∀ rank, s.setBy? stack f rank = t.setBy? stack f rank) → settings f = settings' f) ∧
    (s.HasKnownOptions → t.HasKnownOptions →
      (∀ f rank, s.setBy? stack f rank ≠ t.setBy? stack f rank → s.Masks stack f rank) → t.load stack = s.load stack) ∧
    (∀ raw, Record.get? "TRIAGE_WORKERS" s.environment = some raw → Blank.trimText raw = "" →
      s.setBy? stack .workers .environment = some .null) := by
  refine ⟨?_, ?_, ?_, ?_⟩
  · intro settings h f
    rw [eq_resolved_of_load hs h, resolved]
  · intro settings settings' h h' f hsame
    rw [eq_resolved_of_load hs h, eq_resolved_of_load ht h', resolved, resolved, funext hsame]
  · intro hsknown htknown hmasks
    rw [load_eq_of_isReadable hs hsknown, load_eq_of_isReadable ht htknown, resolved_eq_of_masks hmasks]
  · intro raw hraw hblank
    have hname : variableName .workers = "TRIAGE_WORKERS" := by decide +kernel
    rw [setBy?, variableValue?, hname, hraw, Option.bind_some, hblank]
    rfl

/-! ## A value out of bounds -/

/-- Sources with a user's file behind a project's file that sets the number of workers, a variable and options. -/
def withUserFile (user : String) : Sources where
  userFile := some (Utf8.encode user)
  projectFile := some (Utf8.encode "[triage]\nworkers = 3\n")
  environment := [("TRIAGE_GIT_MAX_COMMITS", " 12 ")]
  options := [("quiet", .bool true), ("verbosity", .text "verbose"), ("workers", .null)]

/-- The sources around a user's file are readable. -/
theorem isReadable_withUserFile {user : String} {entries : List (String × Value)}
    (h : tableOf? {} (Utf8.encode user) = some entries) (hknown : AreKnown entries) :
    (withUserFile user).IsReadable {} where
  userFile := by
    rintro content ⟨⟩
    exact ⟨entries, h, hknown⟩
  projectFile := by
    rintro content ⟨⟩
    exact ⟨[("workers", .int 3)], by cbv, by simp [AreKnown, Field.ofName?, Field.all, Field.name]⟩
  askedFile := nofun
  environment := by
    intro f raw hraw
    obtain ⟨hname, rfl⟩ := Prod.mk.inj (List.mem_singleton.1 (Record.mem_of_get? hraw))
    have hf : f = .gitMaxCommits := by
      revert hname
      cases f <;> decide +kernel
    subst hf
    exact exists_eq_ok_of_isOk (by decide +kernel)
  options := by
    change ["quiet", "verbosity", "workers"].Nodup
    decide

/-- The options around a user's file are known. -/
theorem hasKnownOptions_withUserFile (user : String) : (withUserFile user).HasKnownOptions := by
  intro entry hentry _
  simp only [withUserFile, List.mem_cons, List.not_mem_nil, or_false] at hentry
  rcases hentry with rfl | rfl | rfl
  · exact .inl rfl
  · exact .inr (.inr rfl)
  · exact .inr (.inr rfl)

/-- A number of workers that is out of bounds in the user's file is not heard, while the same file is heard at another
setting. -/
theorem load_by_priority_masked : ∃ settings,
    (withUserFile "workers = 0\nrename_limit = 7\n").load = .ok settings ∧
    (withUserFile "rename_limit = 7\n").load = .ok settings ∧
    (settings .workers).number? = some (.whole 3) ∧ (settings .renameLimit).number? = some (.whole 7) := by
  have htable : tableOf? {} (Utf8.encode "workers = 0\nrename_limit = 7\n") =
      some [("workers", .int 0), ("rename_limit", .int 7)] := by cbv
  have htable' : tableOf? {} (Utf8.encode "rename_limit = 7\n") = some [("rename_limit", .int 7)] := by cbv
  have hs := isReadable_withUserFile htable (by simp [AreKnown, Field.ofName?, Field.all, Field.name])
  have ht := isReadable_withUserFile htable' (by simp [AreKnown, Field.ofName?, Field.all, Field.name])
  obtain ⟨settings, hload⟩ : ∃ settings, (withUserFile "workers = 0\nrename_limit = 7\n").load = .ok settings :=
    exists_eq_ok_of_isOk (by decide +kernel)
  obtain ⟨hvalues, -, hmasked, -⟩ := load_by_priority hs ht
  refine ⟨settings, hload, ?_, ?_, ?_⟩
  · rw [← hload]
    refine hmasked (hasKnownOptions_withUserFile _) (hasKnownOptions_withUserFile _) fun f rank hdiffers => ?_
    cases rank with
    | userFile =>
      -- The two user's files differ at the number of workers only, which the project's file sets as well.
      have hf : f = .workers := by
        by_contra hf
        have hname : "workers" ≠ f.name := fun h => hf (Field.name_injective (g := .workers) h.symm)
        refine hdiffers ?_
        simp only [setBy?, fileValue?, withUserFile, Option.bind_some, htable, htable', Field.lastIn_cons,
          if_neg hname, Option.or_none]
      subst hf
      exact ⟨.projectFile, by unfold Rank.Outranks; decide, by decide +kernel⟩
    | _ => exact absurd rfl hdiffers
  all_goals
    rw [hvalues settings hload]
    decide +kernel

end Sources

end Hotspots
