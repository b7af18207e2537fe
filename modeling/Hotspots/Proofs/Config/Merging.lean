import Hotspots.Config.Sources
import Hotspots.Proofs.Record.Lookup
import Hotspots.Proofs.Run.Returns

/-!
# How sources are merged

Settings that are loaded are merged from parts, one for each source (`exists_parts_of_load`), and have, for each
setting, the value of the last part that sets it, or else the default (`Parts.merged_values`).
-/

namespace Hotspots

/-- The last value that entries have for a setting. -/
def Field.lastIn (f : Field) (entries : List (String × Value)) : Option Value :=
  (entries.reverse.find? fun entry => entry.1 = f.name).map Prod.snd

namespace Field

variable {f : Field} {entries : List (String × Value)} {v : Value}

/-- The last value for a setting is one of the entries. -/
theorem mem_of_lastIn (h : f.lastIn entries = some v) : (f.name, v) ∈ entries := by
  obtain ⟨⟨name, v'⟩, hfind, rfl⟩ := Option.map_eq_some_iff.1 h
  have hname : name = f.name := by simpa using List.find?_some hfind
  rw [← hname]
  exact List.mem_reverse.1 (List.mem_of_find?_eq_some hfind)

/-- The last value for a setting is that of the first entry if no other entry has one. -/
theorem lastIn_cons {entry : String × Value} : f.lastIn (entry :: entries) =
    (f.lastIn entries).or (if entry.1 = f.name then some entry.2 else none) := by
  rw [lastIn, lastIn, List.reverse_cons, List.find?_append]
  by_cases h : entry.1 = f.name
  · cases entries.reverse.find? fun e => decide (e.1 = f.name) <;> simp [h]
  · cases entries.reverse.find? fun e => decide (e.1 = f.name) <;> simp [h]

/-- Entries that were put last count first. -/
theorem get?_putAll_name (r : List (String × Value)) :
    Record.get? f.name (Record.putAll entries r) = (f.lastIn entries).or (Record.get? f.name r) :=
  Record.get?_putAll f.name entries r

/-- Of entries with different names each is the last one for its setting. -/
theorem lastIn_of_nodup (h : (entries.map Prod.fst).Nodup) : f.lastIn entries = Record.get? f.name entries := by
  have hput : Record.get? f.name (Record.putAll entries []) = (f.lastIn entries).or (Record.get? f.name []) :=
    get?_putAll_name []
  rwa [Record.putAll_nil h, Record.get?, Option.or_none, eq_comm] at hput

end Field

namespace Sources

/-- What sources set that are loaded: the entries of each of them, in the order of their rank. -/
structure Parts (s : Sources) (stack : Stack := {}) where
  user : Source.Entries
  project : Source.Entries
  asked : Source.Entries
  environment : List (String × Value)
  ofUser : optionalFile stack "~/.refactor-triage.toml" s.userFile = .ok user
  ofProject : optionalFile stack "<cwd>/refactor-triage.toml" s.projectFile = .ok project
  ofAsked : s.askedFile stack = .ok asked
  ofVariables : ofEnvironment s.environment Field.all = .ok environment

namespace Parts

variable {s : Sources} {stack : Stack}

/-- The record that the parts make together. -/
def values (p : Parts s stack) : List (String × Value) :=
  Record.putAll (ofOptions s.options) (Record.putAll p.environment
    (Record.putAll p.asked.values (Record.putAll p.project.values (Record.putAll p.user.values []))))

/-- The value of a setting: that of the last source that sets it. -/
def value? (p : Parts s stack) (f : Field) : Option Value :=
  (f.lastIn (ofOptions s.options)).or <| (f.lastIn p.environment).or <| (f.lastIn p.asked.values).or <|
    (f.lastIn p.project.values).or (f.lastIn p.user.values)

/-- Merged settings have the value of the last source that sets them, or else the default. -/
theorem merged_values (p : Parts s stack) (f : Field) : Settings.merged p.values f = (p.value? f).getD f.default := by
  simp only [Settings.merged, values, value?, Field.get?_putAll_name, Record.get?, Option.or_none]

end Parts

/-- What is told of settings that could not be built: a value of a wrong kind is a failure of the settings. -/
def told (built : Except Failure Settings) : Except Failure Settings :=
  match built with
  | .error (.fault f) =>
    if f.isKindFault then .error (.configuration ("Invalid configuration: " ++ f.message)) else .error (.fault f)
  | other => other

/-- Settings are loaded in two steps: the sources are merged, and the settings are built from them. -/
theorem load_eq (s : Sources) (stack : Stack) : s.load stack = s.record stack >>= fun merged =>
    told (if merged.oddKeys then .error (.fault (.other "TypeError" "keywords must be strings"))
      else Settings.ofRecord merged.values stack) := rfl

/-- A record that describes settings holds their values, and these are checked. -/
theorem ofRecord_eq_ok {record : List (String × Value)} {stack : Stack} {settings : Settings}
    (h : Settings.ofRecord record stack = .ok settings) :
    settings = Settings.merged record ∧ Settings.validate settings stack = .ok () := by
  unfold Settings.ofRecord at h
  split at h
  · cases h
  · obtain ⟨u, hvalidate, h⟩ := bind_eq_ok.1 h
    cases h
    exact ⟨rfl, hvalidate⟩

/-- Settings that are told were built. -/
theorem eq_of_told_eq_ok {built : Except Failure Settings} {settings : Settings} (h : told built = .ok settings) :
    built = .ok settings := by
  unfold told at h
  split at h
  · split at h <;> cases h
  · exact h

/-- Settings that are loaded were merged from parts that are read, and checked. -/
theorem exists_parts_of_load {s : Sources} {stack : Stack} {settings : Settings} (h : s.load stack = .ok settings) :
    ∃ p : Parts s stack, settings = Settings.merged p.values ∧ Settings.validate settings stack = .ok () := by
  rw [load_eq] at h
  obtain ⟨merged, hmerged, h⟩ := bind_eq_ok.1 h
  obtain ⟨user, huser, hmerged⟩ := bind_eq_ok.1 hmerged
  obtain ⟨project, hproject, hmerged⟩ := bind_eq_ok.1 hmerged
  obtain ⟨asked, hasked, hmerged⟩ := bind_eq_ok.1 hmerged
  obtain ⟨environment, henvironment, hmerged⟩ := bind_eq_ok.1 hmerged
  cases hmerged
  refine ⟨⟨user, project, asked, environment, huser, hproject, hasked, henvironment⟩, ?_⟩
  have hbuilt := eq_of_told_eq_ok h
  split at hbuilt
  · cases hbuilt
  · exact ofRecord_eq_ok hbuilt

end Sources

end Hotspots
