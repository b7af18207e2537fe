import Hotspots.Config.Document
import Hotspots.Config.Folder
import Hotspots.Config.Settings

/-!
# Where settings come from

Settings are merged from up to five sources. For each setting the last source that sets it decides, in
the order: the user's file, the project's file, a file that was asked for, the environment, and the
options of the call. An option without a value sets nothing.
-/

namespace Hotspots

/-- What a source sets: names with values, and whether it also uses keys that are no names. -/
structure Source.Entries where
  values : List (String × Value) := []
  oddKeys : Bool := false

/-- The sources of settings. -/
structure Sources where
  /-- The content of the user's file. -/
  userFile : Option Bytes := none
  /-- The content of the project's file. -/
  projectFile : Option Bytes := none
  /-- The files of the folder that the program runs in. -/
  folder : Folder := []
  /-- The path of a file that was asked for. -/
  asked : Option String := none
  /-- The variables of the environment. -/
  environment : List (String × String) := []
  /-- The options of the call. -/
  options : List (String × Value) := []

namespace Sources

/-- Whether a value can be a key. -/
def canBeKey : Value → Bool
  | .list _ => false
  | .table _ => false
  | _ => true

/-- Reads a list of pairs of a key and a value, from the element of a given index on. -/
def ofPairs : Nat → List Value → Except Fault Source.Entries
  | _, [] => .ok {}
  | index, item :: rest =>
    match item.elements? with
    | none => .error (.notASequence index)
    | some [key, value] =>
      if canBeKey key then do
        let later ← ofPairs (index + 1) rest
        match key with
        | .text name => return { later with values := (name, value) :: later.values }
        | _ => return { later with oddKeys := true }
      else .error (.unhashable key.kind)
    | some parts => .error (.notAPair index parts.length)

/-- What a value sets: the entries of a table, or a list of pairs. -/
def entriesOf (v : Value) : Except Fault Source.Entries :=
  match v with
  | .table entries => .ok { values := entries }
  | v =>
    match v.elements? with
    | some items => ofPairs 0 items
    | none => .error (.notIterable v.kind)

/-- Reads the content of a settings file, which is shown under a path in failures. Its part for this
tool is its `triage` table if it has one. -/
def ofFile (stack : Stack) (shownPath : String) (content : Bytes) : Except Failure Source.Entries :=
  match Utf8.decode content with
  | .error m => .error (.fault (.ofMalformed m))
  | .ok text =>
    match Document.ofText text stack with
    | .error .malformed => .error (.configuration ("Invalid config file '" ++ shownPath ++ "'"))
    | .error (.tooManyDigits count) => .error (.fault (.tooManyDigits count))
    | .error (.tooDeep words) => .error (.fault (.stackEnded words))
    | .ok root => (entriesOf ((Record.get? "triage" root).getD (.table root))).mapError .fault

/-- The text of a list in the environment: parts between commas, without blanks around them. -/
def textsOf (s : String) : List String :=
  (((Pieces.splitOn ',' s.toList).map Blank.trim).filter (!·.isEmpty)).map String.ofList

/-- Reads a text of the environment as a value of a shape. -/
def ofShape (shape : Field.Shape) (s : String) : Except Fault Value :=
  match shape with
  | .optionalWhole => if s.isEmpty then .ok .null else (Reading.wholeOfText s).map .int
  | .whole => (Reading.wholeOfText s).map .int
  | .real => (Reading.realOfText s).map .float
  | .texts => .ok (.list ((textsOf s).map .text))
  | .choice names =>
    if names.contains s then .ok (.text s)
    else .error (.other "ValueError"
      ("expected one of " ++ ", ".intercalate names ++ ", got '" ++ s ++ "'"))

/-- The variable of the environment that sets a setting. -/
def variableName (f : Field) : String := "TRIAGE_" ++ f.name.toUpper

/-- What the environment sets. -/
def ofEnvironment (environment : List (String × String)) :
    List Field → Except Failure (List (String × Value))
  | [] => .ok []
  | f :: rest =>
    match Record.get? (variableName f) environment with
    | none => ofEnvironment environment rest
    | some raw =>
      match ofShape f.shape (Blank.trimText raw) with
      | .error e => .error (.configuration ("Invalid " ++ variableName f ++ ": " ++ e.message))
      | .ok v => (ofEnvironment environment rest).map ((f.name, v) :: ·)

/-- Whether a value is there. -/
def isSet : Value → Bool
  | .null => false
  | _ => true

/-- Whether an option is switched on. -/
def isOn (name : String) (options : List (String × Value)) : Bool :=
  !((Record.get? name options).getD (.bool false)).isFalsy

/-- What the options of the call set; the switches for loud and silent runs set the verbosity. -/
def ofOptions (options : List (String × Value)) : List (String × Value) :=
  let plain := Record.erase "quiet" (Record.erase "verbose" options)
  let loud := if isOn "verbose" options then Record.put "verbosity" (.text "verbose") plain else plain
  let final := if isOn "quiet" options then Record.put "verbosity" (.text "quiet") loud else loud
  final.filter fun (_, v) => isSet v

/-- The content of the file that was asked for. -/
def askedFile (s : Sources) (stack : Stack) : Except Failure Source.Entries :=
  match s.asked with
  | none => .ok {}
  | some path =>
    match s.folder.look path with
    | .absent => .error (.configuration ("Config file not found: " ++ PathName.tidy path))
    | .folder =>
      .error (.configuration ("Invalid config file '" ++ PathName.tidy path ++ "'"))
    | .untold => .error (.fault (Folder.tooLong path))
    | .file content => ofFile stack (PathName.tidy path) content

/-- A file that may be missing. -/
def optionalFile (stack : Stack) (shownPath : String) : Option Bytes → Except Failure Source.Entries
  | none => .ok {}
  | some content => ofFile stack shownPath content

/-- The record that the sources make together, and whether one of them uses keys that are no names. -/
def record (s : Sources) (stack : Stack) : Except Failure Source.Entries := do
  let user ← optionalFile stack "~/.refactor-triage.toml" s.userFile
  let project ← optionalFile stack "<cwd>/refactor-triage.toml" s.projectFile
  let asked ← s.askedFile stack
  let environment ← ofEnvironment s.environment Field.all
  let inFiles := Record.putAll asked.values (Record.putAll project.values
    (Record.putAll user.values []))
  return { values := Record.putAll (ofOptions s.options) (Record.putAll environment inFiles)
           oddKeys := user.oddKeys || project.oddKeys || asked.oddKeys }

/-- The settings that the sources describe together. -/
def load (s : Sources) (stack : Stack := {}) : Except Failure Settings := do
  let merged ← s.record stack
  let built := if merged.oddKeys then .error (.fault (.other "TypeError" "keywords must be strings"))
    else Settings.ofRecord merged.values stack
  match built with
  | .error (.fault f) =>
    if f.isKindFault then .error (.configuration ("Invalid configuration: " ++ f.message))
    else .error (.fault f)
  | other => other

end Sources

end Hotspots
