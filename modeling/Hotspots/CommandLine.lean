import Hotspots.Config.Sources
import Hotspots.Git.Recording
import Hotspots.Logging
import Hotspots.Report.Csv
import Hotspots.Report.Json
import Hotspots.Report.Terminal
import Hotspots.Triage

/-!
# The command line

The command line takes one path and options. A long option stands after two hyphens and may have its value
after an equals sign; short options are single letters after one hyphen, several of which may stand together,
and the rest of the word is the value of the first that takes one. Everything after a bare pair of hyphens is a
path. Of an option that is given more than once the last value counts.

A word that cannot be understood is a usage error with exit code 2. Failures of this tool are printed and give
exit code 1, an interruption gives 130, and any other failure leaves the program.
-/

namespace Hotspots.CommandLine

/-- The options. -/
inductive OptionName where
  | revision
  | top
  | format
  | config
  | workers
  | maxCommits
  | verbose
  | quiet
  | version
  | help
  deriving DecidableEq, Repr

namespace OptionName

/-- Every option. -/
def all : List OptionName :=
  [revision, top, format, config, workers, maxCommits, verbose, quiet, version, help]

/-- The name of an option after two hyphens. -/
def long : OptionName → String
  | revision => "revision"
  | top => "top"
  | format => "format"
  | config => "config"
  | workers => "workers"
  | maxCommits => "max-commits"
  | verbose => "verbose"
  | quiet => "quiet"
  | version => "version"
  | help => "help"

/-- The letter of an option after one hyphen. -/
def short? : OptionName → Option Char
  | revision => some 'r'
  | top => some 't'
  | format => some 'f'
  | config => some 'c'
  | workers => some 'w'
  | verbose => some 'v'
  | quiet => some 'q'
  | _ => none

/-- Whether an option takes a value. -/
def takesValue : OptionName → Bool
  | verbose => false
  | quiet => false
  | version => false
  | help => false
  | _ => true

end OptionName

/-- The words of a command line, sorted: values of options, oldest first, and paths. -/
structure Words where
  values : List (OptionName × String) := []
  paths : List String := []
  deriving Repr

/-- The option with a name. -/
def longOption? (name : List Char) : Option OptionName := OptionName.all.find? fun o => o.long.toList == name

/-- The option with a letter. -/
def shortOption? (letter : Char) : Option OptionName := OptionName.all.find? fun o => o.short? == some letter

/-- The letters of a word, and the words after it: the values that they set and the words that are left; `none`
is a usage error. -/
def readLetters : List Char → List String → Option (List (OptionName × String) × List String)
  | [], words => some ([], words)
  | letter :: rest, words =>
    match shortOption? letter with
    | none => none
    | some o =>
      if o.takesValue then
        if rest.isEmpty then
          match words with
          | [] => none
          | value :: more => some ([(o, value)], more)
        else some ([(o, String.ofList rest)], words)
      else (readLetters rest words).map fun (values, left) => ((o, "") :: values, left)

/-- Reading letters takes no word back. -/
theorem readLetters_length {letters : List Char} {words left : List String}
    {values : List (OptionName × String)} (h : readLetters letters words = some (values, left)) :
    left.length ≤ words.length := by
  induction letters generalizing values left with
  | nil =>
    simp only [readLetters, Option.some.injEq, Prod.mk.injEq] at h
    exact Nat.le_of_eq (congrArg List.length h.2.symm)
  | cons letter rest ih =>
    unfold readLetters at h
    split at h
    · cases h
    · split at h
      · split at h
        · split at h
          · cases h
          · cases h; simp
        · cases h; exact Nat.le_refl _
      · rw [Option.map_eq_some_iff] at h
        obtain ⟨⟨values', left'⟩, hrest, heq⟩ := h
        cases heq
        exact ih hrest

/-- A long option, the value after an equals sign if there is one, and the words after it. -/
def readLong (name : List Char) (value : Option (List Char)) (words : List String) :
    Option (List (OptionName × String) × List String) :=
  match longOption? name with
  | none => none
  | some o =>
    match o.takesValue, value with
    | true, some v => some ([(o, String.ofList v)], words)
    | true, none =>
      match words with
      | [] => none
      | v :: more => some ([(o, v)], more)
    | false, some _ => none
    | false, none => some ([(o, "")], words)

/-- Reading a long option takes no word back. -/
theorem readLong_length {name : List Char} {value : Option (List Char)} {words left : List String}
    {values : List (OptionName × String)} (h : readLong name value words = some (values, left)) :
    left.length ≤ words.length := by
  unfold readLong at h
  split at h
  · cases h
  · split at h
    · cases h; exact Nat.le_refl _
    · split at h
      · cases h
      · cases h; simp
    · cases h
    · cases h; exact Nat.le_refl _

/-- A word that begins with a hyphen, without it, and the words after it. -/
def readOption (word : List Char) (words : List String) :
    Option (List (OptionName × String) × List String) :=
  match word with
  | '-' :: name =>
    if name.contains '=' then
      let (name, value) := Pieces.partition '=' name
      readLong name (some value) words
    else readLong name none words
  | letters => readLetters letters words

/-- Reading an option takes no word back. -/
theorem readOption_length {word : List Char} {words left : List String} {values : List (OptionName × String)}
    (h : readOption word words = some (values, left)) : left.length ≤ words.length := by
  unfold readOption at h
  split at h
  · split at h <;> exact readLong_length h
  · exact readLetters_length h

/-- Sorts words; `none` is a usage error. -/
def sortWords (words : List String) : Option Words :=
  match words with
  | [] => some {}
  | word :: rest =>
    match word.toList with
    | ['-', '-'] => some { paths := rest }
    | '-' :: c :: cs =>
      match h : readOption (c :: cs) rest with
      | none => none
      | some (values, left) =>
        have : left.length ≤ rest.length := readOption_length h
        (sortWords left).map fun w => { w with values := values ++ w.values }
    | _ => (sortWords rest).map fun w => { w with paths := word :: w.paths }
termination_by words.length

/-! ## The request -/

/-- What a command line asks for. -/
structure Request where
  path : String := "."
  revision : String := "HEAD"
  top : Int := 20
  format : String := "rich"
  config : Option String := none
  workers : Option Int := none
  maxCommits : Option Int := none
  verbose : Bool := false
  quiet : Bool := false
  version : Bool := false
  deriving Repr

/-- The last value of an option. -/
def Words.value? (w : Words) (o : OptionName) : Option String :=
  (w.values.reverse.find? fun e => e.1 == o).map Prod.snd

/-- Whether a switch is given. -/
def Words.isOn (w : Words) (o : OptionName) : Bool := (w.value? o).isSome

/-- A whole number in a range; the range may have no upper end. -/
def wholeIn (low : Int) (high : Option Int) (s : String) : Option Int :=
  match Reading.wholeOfText s with
  | .ok i => if low ≤ i && high.all (i ≤ ·) then some i else none
  | .error _ => none

/-- An optional value, read if it is there; `none` if it cannot be read. -/
def readValue {α : Type} (read : String → Option α) : Option String → Option (Option α)
  | none => some none
  | some s => (read s).map some

/-- Whether a path is written as that of a folder. -/
def isFolderPath (path : String) : Bool := path.endsWith "/" || path.endsWith "/."

/-- The path of a file that exists. -/
def existingFile (folder : Folder) (path : String) : Option String :=
  match folder.look path with
  | .file _ => if isFolderPath path || PathName.isLongPath path then none else some path
  | _ => none

/-- A path that is not the path of a file. -/
def notAFile (folder : Folder) (path : String) : Option String :=
  match existingFile folder path with
  | some _ => none
  | none => some path

/-- The request of sorted words; `none` is a usage error. -/
def requestOfWords (folder : Folder) (w : Words) : Option Request := do
  let path ← match w.paths with
    | [] => some "."
    | [path] => notAFile folder path
    | _ => none
  let top ← readValue (wholeIn 1 (some 10000)) (w.value? .top)
  let config ← readValue (existingFile folder) (w.value? .config)
  let workers ← readValue (wholeIn 1 (some 32)) (w.value? .workers)
  let maxCommits ← readValue (wholeIn 0 none) (w.value? .maxCommits)
  return { path := path
           revision := (w.value? .revision).getD "HEAD"
           top := top.getD 20
           format := (w.value? .format).getD "rich"
           config := config
           workers := workers
           maxCommits := maxCommits
           verbose := w.isOn .verbose
           quiet := w.isOn .quiet
           version := w.isOn .version }

/-! ## The run -/

/-- What a run prints on standard output, its exit code, and the failure that left the program, if one did. -/
structure Result where
  exitCode : Nat
  output : String := ""
  raised : Option Failure := none
  deriving Repr

/-- The version of this tool. -/
def version : String := "0.1.0"

/-- A run that ends with a printed text. -/
def ended (exitCode : Nat) (markup : String) : Result :=
  match Terminal.printed markup with
  | .ok output => { exitCode := exitCode, output := output }
  | .error e => { exitCode := 1, raised := some (.fault e) }

/-- A run that ends with a printed failure. -/
def failed (text : String) : Result := ended 1 ("[red]Error:[/red] " ++ text)

/-- A usage error. -/
def usageError : Result := { exitCode := 2 }

/-- The formats of the output, in order. -/
def formats : List String := ["csv", "json", "rich"]

/-- A work-list in the format that is asked for. -/
def shown (r : Request) (items : List WorkItem) : Except Failure Result :=
  if r.format = "json" then .ok { exitCode := 0, output := Worklist.json items ++ "\n" }
  else if r.format = "csv" then .ok { exitCode := 0, output := Worklist.csv items }
  else if items.isEmpty then .ok (ended 0 "[bold green]No disharmonies detected[/bold green]")
  else
    match Terminal.table (Worklist.table items r.top) with
    | .ok output => .ok { exitCode := 0, output := output }
    | .error e => .error (.fault e)

/-- The sources of the settings, with the options of a request. -/
def sourcesOf (r : Request) (sources : Sources) : Sources :=
  { sources with
    asked := r.config
    options := [("workers", (r.workers.map .int).getD .null),
      ("git_max_commits", (r.maxCommits.map .int).getD .null),
      ("verbose", .bool r.verbose), ("quiet", .bool r.quiet)] }

/-- Settings whose verbosity can be used. -/
def settingsOf (r : Request) (sources : Sources) : Except Failure Settings := do
  let settings ← (sourcesOf r sources).load
  let _ ← (Logging.levelFor r.verbose r.quiet (settings .verbosity)).mapError Failure.fault
  return settings

/-- The output of an analysis. -/
def analysis (r : Request) (sources : Sources) (repository : Repository) : Except Failure Result := do
  let settings ← settingsOf r sources
  let items ← ((Triage.ofSettings settings).calculate repository r.path r.revision).run.run {} |>.1
  shown r items

/-- Answers a request. -/
def answer (r : Request) (sources : Sources) (repository : Repository) : Result :=
  if r.version then
    ended 0 ("[bold cyan]refactor-triage[/bold cyan] version [green]" ++ version ++ "[/green]")
  else if r.verbose && r.quiet then failed "--verbose and --quiet are mutually exclusive"
  else if !formats.contains r.format then
    failed ("--format must be one of: " ++ ", ".intercalate formats)
  else
    match analysis r sources repository with
    | .ok result => result
    | .error (.triage e) => failed e.message
    | .error .interrupted => ended 130 "\n[yellow]Analysis interrupted[/yellow]"
    | .error e => { exitCode := 1, raised := some e }

/-- What is printed for help. -/
def help : String :=
  "\n".intercalate
    ["Usage: refactor-triage [OPTIONS] [PATH]", "",
     "Rank files that are both frequently changed and structurally unhealthy.", "",
     "  -r, --revision TEXT        Branch or commit to inspect",
     "  -t, --top INTEGER          Number of entries to display (rich format only)",
     "  -f, --format TEXT          Output format: rich (default), json, csv",
     "  -c, --config FILE          Configuration file path (TOML format)",
     "  -w, --workers INTEGER      Number of parallel scoring workers",
     "      --max-commits INTEGER  Only walk the newest N commits (0 = full history)",
     "  -v, --verbose              Enable verbose (DEBUG) logging",
     "  -q, --quiet                Suppress all but ERROR logging",
     "      --version              Show version and exit",
     "      --help                 Show this message and exit", ""]

/-- Runs a command line. -/
def run (words : List String) (sources : Sources) (repository : Repository) : Result :=
  match sortWords words with
  | none => usageError
  | some w =>
    if w.isOn .help then { exitCode := 0, output := help }
    else
      match requestOfWords sources.folder w with
      | none => usageError
      | some r => answer r sources repository

end Hotspots.CommandLine
