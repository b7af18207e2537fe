import Hotspots.CommandLine
import Hotspots.Git.Transcript

/-!
# The program

The program reads the transcript of a repository from standard input, the settings files and the environment, and
runs the command line.
-/

namespace Hotspots.Main

/-- The content of a file, if it can be read. -/
def contentOf (path : String) : IO (Option Bytes) := do
  try return some (← IO.FS.readBinFile path).toList
  catch _ => return none

/-- The variables of the environment that set settings. -/
def environment : List Field → IO (List (String × String))
  | [] => return []
  | f :: rest => do
    let name := Sources.variableName f
    let value ← IO.getEnv name
    return (value.map fun v => (name, v)).toList ++ (← environment rest)

/-- The settings file that a command line asks for. -/
def askedPath (words : List String) : Option String :=
  (CommandLine.sortWords words).bind fun w => w.value? .config

/-- The files that a command line can ask for. -/
def folder (words : List String) : IO Folder := do
  match askedPath words with
  | none => return []
  | some path => return ((← contentOf path).map fun content => (path, content)).toList

/-- The sources of the settings. -/
def sources (words : List String) : IO Sources := do
  let home := (← IO.getEnv "HOME").getD ""
  return { userFile := ← contentOf (home ++ "/.refactor-triage.toml")
           projectFile := ← contentOf "refactor-triage.toml"
           folder := ← folder words
           environment := ← environment Field.all }

end Hotspots.Main

/-- Runs the command line on the transcript of a repository. -/
def main (words : List String) : IO UInt32 := do
  let sources ← Hotspots.Main.sources words
  let transcript ← (← IO.getStdin).readToEnd
  let recording := Hotspots.Transcript.ofText transcript
  let repository := { recording.repository with locate := some }
  let result := Hotspots.CommandLine.run words sources repository
  IO.print result.output
  match result.raised with
  | some e => IO.eprintln e.message
  | none => pure ()
  return result.exitCode.toUInt32
