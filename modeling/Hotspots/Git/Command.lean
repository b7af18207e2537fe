import Hotspots.Failure

/-!
# Commands of the version control system

Four commands are run to read a repository. Each has a name, and a list of arguments that failures show. A command is
waited for as long as it may take, which the system refuses if that is too long.
-/

namespace Hotspots

/-- A command that reads a repository. -/
inductive GitCommand where
  /-- Asks whether a location is a repository. -/
  | gitDir
  /-- Asks for the commit that a revision names. -/
  | verify (revision : String)
  /-- Lists the first-parent history of a commit, or the newest commits of it. -/
  | log (newest : Option Value) (sha : String)
  /-- Lists the files of a commit. -/
  | listTree (sha : String)
  deriving Repr

namespace GitCommand

/-- The name of a command. -/
def name : GitCommand → String
  | gitDir => "git-dir"
  | verify _ => "verify"
  | log _ _ => "log"
  | listTree _ => "ls-tree"

/-- The format of the header of a commit in the log. -/
def logFormat : String := "--format=\x1e%H\x1f%P\x1f%ct"

/-- The arguments of a command. -/
def arguments : GitCommand → List String
  | gitDir => ["rev-parse", "--git-dir"]
  | verify revision => ["rev-parse", "--verify", "--quiet", revision ++ "^\x7bcommit\x7d"]
  | log newest sha =>
    ["-c", "log.showRoot=true", "-c", "core.quotePath=false", "log", "--first-parent", "-m",
      "--reverse", "--raw", "--no-renames", "--no-abbrev", "--no-color", logFormat]
      ++ (newest.map fun n => "-n" ++ n.plain).toList ++ [sha]
  | listTree sha => ["ls-tree", "-r", "-z", "--full-tree", sha]

/-- The arguments of the helper that serves objects. -/
def helperArguments : List String := ["cat-file", "--batch"]

end GitCommand

namespace Wait

/-- How many milliseconds the system waits at most. -/
def longest : Int := 2147483647

/-- How many milliseconds a clock counts at most. -/
def longestTime : Int := 9223372036854

/-- Why the system does not wait for so many seconds. -/
def refusal (seconds : Binary64) : Fault :=
  match seconds.mul (.ofInt 1000) with
  | .nan => .nanToWhole
  | .infinite _ => .infinityToWhole
  | milliseconds =>
    .other "OverflowError" (if (Binary64.ofInt longestTime).lt milliseconds then
      "timestamp too large to convert to C _PyTime_t" else "timeout is too large")

/-- Why the system does not wait for a time in seconds, if it does not. -/
def fault? (timeout : Value) : Option Fault :=
  match timeout.number? with
  | none => none
  | some (.whole i) =>
    if (Binary64.ofInt i).isFinite then
      if 1000 * i ≤ longest then none else some (refusal (.ofInt i))
    else some .wholeTooLarge
  | some (.real x) => if (x.mul (.ofInt 1000)).le (.ofInt longest) then none else some (refusal x)

end Wait

/-- How a command ends. -/
inductive Ending where
  | exited (code : Int) (output complaint : Bytes)
  | timedOut
  | missing
  /-- The system does not start the command, because of one of its arguments. -/
  | refused (fault : Fault)
  | interrupted
  deriving Repr

/-- What the helper that serves objects does with one line. -/
inductive Reply where
  | printed (output : Bytes)
  /-- The helper ends without a reply. -/
  | exits
  /-- The line cannot be sent. It may be kept to be sent once more when the helper is closed. -/
  | broken (kept : Bool := false)
  deriving Repr

/-- How the helper that serves objects ends at a request instead of answering it. -/
inductive HelperEnd where
  | exits
  /-- The line cannot be sent, because the helper ends now or has ended before without being noticed. -/
  | broken (kept : Bool := false)
  deriving Repr

/-- A repository as its commands show it. -/
structure Repository where
  /-- The full path of a location, if it exists. -/
  locate : String → Option String
  /-- Why the system does not tell whether a location exists, if it does not. -/
  refuses? : String → Option Fault := fun _ => none
  /-- Why the system does not wait for a command as many seconds as it may take, if it does not. -/
  waitFault? : Value → Option Fault := Wait.fault?
  /-- How a command ends. -/
  answer : GitCommand → Ending
  /-- What the helper does with a line. -/
  reply : Bytes → Reply
  /-- Whether the run is cancelled while a command of a name runs for a given time, counted from 1. -/
  cancels : String → Nat → Bool := fun _ _ => false
  /-- How the helper ends at a request, the requests of a conversation counted from 0, if it does. -/
  endsAt? : Nat → Option HelperEnd := fun _ => none

/-- What the helper does with a line of a request of a conversation. -/
def Repository.replyAt (repository : Repository) (time : Nat) (line : Bytes) : Reply :=
  match repository.endsAt? time with
  | some .exits => .exits
  | some (.broken kept) => .broken kept
  | none => repository.reply line

end Hotspots
