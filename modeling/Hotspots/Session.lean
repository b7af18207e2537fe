import Hotspots.Failure

/-!
# Runs

A run keeps a log and a cancellation mark. `Run` is a computation over a state that may fail; the
state at the moment of a failure is kept, so that a later operation goes on from there.
-/

namespace Hotspots

/-- How important a log entry is. -/
inductive Level where
  | debug
  | info
  | warning
  | error
  deriving DecidableEq, Repr

/-- One entry of the log. -/
structure Entry where
  level : Level
  text : String
  deriving DecidableEq, Repr

/-- The log, oldest entry first, and whether the run was cancelled. -/
structure Session where
  log : List Entry := []
  cancelled : Bool := false
  deriving Repr, Inhabited

/-- A computation over a state that may fail. -/
abbrev Run (σ α : Type) := ExceptT Failure (StateM σ) α

/-- A state that holds a session. -/
class HasSession (σ : Type) where
  session : σ → Session
  withSession : Session → σ → σ

instance : HasSession Session where
  session := id
  withSession s _ := s

namespace Run

variable {σ : Type}

/-- The state. -/
def state : Run σ σ := ExceptT.lift get

/-- Replaces the state. -/
def update (f : σ → σ) : Run σ Unit := ExceptT.lift (modify f)

/-- Fails. -/
def fail {α : Type} (e : Failure) : Run σ α := ExceptT.mk (pure (.error e))

/-- Goes on with a result or fails. -/
def ofExcept {α : Type} (r : Except Failure α) : Run σ α := ExceptT.mk (pure r)

/-- Goes on with a result or fails with a fault. -/
def ofFault {α : Type} (r : Except Fault α) : Run σ α :=
  ofExcept (r.mapError .fault)

/-- The outcome of a computation, which does not fail. -/
def outcome {α : Type} (r : Run σ α) : Run σ (Except Failure α) := ExceptT.lift r.run

/-- A computation over a part of the state. -/
def within {τ α : Type} (part : σ → τ) (put : τ → σ → σ) (r : Run τ α) : Run σ α := do
  let (result, after) := r.run.run (part (← state))
  update (put after)
  ofExcept result

variable [HasSession σ]

/-- Adds an entry to the log. -/
def log (level : Level) (text : String) : Run σ Unit :=
  update fun s =>
    let session := HasSession.session s
    HasSession.withSession { session with log := session.log ++ [⟨level, text⟩] } s

/-- Adds several entries to the log. -/
def logAll (entries : List Entry) : Run σ Unit :=
  update fun s =>
    let session := HasSession.session s
    HasSession.withSession { session with log := session.log ++ entries } s

/-- Whether the run was cancelled. -/
def isCancelled : Run σ Bool := return (HasSession.session (← state)).cancelled

/-- Cancels the run; work in progress goes on to the next checkpoint. -/
def cancel : Run σ Unit :=
  update fun s => HasSession.withSession { HasSession.session s with cancelled := true } s

/-- A checkpoint: fails if the run was cancelled. -/
def checkpoint (phase : String) : Run σ Unit := do
  if ← isCancelled then fail (.cancelled phase)

/-- A named phase: its start and end are logged, and so is a failure in it. -/
def phase {α : Type} (name : String) (body : Run σ α) : Run σ α := do
  log .info ("Phase " ++ name ++ " started")
  match ← outcome body with
  | .ok result =>
    log .info ("Phase " ++ name ++ " finished in <t>s")
    return result
  | .error e =>
    log .debug ("Phase " ++ name ++ " aborted after <t>s")
    fail e

end Run

end Hotspots
