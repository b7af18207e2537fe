import Hotspots.Proofs.Run.Exec

/-!
# Runs that are cancelled on the way

A run that is cancelled goes on as if nothing had happened until it comes to a checkpoint. `Run.Follows` compares a
computation with what it would be if it were never cancelled: it ends with the cancellation at a checkpoint, or it
ends as the other one does from the same state without the mark, with the same result or the same failure. Along with
it goes a relation between the states before and after, such as that a mark stays.
-/

namespace Hotspots

/-- A state in which a session that is put there is found, and nothing else of an earlier one. -/
class LawfulSession (σ : Type) [HasSession σ] : Prop where
  session_withSession : ∀ (x : Session) (s : σ), HasSession.session (HasSession.withSession x s) = x
  withSession_withSession : ∀ (x y : Session) (s : σ),
    HasSession.withSession x (HasSession.withSession y s) = HasSession.withSession x s

namespace Run

variable {σ α β : Type} [HasSession σ]

/-- Whether the run is cancelled. -/
def isMarked (s : σ) : Bool := (HasSession.session s).cancelled

/-- The state after the run was cancelled. -/
def marked (s : σ) : σ := HasSession.withSession { HasSession.session s with cancelled := true } s

/-- The state of a run that was never cancelled. -/
def calm (s : σ) : σ := HasSession.withSession { HasSession.session s with cancelled := false } s

/-- The run is cancelled at this moment, if it is. -/
def strike (now : Bool) : Run σ Unit := if now then cancel else pure ()

/-- A relation between the states before and after a computation that the log and cancellations respect. -/
structure IsCourse (R : σ → σ → Prop) : Prop where
  refl : ∀ s, R s s
  trans : ∀ {s t u}, R s t → R t u → R s u
  logged : ∀ entries s, R s (logged entries s)
  marked : ∀ s, R s (marked s)

/-- The mark stays once it is there. -/
def MarkStays (s s' : σ) : Prop := isMarked s = true → isMarked s' = true

/-- A moment always passes, and leaves the mark if the run is cancelled. -/
theorem returns_strike {now : Bool} {s s' : σ} {u : Unit} :
    (strike now).Returns s u s' ↔ (if now then marked s else s) = s' := by
  cases now with
  | false => exact returns_pure.trans (and_iff_right rfl)
  | true => exact returns_update

/-- A computation that ends with the cancellation, or ends as another one does in a run that is never cancelled. -/
def Follows (R : σ → σ → Prop) (r r' : Run σ α) : Prop :=
  ∀ s, R s (exec r s).2 ∧
    ((∃ phase, (exec r s).1 = .error (.cancelled phase)) ∨ exec r' (calm s) = ((exec r s).1, calm (exec r s).2))

section Session

variable [LawfulSession σ]

open LawfulSession

/-- A calm run has no mark. -/
@[simp] theorem isMarked_calm (s : σ) : isMarked (calm s) = false := by
  rw [isMarked, calm, session_withSession]

/-- A cancelled run has the mark. -/
@[simp] theorem isMarked_marked (s : σ) : isMarked (marked s) = true := by
  rw [isMarked, marked, session_withSession]

/-- The log leaves the mark alone. -/
@[simp] theorem isMarked_logged (entries : List Entry) (s : σ) : isMarked (logged entries s) = isMarked s := by
  rw [isMarked, logged, session_withSession]
  rfl

/-- A calm run is calm again after it was cancelled. -/
theorem calm_marked (s : σ) : calm (marked s) = calm s := by
  rw [calm, marked, session_withSession, withSession_withSession]
  rfl

/-- The log is written whether or not the run is cancelled. -/
theorem logged_calm (entries : List Entry) (s : σ) : logged entries (calm s) = calm (logged entries s) := by
  simp only [logged, calm, session_withSession, withSession_withSession]

end Session

/-- The log and cancellations let the mark stay. -/
theorem isCourse_markStays [LawfulSession σ] : IsCourse (MarkStays : σ → σ → Prop) where
  refl _ := id
  trans h h' hmark := h' (h hmark)
  logged _ _ hmark := by rwa [isMarked_logged]
  marked _ _ := isMarked_marked _

/-! ## Rules -/

variable {R : σ → σ → Prop}

/-- A sequence follows another one if its parts do. -/
theorem Follows.bind (hR : IsCourse R) {r r' : Run σ α} {f f' : α → Run σ β} (hr : Follows R r r')
    (hf : ∀ a, Follows R (f a) (f' a)) : Follows R (r >>= f) (r' >>= f') := by
  intro s
  obtain ⟨hcourse, hend⟩ := hr s
  rw [exec_bind, exec_bind]
  rcases hexec : exec r s with ⟨ending, t⟩
  rw [hexec] at hcourse hend
  cases ending with
  | error e =>
    rcases hend with ⟨phase, hphase⟩ | hsame
    · cases hphase
      exact ⟨hcourse, .inl ⟨phase, rfl⟩⟩
    · exact ⟨hcourse, .inr (by rw [hsame])⟩
  | ok a =>
    obtain ⟨hrest, hend'⟩ := hf a t
    refine ⟨hR.trans hcourse hrest, ?_⟩
    rcases hend with ⟨phase, hphase⟩ | hsame
    · cases hphase
    · rw [hsame]
      exact hend'

/-- A plain result follows itself. -/
theorem follows_pure (hR : IsCourse R) (a : α) : Follows R (pure a : Run σ α) (pure a) :=
  fun s => ⟨hR.refl s, .inr rfl⟩

/-- A failure follows itself. -/
theorem follows_fail (hR : IsCourse R) (e : Failure) : Follows R (fail e : Run σ α) (fail e) :=
  fun s => ⟨hR.refl s, .inr rfl⟩

/-- A checked value follows itself. -/
theorem follows_ofExcept (hR : IsCourse R) (x : Except Failure α) : Follows R (ofExcept x : Run σ α) (ofExcept x) :=
  fun s => ⟨hR.refl s, .inr rfl⟩

/-- A plain value follows itself. -/
theorem follows_ofFault (hR : IsCourse R) (x : Except Fault α) : Follows R (ofFault x : Run σ α) (ofFault x) :=
  fun s => ⟨hR.refl s, .inr rfl⟩

/-- An update that does not look at the mark follows itself. -/
theorem follows_update {f : σ → σ} (hcourse : ∀ s, R s (f s)) (hcalm : ∀ s, f (calm s) = calm (f s)) :
    Follows R (update f) (update f) := by
  intro s
  refine ⟨hcourse s, .inr ?_⟩
  rw [exec_update, exec_update, hcalm]

/-- A computation that reads the state follows another one if it does so in every state. -/
theorem follows_state_bind {f f' : σ → Run σ β} (h : ∀ s, R s (exec (f s) s).2 ∧
      ((∃ phase, (exec (f s) s).1 = .error (.cancelled phase)) ∨
        exec (f' (calm s)) (calm s) = ((exec (f s) s).1, calm (exec (f s) s).2))) :
    Follows R (state >>= f) (state >>= f') := by
  intro s
  rw [exec_bind_of_ok (exec_state s), exec_bind_of_ok (exec_state (calm s))]
  exact h s

/-- Mapped results follow each other. -/
theorem Follows.map (hR : IsCourse R) {r r' : Run σ α} (hr : Follows R r r') (g : α → β) :
    Follows R (g <$> r) (g <$> r') := by
  rw [map_eq_pure_bind, map_eq_pure_bind]
  exact hr.bind hR fun a => follows_pure hR (g a)

section Session

variable [LawfulSession σ]

/-- Writing to the log follows itself. -/
theorem follows_logAll (hR : IsCourse R) (entries : List Entry) :
    Follows R (logAll entries : Run σ Unit) (logAll entries) :=
  follows_update (hR.logged entries) (logged_calm entries)

/-- Writing an entry to the log follows itself. -/
theorem follows_log (hR : IsCourse R) (level : Level) (text : String) :
    Follows R (log level text : Run σ Unit) (log level text) :=
  follows_update (hR.logged [⟨level, text⟩]) (logged_calm [⟨level, text⟩])

/-- A moment at which the run may be cancelled follows one at which it is not. -/
theorem follows_strike (hR : IsCourse R) (now : Bool) : Follows R (strike now : Run σ Unit) (strike false) := by
  intro s
  have hpass : ∀ s : σ, exec (strike false) s = (.ok (), s) := fun _ => rfl
  cases now with
  | false => exact ⟨hR.refl s, .inr (hpass _)⟩
  | true =>
    have hstruck : exec (strike true) s = (.ok (), marked s) := rfl
    rw [hstruck, hpass]
    refine ⟨hR.marked s, .inr ?_⟩
    rw [calm_marked]

/-- A checkpoint ends a cancelled run and lets a calm one pass. -/
theorem follows_checkpoint (hR : IsCourse R) (phase : String) :
    Follows R (checkpoint phase : Run σ Unit) (checkpoint phase) := by
  intro s
  have hcalm := exec_checkpoint phase (calm s)
  rw [show (HasSession.session (calm s)).cancelled = false from isMarked_calm s] at hcalm
  rw [hcalm, exec_checkpoint]
  refine ⟨hR.refl s, ?_⟩
  cases hmark : (HasSession.session s).cancelled with
  | true => exact .inl ⟨phase, rfl⟩
  | false => exact .inr rfl

/-- A phase follows another one if its body does. -/
theorem Follows.phase (hR : IsCourse R) {body body' : Run σ α} (h : Follows R body body') (name : String) :
    Follows R (Run.phase name body) (Run.phase name body') := by
  intro s
  rw [exec_phase, exec_phase, logged_calm]
  have hstart := hR.logged [⟨.info, "Phase " ++ name ++ " started"⟩] s
  obtain ⟨hcourse, hend⟩ := h (logged [⟨.info, "Phase " ++ name ++ " started"⟩] s)
  rcases hexec : exec body (logged [⟨.info, "Phase " ++ name ++ " started"⟩] s) with ⟨ending, t⟩
  rw [hexec] at hcourse hend
  have hlast : ∀ entries, R s (logged entries t) := fun entries =>
    hR.trans hstart (hR.trans hcourse (hR.logged entries t))
  cases ending with
  | ok a =>
    rcases hend with ⟨phase, hphase⟩ | hsame
    · cases hphase
    · refine ⟨hlast _, .inr ?_⟩
      rw [hsame]
      dsimp only
      rw [logged_calm]
  | error e =>
    rcases hend with ⟨phase, hphase⟩ | hsame
    · cases hphase
      exact ⟨hlast _, .inl ⟨phase, rfl⟩⟩
    · refine ⟨hlast _, .inr ?_⟩
      rw [hsame]
      dsimp only
      rw [logged_calm]

end Session

/-- Work on a part of the state follows other work on it if the part holds the mark. -/
theorem Follows.within {τ : Type} [HasSession τ] {S : τ → τ → Prop} {part : σ → τ} {put : τ → σ → σ}
    {r r' : Run τ α} (h : Follows S r r') (hcourse : ∀ s t, S (part s) t → R s (put t s))
    (hpart : ∀ s, part (calm s) = calm (part s)) (hput : ∀ s t, put (calm t) (calm s) = calm (put t s)) :
    Follows R (Run.within part put r) (Run.within part put r') := by
  intro s
  rw [exec_within, exec_within, hpart]
  obtain ⟨hpast, hend⟩ := h (part s)
  refine ⟨hcourse s _ hpast, hend.imp_right fun hsame => ?_⟩
  rw [hsame, hput]

/-- After a result the course of a computation has been kept. -/
theorem Follows.of_returns {r r' : Run σ α} (h : Follows R r r') {s s' : σ} {a : α} (hr : r.Returns s a s') :
    R s s' ∧ r'.Returns (calm s) a (calm s') := by
  obtain ⟨hcourse, hend⟩ := h s
  rw [show exec r s = _ from hr] at hcourse hend
  refine ⟨hcourse, ?_⟩
  rcases hend with ⟨phase, hphase⟩ | hsame
  · cases hphase
  · exact hsame

end Run

end Hotspots
