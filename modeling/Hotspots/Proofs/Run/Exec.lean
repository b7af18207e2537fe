import Hotspots.Proofs.Run.Returns

/-!
# Computations step by step

`Run.exec` of each basic step is the end and the state that the step stands for. With them a run is followed to
its end whether it returns or fails.
-/

namespace Hotspots.Run

variable {σ α β : Type}

/-- A plain result ends in itself. -/
theorem exec_pure (a : α) (s : σ) : exec (pure a : Run σ α) s = (.ok a, s) := rfl

/-- Reading the state ends in it. -/
theorem exec_state (s : σ) : exec (state : Run σ σ) s = (.ok s, s) := rfl

/-- An update ends in the new state. -/
theorem exec_update (f : σ → σ) (s : σ) : exec (update f) s = (.ok (), f s) := rfl

/-- A checked value ends as the check does. -/
theorem exec_ofExcept (r : Except Failure α) (s : σ) : exec (ofExcept r) s = (r, s) := rfl

/-- A plain value ends as itself or in its fault. -/
theorem exec_ofFault (r : Except Fault α) (s : σ) : exec (ofFault r) s = (r.mapError .fault, s) := rfl

/-- Looking at the end of a computation gives it as a result. -/
theorem exec_outcome (r : Run σ α) (s : σ) : exec (outcome r) s = (.ok (exec r s).1, (exec r s).2) := rfl

/-- After a result a sequence goes on with its second part. -/
theorem exec_bind_of_ok {r : Run σ α} {f : α → Run σ β} {s s' : σ} {a : α} (h : exec r s = (.ok a, s')) :
    exec (r >>= f) s = exec (f a) s' := by
  rw [exec_bind, h]

/-- After a failure a sequence ends. -/
theorem exec_bind_of_error {r : Run σ α} {f : α → Run σ β} {s s' : σ} {e : Failure}
    (h : exec r s = (.error e, s')) : exec (r >>= f) s = (.error e, s') := by
  rw [exec_bind, h]

/-- A mapped computation ends in the mapped result. -/
theorem exec_map (f : α → β) (r : Run σ α) (s : σ) : exec (f <$> r) s = ((exec r s).1.map f, (exec r s).2) := by
  rw [map_eq_pure_bind, exec_bind]
  rcases exec r s with ⟨_ | _, s'⟩ <;> rfl

/-- A checkpoint ends the run if it was cancelled, and leaves the state alone. -/
theorem exec_checkpoint [HasSession σ] (phase : String) (s : σ) : exec (checkpoint phase) s =
    (if (HasSession.session s).cancelled then .error (.cancelled phase) else .ok (), s) := by
  have hmark : exec isCancelled s = (.ok (HasSession.session s).cancelled, s) := rfl
  rw [checkpoint, exec_bind_of_ok hmark]
  cases (HasSession.session s).cancelled <;> rfl

/-- A phase ends as its body does, with one entry in the log before it and one after it. -/
theorem exec_phase [HasSession σ] (name : String) (body : Run σ α) (s : σ) : exec (phase name body) s =
    match exec body (logged [⟨.info, "Phase " ++ name ++ " started"⟩] s) with
    | (.ok a, t) => (.ok a, logged [⟨.info, "Phase " ++ name ++ " finished in <t>s"⟩] t)
    | (.error e, t) => (.error e, logged [⟨.debug, "Phase " ++ name ++ " aborted after <t>s"⟩] t) := by
  have hstart : exec (log .info ("Phase " ++ name ++ " started")) s =
      (.ok (), logged [⟨.info, "Phase " ++ name ++ " started"⟩] s) := rfl
  rw [phase, exec_bind_of_ok hstart, exec_bind_of_ok (exec_outcome _ _)]
  rcases exec body (logged [⟨.info, "Phase " ++ name ++ " started"⟩] s) with ⟨_ | _, t⟩ <;> rfl

/-- A phase returns what its body returns between the two entries. -/
theorem returns_phase [HasSession σ] {name : String} {body : Run σ α} {s s' : σ} {a : α} :
    (phase name body).Returns s a s' ↔
      ∃ t, body.Returns (logged [⟨.info, "Phase " ++ name ++ " started"⟩] s) a t ∧
        logged [⟨.info, "Phase " ++ name ++ " finished in <t>s"⟩] t = s' := by
  unfold Returns
  rw [exec_phase]
  rcases exec body (logged [⟨.info, "Phase " ++ name ++ " started"⟩] s) with ⟨_ | b, t⟩ <;> simp [and_assoc]

/-- Work on a part of the state ends as it does on that part, which is then put back. -/
theorem exec_within {τ : Type} (part : σ → τ) (put : τ → σ → σ) (r : Run τ α) (s : σ) :
    exec (within part put r) s = ((exec r (part s)).1, put (exec r (part s)).2 s) := by
  change exec (ofExcept (exec r (part s)).1) (put (exec r (part s)).2 s) = _
  rfl

/-- A computation that ends in a result returns it. -/
theorem exists_returns {r : Run σ α} {s : σ} {a : α} (h : (exec r s).1.toOption = some a) :
    ∃ s', r.Returns s a s' :=
  ⟨(exec r s).2, Prod.ext (eq_ok_of_toOption h) rfl⟩

end Hotspots.Run
