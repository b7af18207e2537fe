import Hotspots.Proofs.Run.Exec

/-!
# Computations on a larger state

`Run.Projects part r r'` says that `r` ends as `r'` does on a part of its state, and changes that part as `r'` does.
What it does to the rest of its state has no influence, so that `r` may keep a record of what happens.
-/

namespace Hotspots.Run

variable {σ τ α β : Type} {part : σ → τ}

/-- A computation that does on a part of its state what another computation does, and ends as that one does. -/
def Projects (part : σ → τ) (r : Run σ α) (r' : Run τ α) : Prop :=
  ∀ s, exec r' (part s) = ((exec r s).1, part (exec r s).2)

/-- A sequence projects to the sequence of what its parts project to. -/
theorem Projects.bind {r : Run σ α} {r' : Run τ α} {f : α → Run σ β} {f' : α → Run τ β} (hr : Projects part r r')
    (hf : ∀ a, Projects part (f a) (f' a)) : Projects part (r >>= f) (r' >>= f') := by
  intro s
  rw [exec_bind, exec_bind, hr s]
  rcases exec r s with ⟨_ | a, s'⟩
  · rfl
  · exact hf a s'

/-- A plain result projects to itself. -/
theorem projects_pure (a : α) : Projects part (pure a) (pure a) := fun _ => rfl

/-- An update projects to an update that does the same to the part. -/
theorem projects_update {f : σ → σ} {g : τ → τ} (h : ∀ s, part (f s) = g (part s)) :
    Projects part (update f) (update g) := by
  intro s
  rw [exec_update, exec_update, h]

/-- What leaves the part alone before a computation does not show. -/
theorem Projects.update_bind {r : Run σ α} {r' : Run τ α} (hr : Projects part r r') {f : σ → σ}
    (h : ∀ s, part (f s) = part s) : Projects part (update f >>= fun _ => r) r' := by
  intro s
  rw [exec_bind_of_ok (exec_update f s), ← hr (f s), h]

/-- Work on the part projects to the work. -/
theorem projects_within {put : τ → σ → σ} (hput : ∀ t s, part (put t s) = t) (r : Run τ α) :
    Projects part (within part put r) r := by
  intro s
  rw [exec_within, hput]

/-- Writing several entries to the log projects to itself if the part holds the log. -/
theorem projects_logAll [HasSession σ] [HasSession τ]
    (hpart : ∀ entries s, part (logged entries s) = logged entries (part s)) (entries : List Entry) :
    Projects part (logAll entries) (logAll entries) :=
  projects_update (hpart entries)

/-- Writing to the log projects to itself if the part holds the log. -/
theorem projects_log [HasSession σ] [HasSession τ]
    (hpart : ∀ entries s, part (logged entries s) = logged entries (part s)) (level : Level) (text : String) :
    Projects part (log level text) (log level text) :=
  projects_update (hpart [⟨level, text⟩])

end Hotspots.Run
