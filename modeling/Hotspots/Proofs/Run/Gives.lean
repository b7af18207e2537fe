import Hotspots.Proofs.Run.Ensures

/-!
# Computations with one result

`Run.Gives T P r a` says that a computation has no result but `a`, whatever state with an invariant it starts from,
and that it comes to this result if `T` holds. The condition `T` collects what a computation needs of the world
outside so as not to fail; without it the rules are those of `Run.Ensures`.
-/

namespace Hotspots.Run

variable {σ α β : Type} {T : Prop} {P : σ → Prop} {a : α} {b : β}

/-- A computation that keeps an invariant, returns nothing but one result, and returns it under a condition. -/
structure Gives (T : Prop) (P : σ → Prop) (r : Run σ α) (a : α) : Prop where
  ensures : Ensures P r fun a' => a' = a
  returns : T → ∀ s, P s → ∃ s', r.Returns s a s'

/-- A sequence gives what its second part gives after the result of the first. -/
theorem Gives.bind {r : Run σ α} {f : α → Run σ β} (hr : Gives T P r a) (hf : Gives T P (f a) b) :
    Gives T P (r >>= f) b where
  ensures := hr.ensures.bind fun a' ha' => by rw [ha']; exact hf.ensures
  returns hT s hs := by
    obtain ⟨s', hfirst⟩ := hr.returns hT s hs
    obtain ⟨s'', hsecond⟩ := hf.returns hT s' (hr.ensures s a s' hs hfirst).2
    exact ⟨s'', returns_bind.2 ⟨a, s', hfirst, hsecond⟩⟩

/-- A plain result gives itself. -/
theorem gives_pure (a : α) : Gives T P (pure a : Run σ α) a :=
  ⟨ensures_pure rfl, fun _ s _ => ⟨s, returns_pure.2 ⟨rfl, rfl⟩⟩⟩

/-- A computation that returns one result from every state gives it. -/
theorem gives_of_returns {r : Run σ α} (h : ∀ s, ∃ s', r.Returns s a s') : Gives True (fun _ => True) r a where
  ensures s a' s' _ ha' := by
    obtain ⟨s'', ha⟩ := h s
    exact ⟨Except.ok.inj (Prod.mk.inj (ha'.symm.trans ha)).1, trivial⟩
  returns _ s _ := h s

/-- A mapped computation gives the mapped result. -/
theorem Gives.map {r : Run σ α} (hr : Gives T P r a) (f : α → β) : Gives T P (f <$> r) (f a) := by
  rw [map_eq_pure_bind]
  exact hr.bind (gives_pure (f a))

/-- Where there is no failure under the condition, a failure may stand for any result. -/
theorem gives_fail {e : Failure} (hT : ¬T) : Gives T P (fail e : Run σ α) a :=
  ⟨ensures_fail, fun h => absurd h hT⟩

/-- A plain value gives itself, and is no fault under the condition. -/
theorem gives_ofFault {x : Except Fault α} (ha : ∀ a', x = .ok a' → a' = a) (hT : T → x = .ok a) :
    Gives T P (ofFault x) a :=
  ⟨(ensures_ofFault x).imp ha, fun h s _ => ⟨s, returns_ofFault.2 ⟨hT h, rfl⟩⟩⟩

section Session

variable [HasSession σ]

/-- Writing to the log is always possible. -/
theorem gives_log (hP : IsSilent P) (level : Level) (text : String) : Gives T P (log level text) () :=
  ⟨(ensures_log hP level text).imp fun _ _ => rfl, fun _ _ _ => ⟨_, returns_log.2 rfl⟩⟩

/-- Writing several entries to the log is always possible. -/
theorem gives_logAll (hP : IsSilent P) (entries : List Entry) : Gives T P (logAll entries) () :=
  ⟨(ensures_logAll hP entries).imp fun _ _ => rfl, fun _ _ _ => ⟨_, returns_logAll.2 rfl⟩⟩

/-- A checkpoint passes if under the condition no run with the invariant is cancelled. -/
theorem gives_checkpoint (hT : T → ∀ s, P s → (HasSession.session s).cancelled = false) (name : String) :
    Gives T P (checkpoint name) () :=
  ⟨(ensures_checkpoint name).imp fun _ _ => rfl, fun h s hs => ⟨s, returns_checkpoint.2 ⟨hT h s hs, rfl⟩⟩⟩

end Session

end Hotspots.Run
