import Hotspots.Proofs.Run.Exec

/-!
# What returned results have in common

`Run.Ensures P r Q` says of a computation that it keeps an invariant `P` of the state and that every result
it returns has the property `Q`. The rules follow the steps of a computation, so that a property of a long
computation is put together from those of its parts; nothing is said of computations that fail.
-/

namespace Hotspots.Run

variable {σ α β : Type} {P : σ → Prop} {Q : α → Prop} {R : β → Prop}

/-- A computation that keeps an invariant and returns only results with a property. -/
def Ensures (P : σ → Prop) (r : Run σ α) (Q : α → Prop) : Prop :=
  ∀ s a s', P s → r.Returns s a s' → Q a ∧ P s'

/-- A sequence ensures what its second part ensures for the results of the first. -/
theorem Ensures.bind {r : Run σ α} {f : α → Run σ β} (hr : Ensures P r Q)
    (hf : ∀ a, Q a → Ensures P (f a) R) : Ensures P (r >>= f) R := by
  intro s b s'' hs h
  obtain ⟨a, s', ha, hb⟩ := returns_bind.1 h
  obtain ⟨hq, hs'⟩ := hr s a s' hs ha
  exact hf a hq s' b s'' hs' hb

/-- A property may be replaced by one that follows from it. -/
theorem Ensures.imp {Q' : α → Prop} {r : Run σ α} (hr : Ensures P r Q) (himp : ∀ a, Q a → Q' a) :
    Ensures P r Q' := by
  intro s a s' hs h
  obtain ⟨hq, hs'⟩ := hr s a s' hs h
  exact ⟨himp a hq, hs'⟩

/-- A computation that returns the same result from every state returns only that. -/
theorem Ensures.eq {r : Run σ α} {a : α} (hr : Ensures P r Q) (h : ∀ s, ∃ s', r.Returns s a s') :
    Ensures P r fun b => b = a := by
  intro s b s' hs hb
  obtain ⟨s'', ha⟩ := h s
  have hsame : (Except.ok b, s') = (Except.ok a, s'') := hb.symm.trans ha
  injection hsame with hresult
  injection hresult with hresult
  exact ⟨hresult, (hr s b s' hs hb).2⟩

/-- A plain result has its property. -/
theorem ensures_pure {a : α} (h : Q a) : Ensures P (pure a : Run σ α) Q := by
  intro s b s' hs hb
  obtain ⟨rfl, rfl⟩ := returns_pure.1 hb
  exact ⟨h, hs⟩

/-- A failure ensures everything. -/
theorem ensures_fail {e : Failure} : Ensures P (fail e : Run σ α) Q :=
  fun _ _ _ _ h => (returns_fail.1 h).elim

/-- The state has the invariant. -/
theorem ensures_state : Ensures P (state : Run σ σ) P := by
  intro s a s' hs h
  obtain ⟨rfl, rfl⟩ := returns_state.1 h
  exact ⟨hs, hs⟩

/-- An update keeps an invariant that it keeps on every state. -/
theorem ensures_update {f : σ → σ} (h : ∀ s, P s → P (f s)) : Ensures P (update f) fun _ => True := by
  intro s u s' hs hu
  obtain rfl := returns_update.1 hu
  exact ⟨trivial, h s hs⟩

/-- A plain value that is returned is no failure. -/
theorem ensures_ofExcept (r : Except Failure α) : Ensures P (ofExcept r) fun a => r = .ok a := by
  intro s a s' hs h
  obtain ⟨ha, rfl⟩ := returns_ofExcept.1 h
  exact ⟨ha, hs⟩

/-- A plain value that is returned is no fault. -/
theorem ensures_ofFault (r : Except Fault α) : Ensures P (ofFault r) fun a => r = .ok a := by
  intro s a s' hs h
  obtain ⟨ha, rfl⟩ := returns_ofFault.1 h
  exact ⟨ha, hs⟩

section Session

variable [HasSession σ]

/-- An invariant that entries of the log do not touch. -/
def IsSilent (P : σ → Prop) : Prop := ∀ entries s, P s → P (logged entries s)

/-- Writing to the log keeps a silent invariant. -/
theorem ensures_log (hP : IsSilent P) (level : Level) (text : String) :
    Ensures P (log level text) fun _ => True :=
  ensures_update fun s hs => hP [⟨level, text⟩] s hs

/-- Writing several entries to the log keeps a silent invariant. -/
theorem ensures_logAll (hP : IsSilent P) (entries : List Entry) :
    Ensures P (logAll entries) fun _ => True :=
  ensures_update fun s hs => hP entries s hs

/-- A checkpoint keeps every invariant. -/
theorem ensures_checkpoint (name : String) : Ensures P (checkpoint name) fun _ => True := by
  intro s u s' hs h
  obtain ⟨-, rfl⟩ := returns_checkpoint.1 h
  exact ⟨trivial, hs⟩

/-- A phase ensures what its body ensures. -/
theorem Ensures.phase {r : Run σ α} (hP : IsSilent P) (hr : Ensures P r Q) (name : String) :
    Ensures P (Run.phase name r) Q := by
  intro s a s' hs h
  obtain ⟨t, hbody, rfl⟩ := returns_phase.1 h
  obtain ⟨hq, ht⟩ := hr _ a t (hP _ s hs) hbody
  exact ⟨hq, hP _ t ht⟩

end Session

end Hotspots.Run
