import Hotspots.Session

/-!
# How runs end

`Run.exec` shows a computation as a function from a state to its end and the state it leaves. A
computation `Returns` a result when it ends in it without a failure; the rules below take a computation
apart into its steps, so that a proof follows a run without opening the two monads beneath it.
-/

namespace Hotspots

/-- What comes to an end without a failure has a result. -/
theorem exists_eq_ok_of_isOk {ε α : Type} {x : Except ε α} (h : x.isOk = true) : ∃ a, x = .ok a := by
  cases x with
  | ok a => exact ⟨a, rfl⟩
  | error e => cases h

/-- What has a result comes to an end with it. -/
theorem eq_ok_of_toOption {ε α : Type} {x : Except ε α} {a : α} (h : x.toOption = some a) : x = .ok a := by
  cases x with
  | ok b => exact congrArg Except.ok (Option.some.inj h)
  | error e => cases h

/-- A sequence of checks passes exactly when both of its parts do. -/
theorem bind_eq_ok {ε α β : Type} {r : Except ε α} {f : α → Except ε β} {b : β} :
    (r >>= f) = .ok b ↔ ∃ a, r = .ok a ∧ f a = .ok b := by
  cases r with
  | error e =>
    constructor
    · intro h
      cases h
    · rintro ⟨_, h, -⟩
      cases h
  | ok a =>
    constructor
    · exact fun h => ⟨a, rfl, h⟩
    · rintro ⟨_, h, hb⟩
      cases h
      exact hb

/-- What is computed for each element of a list has a result if it has one for every element, and these are the
results. -/
theorem mapM_eq_ok_iff {ε α β : Type} {f : α → Except ε β} {as : List α} {bs : List β} :
    as.mapM f = .ok bs ↔ as.map f = bs.map .ok := by
  induction as generalizing bs with
  | nil =>
    rw [List.mapM_nil, List.map_nil, eq_comm (a := []), List.map_eq_nil_iff]
    exact ⟨fun h => (Except.ok.inj h).symm, fun h => h ▸ rfl⟩
  | cons a as ih =>
    rw [List.mapM_cons, List.map_cons, bind_eq_ok]
    constructor
    · rintro ⟨b, hb, h⟩
      obtain ⟨rest, hrest, h⟩ := bind_eq_ok.1 h
      cases h
      rw [hb, ih.1 hrest, List.map_cons]
    · intro h
      cases bs with
      | nil => cases h
      | cons b rest =>
        obtain ⟨hb, hrest⟩ := List.cons.inj h
        exact ⟨b, hb, bind_eq_ok.2 ⟨rest, ih.2 hrest, rfl⟩⟩

/-- What is computed for each element of a list has a result exactly if it has one for every element. -/
theorem exists_mapM_eq_ok_iff {ε α β : Type} {f : α → Except ε β} {as : List α} :
    (∃ bs, as.mapM f = .ok bs) ↔ ∀ a ∈ as, ∃ b, f a = .ok b := by
  constructor
  · rintro ⟨bs, h⟩ a ha
    have hmem : f a ∈ bs.map .ok := mapM_eq_ok_iff.1 h ▸ List.mem_map_of_mem ha
    obtain ⟨b, -, hb⟩ := List.mem_map.1 hmem
    exact ⟨b, hb.symm⟩
  · intro h
    induction as with
    | nil => exact ⟨[], rfl⟩
    | cons a as ih =>
      obtain ⟨b, hb⟩ := h a List.mem_cons_self
      obtain ⟨bs, hbs⟩ := ih fun a' ha' => h a' (List.mem_cons_of_mem a ha')
      rw [List.mapM_cons]
      exact ⟨b :: bs, bind_eq_ok.2 ⟨b, hb, bind_eq_ok.2 ⟨bs, hbs, rfl⟩⟩⟩

namespace Run

variable {σ α β : Type}

/-- How a computation ends from a state, and the state that it leaves. -/
def exec (r : Run σ α) (s : σ) : Except Failure α × σ := Id.run (r.run.run s)

/-- A computation that ends in a result, and the states before and after it. -/
def Returns (r : Run σ α) (s : σ) (a : α) (s' : σ) : Prop := exec r s = (.ok a, s')

/-- A computation that returns from every state. -/
def IsTotal (r : Run σ α) : Prop := ∀ s, ∃ a s', Returns r s a s'

/-- A sequence runs its second part from the state that the first part leaves, unless that fails. -/
theorem exec_bind (r : Run σ α) (f : α → Run σ β) (s : σ) :
    exec (r >>= f) s = match exec r s with
      | (.ok a, s') => exec (f a) s'
      | (.error e, s') => (.error e, s') := by
  change (match exec r s with | (a, s') => (ExceptT.bindCont f a) s') = _
  rcases exec r s with ⟨_ | _, s'⟩ <;> rfl

/-- A sequence returns exactly when both of its parts do. -/
theorem returns_bind {r : Run σ α} {f : α → Run σ β} {s s'' : σ} {b : β} :
    Returns (r >>= f) s b s'' ↔ ∃ a s', Returns r s a s' ∧ Returns (f a) s' b s'' := by
  unfold Returns
  rw [exec_bind]
  rcases exec r s with ⟨_ | _, s'⟩ <;> simp [and_assoc]

/-- A plain result returns itself and leaves the state alone. -/
@[simp] theorem returns_pure {a b : α} {s s' : σ} :
    Returns (pure a : Run σ α) s b s' ↔ a = b ∧ s = s' := by
  simp [Returns, show exec (pure a : Run σ α) s = (.ok a, s) from rfl]

/-- A failure returns nothing. -/
@[simp] theorem returns_fail {e : Failure} {s s' : σ} {a : α} :
    Returns (fail e : Run σ α) s a s' ↔ False := by
  simp [Returns, show exec (fail e : Run σ α) s = (.error e, s) from rfl]

/-- Reading the state returns it. -/
@[simp] theorem returns_state {s a s' : σ} : Returns (state : Run σ σ) s a s' ↔ s = a ∧ s = s' := by
  simp [Returns, show exec (state : Run σ σ) s = (.ok s, s) from rfl]

/-- An update always returns, in the new state. -/
@[simp] theorem returns_update {f : σ → σ} {s s' : σ} {u : Unit} :
    Returns (update f) s u s' ↔ f s = s' := by
  simp [Returns, show exec (update f) s = (.ok (), f s) from rfl]

/-- A checked value returns when the check passes. -/
@[simp] theorem returns_ofExcept {r : Except Failure α} {s s' : σ} {a : α} :
    Returns (ofExcept r) s a s' ↔ r = .ok a ∧ s = s' := by
  simp [Returns, show exec (ofExcept r) s = (r, s) from rfl]

/-- A plain value returns when it is no fault. -/
@[simp] theorem returns_ofFault {r : Except Fault α} {s s' : σ} {a : α} :
    Returns (ofFault r) s a s' ↔ r = .ok a ∧ s = s' := by
  cases r with
  | error e => exact iff_of_false (fun h => by cases h) (fun h => by cases h.1)
  | ok b =>
    have hpass : (ofFault (.ok b) : Run σ α) = ofExcept (.ok b) := rfl
    rw [hpass, returns_ofExcept, Except.ok.injEq, Except.ok.injEq]

/-- Looking at the end of a computation always returns it. -/
@[simp] theorem returns_outcome {r : Run σ α} {s s' : σ} {e : Except Failure α} :
    Returns (outcome r) s e s' ↔ exec r s = (e, s') := by
  change ((Except.ok (exec r s).1, (exec r s).2) = (Except.ok e, s')) ↔ _
  rcases exec r s with ⟨end', s''⟩
  simp

/-- Work on a part of the state returns what it returns on that part, which is then put back. -/
theorem returns_within {τ : Type} {part : σ → τ} {put : τ → σ → σ} {r : Run τ α} {s s' : σ} {a : α} :
    Returns (within part put r) s a s' ↔ ∃ t, Returns r (part s) a t ∧ put t s = s' := by
  have hexec : exec (within part put r) s =
      ((exec r (part s)).1, put (exec r (part s)).2 s) := by
    change exec (ofExcept (exec r (part s)).1) (put (exec r (part s)).2 s) = _
    rfl
  unfold Returns
  rw [hexec]
  rcases exec r (part s) with ⟨end', t⟩
  simp [and_assoc]

section Session

variable [HasSession σ]

/-- The state with entries added to its log. -/
def logged (entries : List Entry) (s : σ) : σ :=
  let session := HasSession.session s
  HasSession.withSession { session with log := session.log ++ entries } s

/-- Writing to the log always returns. -/
@[simp] theorem returns_log {level : Level} {text : String} {s s' : σ} {u : Unit} :
    Returns (log level text) s u s' ↔ logged [⟨level, text⟩] s = s' := returns_update

/-- Writing several entries to the log always returns. -/
@[simp] theorem returns_logAll {entries : List Entry} {s s' : σ} {u : Unit} :
    Returns (logAll entries) s u s' ↔ logged entries s = s' := returns_update

/-- Whether the run was cancelled can always be asked. -/
@[simp] theorem returns_isCancelled {s s' : σ} {b : Bool} :
    Returns isCancelled s b s' ↔ (HasSession.session s).cancelled = b ∧ s = s' := by
  simp only [isCancelled, returns_bind, returns_state, returns_pure]
  constructor
  · rintro ⟨_, _, ⟨rfl, rfl⟩, hb, rfl⟩
    exact ⟨hb, rfl⟩
  · rintro ⟨hb, rfl⟩
    exact ⟨s, s, ⟨rfl, rfl⟩, hb, rfl⟩

/-- A checkpoint returns unless the run was cancelled, and leaves the state alone. -/
@[simp] theorem returns_checkpoint {phase : String} {s s' : σ} {u : Unit} :
    Returns (checkpoint phase) s u s' ↔ (HasSession.session s).cancelled = false ∧ s = s' := by
  simp only [checkpoint, returns_bind, returns_isCancelled]
  cases (HasSession.session s).cancelled <;> simp

end Session

/-- A sequence of computations that return from every state does so, too. -/
theorem IsTotal.bind {r : Run σ α} {f : α → Run σ β} (hr : r.IsTotal) (hf : ∀ a, (f a).IsTotal) :
    IsTotal (r >>= f) := by
  intro s
  obtain ⟨a, s', ha⟩ := hr s
  obtain ⟨b, s'', hb⟩ := hf a s'
  exact ⟨b, s'', returns_bind.2 ⟨a, s', ha, hb⟩⟩

/-- A plain result returns from every state. -/
theorem isTotal_pure (a : α) : IsTotal (pure a : Run σ α) := fun s => ⟨a, s, returns_pure.2 ⟨rfl, rfl⟩⟩

/-- An update returns from every state. -/
theorem isTotal_update (f : σ → σ) : IsTotal (update f) := fun s => ⟨(), f s, returns_update.2 rfl⟩

end Run

end Hotspots
