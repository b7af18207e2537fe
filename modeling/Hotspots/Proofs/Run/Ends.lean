import Hotspots.Proofs.Run.Follows
import Hotspots.Proofs.Run.Gives

/-!
# Results and failures

`Run.Ends P r Q E` says of a computation that it keeps an invariant `P` of the state however it ends, that every result
has the property `Q`, and that every failure has the property `E`. `Run.FailsBeyond E r s` is the opposite for one
state: the computation fails, and not in the way of `E`. A sequence fails beyond exactly if one of its parts does where
the run comes to it (`failsBeyond_bind`).
-/

namespace Hotspots.Run

variable {σ α β : Type} {P : σ → Prop} {Q : α → Prop} {R : β → Prop} {E : Failure → Prop}

/-- A computation that keeps an invariant, with properties of its results and of its failures. -/
def Ends (P : σ → Prop) (r : Run σ α) (Q : α → Prop) (E : Failure → Prop) : Prop :=
  ∀ s, P s → P (exec r s).2 ∧
    match (exec r s).1 with
    | .ok a => Q a
    | .error e => E e

/-- A sequence ends as its second part does after the results of the first. -/
theorem Ends.bind {r : Run σ α} {f : α → Run σ β} (hr : Ends P r Q E) (hf : ∀ a, Q a → Ends P (f a) R E) :
    Ends P (r >>= f) R E := by
  intro s hs
  have hfirst := hr s hs
  rw [exec_bind]
  rcases hexec : exec r s with ⟨_ | a, s'⟩
  · rw [hexec] at hfirst
    exact hfirst
  · rw [hexec] at hfirst
    exact hf a hfirst.2 s' hfirst.1

/-- Properties of results and failures may be replaced by ones that follow from them. -/
theorem Ends.imp {Q' : α → Prop} {r : Run σ α} (hr : Ends P r Q E) (hQ : ∀ a, Q a → Q' a) : Ends P r Q' E := by
  intro s hs
  have hend := hr s hs
  rcases hexec : exec r s with ⟨_ | a, s'⟩ <;> rw [hexec] at hend
  · exact hend
  · exact ⟨hend.1, hQ a hend.2⟩

/-- What is ensured of results may be added to what they are known to be. -/
theorem Ends.and {P' : σ → Prop} {Q' : α → Prop} {r : Run σ α} (hr : Ends P r Q E) (h : Ensures P' r Q')
    (hP : ∀ s, P s → P' s) : Ends P r (fun a => Q a ∧ Q' a) E := by
  intro s hs
  have hend := hr s hs
  rcases hexec : exec r s with ⟨_ | a, s'⟩ <;> rw [hexec] at hend
  · exact hend
  · exact ⟨hend.1, hend.2, (h s a s' (hP s hs) hexec).1⟩

/-- A result has its property. -/
theorem Ends.of_returns {r : Run σ α} (hr : Ends P r Q E) {s s' : σ} {a : α} (hs : P s) (h : r.Returns s a s') :
    Q a ∧ P s' := by
  have hend := hr s hs
  rw [show exec r s = _ from h] at hend
  exact hend.symm

/-- A plain result has its property. -/
theorem ends_pure {a : α} (h : Q a) : Ends P (pure a : Run σ α) Q E := fun _ hs => ⟨hs, h⟩

/-- A computation that keeps an invariant ends in some way. -/
theorem ends_of_keeps {r : Run σ α} (h : ∀ s, P s → P (exec r s).2) :
    Ends P r (fun _ => True) fun _ => True := by
  intro s hs
  refine ⟨h s hs, ?_⟩
  cases (exec r s).1 <;> trivial

/-- A failure has its property. -/
theorem ends_fail {e : Failure} (h : E e) : Ends P (fail e : Run σ α) Q E := fun _ hs => ⟨hs, h⟩

/-- A plain value that is no fault is a result. -/
theorem ends_ofFault {x : Except Fault α} {a : α} (hx : x = .ok a) (h : Q a) : Ends P (ofFault x) Q E := by
  intro s hs
  rw [exec_ofFault, hx]
  exact ⟨hs, h⟩

/-- An update keeps an invariant that it keeps on every state. -/
theorem ends_update {f : σ → σ} (h : ∀ s, P s → P (f s)) : Ends P (update f) (fun _ => True) E :=
  fun s hs => ⟨h s hs, trivial⟩

/-- A mapped computation has the mapped results. -/
theorem Ends.map {r : Run σ α} (hr : Ends P r Q E) {g : α → β} (hg : ∀ a, Q a → R (g a)) : Ends P (g <$> r) R E := by
  rw [map_eq_pure_bind]
  exact hr.bind fun a ha => ends_pure (hg a ha)

/-- A computation that gives a result from every state with an invariant does not fail. -/
theorem Gives.ends {r : Run σ α} {a : α} (hr : Gives True P r a) : Ends P r (fun a' => a' = a) E := by
  intro s hs
  obtain ⟨s', h⟩ := hr.returns trivial s hs
  rw [show exec r s = _ from h]
  exact ⟨(hr.ensures s a s' hs h).2, rfl⟩

/-- Work on a part of the state ends as it does on that part. -/
theorem Ends.within {τ : Type} {S : τ → Prop} {part : σ → τ} {put : τ → σ → σ} {r : Run τ α} (hr : Ends S r Q E)
    (hpart : ∀ s, P s → S (part s)) (hput : ∀ s t, P s → P (put t s)) : Ends P (Run.within part put r) Q E := by
  intro s hs
  rw [exec_within]
  exact ⟨hput s _ hs, (hr (part s) (hpart s hs)).2⟩

section Session

variable [HasSession σ]

/-- Writing to the log keeps a silent invariant. -/
theorem ends_log (hP : IsSilent P) (level : Level) (text : String) : Ends P (log level text) (fun _ => True) E :=
  ends_update fun s hs => hP [⟨level, text⟩] s hs

/-- Writing several entries to the log keeps a silent invariant. -/
theorem ends_logAll (hP : IsSilent P) (entries : List Entry) : Ends P (logAll entries) (fun _ => True) E :=
  ends_update fun s hs => hP entries s hs

/-- A checkpoint passes or ends the run with its cancellation. -/
theorem ends_checkpoint {name : String} (h : E (.cancelled name)) : Ends P (checkpoint name) (fun _ => True) E := by
  intro s hs
  rw [exec_checkpoint]
  refine ⟨hs, ?_⟩
  cases (HasSession.session s).cancelled with
  | true => exact h
  | false => trivial

/-- A phase ends as its body does. -/
theorem Ends.phase {r : Run σ α} (hP : IsSilent P) (hr : Ends P r Q E) (name : String) :
    Ends P (Run.phase name r) Q E := by
  intro s hs
  have hbody := hr _ (hP [⟨.info, "Phase " ++ name ++ " started"⟩] s hs)
  rw [exec_phase]
  rcases hexec : exec r (logged [⟨.info, "Phase " ++ name ++ " started"⟩] s) with ⟨_ | a, t⟩ <;> rw [hexec] at hbody
  · exact ⟨hP _ t hbody.1, hbody.2⟩
  · exact ⟨hP _ t hbody.1, hbody.2⟩

/-- A computation that follows one that gives a result in a calm run gives such a result or is cancelled. -/
theorem Follows.ends {R : σ → σ → Prop} {r r' : Run σ α} (h : Follows R r r') (hP : ∀ s s', R s s' → P s → P s')
    (hr : ∀ s, P s → ∃ a s', r'.Returns (calm s) a s' ∧ Q a) (hE : ∀ name, E (.cancelled name)) : Ends P r Q E := by
  intro s hs
  obtain ⟨hcourse, hend⟩ := h s
  refine ⟨hP s _ hcourse hs, ?_⟩
  rcases hend with ⟨name, hcancelled⟩ | hsame
  · rw [hcancelled]
    exact hE name
  · obtain ⟨a, s', hreturns, ha⟩ := hr s hs
    have hok : .ok a = (exec r s).1 := congrArg Prod.fst (hreturns.symm.trans hsame)
    rw [← hok]
    exact ha

end Session

/-- An invariant that neither the log nor cancellations touch is kept along a course. -/
theorem isCourse_of_invariant [HasSession σ] (hlogged : IsSilent P) (hmarked : ∀ s, P s → P (marked s)) :
    IsCourse fun s s' => P s → P s' where
  refl _ := id
  trans h h' := h' ∘ h
  logged entries s := hlogged entries s
  marked := hmarked

/-! ## Failures of another kind -/

/-- A computation that fails from a state, and not as it may. -/
def FailsBeyond (E : Failure → Prop) (r : Run σ α) (s : σ) : Prop := ∃ e, (exec r s).1 = .error e ∧ ¬E e

/-- A run tells whether it fails beyond. -/
instance [DecidablePred E] (r : Run σ α) (s : σ) : Decidable (FailsBeyond E r s) :=
  match h : (exec r s).1 with
  | .ok a => isFalse fun ⟨e, he, _⟩ => nomatch h.symm.trans he
  | .error e => decidable_of_iff (¬E e) ⟨fun hbeyond => ⟨e, h, hbeyond⟩, fun ⟨e', he', hbeyond⟩ => by
      rwa [Except.error.inj (h.symm.trans he')]⟩

/-- A computation whose failures are known to be of a kind has no other. -/
theorem Ends.not_failsBeyond {r : Run σ α} (hr : Ends P r Q E) {s : σ} (hs : P s) : ¬FailsBeyond E r s := by
  rintro ⟨e, he, hbeyond⟩
  have hend := (hr s hs).2
  rw [he] at hend
  exact hbeyond hend

/-- A plain result is no failure. -/
theorem not_failsBeyond_pure (a : α) (s : σ) : ¬FailsBeyond E (pure a) s := nofun

/-- A sequence fails beyond if its first part does, or its second part after a result of the first. -/
theorem failsBeyond_bind {r : Run σ α} {f : α → Run σ β} {s : σ} : FailsBeyond E (r >>= f) s ↔
    FailsBeyond E r s ∨ ∃ a s', r.Returns s a s' ∧ FailsBeyond E (f a) s' := by
  unfold FailsBeyond Returns
  rw [exec_bind]
  rcases exec r s with ⟨_ | a, s'⟩
  · simp
  · simp only [reduceCtorEq, false_and, exists_false, false_or, Prod.mk.injEq, Except.ok.injEq]
    constructor
    · exact fun h => ⟨a, s', ⟨rfl, rfl⟩, h⟩
    · rintro ⟨_, _, ⟨rfl, rfl⟩, h⟩
      exact h

/-- A plain value fails beyond if its fault is one that is not allowed. -/
theorem failsBeyond_ofFault {x : Except Fault α} {s : σ} (hE : ∀ f, ¬E (.fault f)) :
    FailsBeyond E (ofFault x) s ↔ ¬∃ a, x = .ok a := by
  unfold FailsBeyond
  rw [exec_ofFault]
  cases x with
  | error f => exact iff_of_true ⟨.fault f, rfl, hE f⟩ nofun
  | ok a => exact iff_of_false nofun fun hnone => hnone ⟨a, rfl⟩

/-- A phase fails beyond if its body does. -/
theorem failsBeyond_phase [HasSession σ] {name : String} {r : Run σ α} {s : σ} : FailsBeyond E (phase name r) s ↔
    FailsBeyond E r (logged [⟨.info, "Phase " ++ name ++ " started"⟩] s) := by
  unfold FailsBeyond
  rw [exec_phase]
  rcases exec r (logged [⟨.info, "Phase " ++ name ++ " started"⟩] s) with ⟨_ | a, t⟩ <;> simp

end Hotspots.Run
