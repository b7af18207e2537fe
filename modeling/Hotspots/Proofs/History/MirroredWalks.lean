import Hotspots.Proofs.History.OneChange
import Mathlib.Order.Monotone.Basic

/-!
# Walks that mirror each other

A walk mirrors a part of another one if it has the records at certain paths and no others, and has them at other places
and under other numbers. What a change does depends on the paths that it mentions alone. A change at these paths
therefore keeps the mirror when both walks take it (`Walk.Mirrors.apply`), and a change at other paths keeps it when
only the full walk does (`Walk.Mirrors.apply_full`); no step of either walk has to be looked at again. If the part is
the whole, the two walks differ in their numbers only.
-/

namespace Hotspots

/-- A record under another number. -/
def ChurnRecord.numbered (uid : Int) (r : ChurnRecord) : ChurnRecord :=
  { r with identity := { r.identity with uid := uid } }

/-- A change is blind to numbers. -/
theorem FileChange.effect_numbered (time : Int) (c : FileChange) (uid : Int) (r : ChurnRecord) :
    c.effect time (r.numbered uid) = (c.effect time r).numbered uid := by
  unfold effect Walk.relocated
  cases c.kind with
  | added => rfl
  | modified => rfl
  | deleted => rfl
  | renamed =>
    dsimp only
    split <;> rfl

namespace Walk

variable {w part full : Walk} {kept : String → Prop} {place : Nat → Nat} {c : FileChange} {time : Int}

/-! ## Steps beside the records and the open paths -/

/-- A change is not the end of a commit. -/
theorem progress_apply (w : Walk) (time : Int) (c : FileChange) :
    (w.apply time c).history.head = w.history.head ∧ (w.apply time c).history.commitCount = w.history.commitCount := by
  have htouch (path : String) : (w.touch path time).history.head = w.history.head ∧
      (w.touch path time).history.commitCount = w.history.commitCount := by
    unfold touch
    split <;> exact ⟨rfl, rfl⟩
  unfold apply
  cases c.kind with
  | added => exact htouch c.path
  | modified => exact htouch c.path
  | deleted =>
    dsimp only
    unfold close
    split <;> exact ⟨rfl, rfl⟩
  | renamed =>
    dsimp only
    split
    · unfold move
      dsimp only
      split <;> exact ⟨rfl, rfl⟩
    · exact ⟨rfl, rfl⟩

/-- The walk at the end of a commit. -/
def committed (w : Walk) (sha : String) : Walk :=
  { w with history := { w.history with head := some sha, commitCount := w.history.commitCount + 1 } }

/-- A missing path is opened as if it were added. -/
theorem openMissing_eq (time : Int) (w : Walk) (path : String) :
    w.openMissing time path = if (w.at? path).isSome then w else w.apply time { kind := .added, path := path } := by
  unfold openMissing
  cases hat : w.at? path with
  | some place => rfl
  | none => simp [apply, touch, hat]

/-- What is open has a place among the records. -/
theorem Sound.lt_of_at? (hw : w.Sound) {path : String} {i : Nat} (hat : w.at? path = some i) :
    i < w.history.records.length := by
  obtain ⟨r, hr, -⟩ := hw.live_of_at? path i hat
  exact (List.getElem?_eq_some_iff.1 hr).1

/-- What a change is about has a place among the records. -/
theorem Sound.lt_of_met? (hw : w.Sound) {i : Nat} (h : w.met? c = some i) : i < w.history.records.length := by
  obtain ⟨path, -, hat⟩ := at?_of_met? h
  exact hw.lt_of_at? hat

/-! ## The mirror -/

/-- A walk mirrors the kept paths of a full one: a function takes the places of its records to the places of the
records at kept paths in the full walk. -/
structure Mirrors (kept : String → Prop) (place : Nat → Nat) (part full : Walk) : Prop where
  sound : part.Sound
  sound_full : full.Sound
  injective : Function.Injective place
  next : ∀ i, place (part.history.records.length + i) = full.history.records.length + i
  record : ∀ (i : Nat) r, part.history.records[i]? = some r →
    kept r.identity.path ∧ full.history.records[place i]? = some (r.numbered (place i))
  covered : ∀ (j : Nat) r, full.history.records[j]? = some r → kept r.identity.path →
    ∃ i < part.history.records.length, place i = j
  at?_eq : ∀ path, kept path → full.at? path = (part.at? path).map place
  head_eq : full.history.head = part.history.head
  commitCount_eq : full.history.commitCount = part.history.commitCount

/-- Empty walks mirror each other. -/
theorem mirrors_empty (kept : String → Prop) : Mirrors kept id {} {} where
  sound := sound_empty
  sound_full := sound_empty
  injective := Function.injective_id
  next _ := rfl
  record i r h := by cases h
  covered j r h := by cases h
  at?_eq _ _ := rfl
  head_eq := rfl
  commitCount_eq := rfl

namespace Mirrors

/-- The end of a commit keeps a mirror. -/
theorem committed (h : Mirrors kept place part full) (sha : String) :
    Mirrors kept place (part.committed sha) (full.committed sha) where
  sound := h.sound.congr rfl fun _ => rfl
  sound_full := h.sound_full.congr rfl fun _ => rfl
  injective := h.injective
  next := h.next
  record := h.record
  covered := h.covered
  at?_eq := h.at?_eq
  head_eq := rfl
  commitCount_eq := congrArg (· + 1) h.commitCount_eq

section Kept

variable (h : Mirrors kept place part full) (hkept : ∀ path ∈ c.mentioned, kept path)
include h hkept

/-- What is open at the paths of a change. -/
theorem at?_mentioned : ∀ path ∈ c.mentioned, full.at? path = (part.at? path).map place :=
  fun path hpath => h.at?_eq path (hkept path hpath)

/-- A change edits a record as it edits its mirror image. -/
theorem edited_eq (time : Int) (i : Nat) (r : ChurnRecord) :
    full.edited time c (place i) (r.numbered (place i)) = (part.edited time c i r).numbered (place i) := by
  have hplace (found : Option Nat) : found.map place = some (place i) ↔ found = some i := by
    cases found with
    | none => simp
    | some j => simp [h.injective.eq_iff]
  unfold edited
  rw [met?_eq_map (h.at?_mentioned hkept), displaced?_eq_map (h.at?_mentioned hkept)]
  simp only [hplace]
  split
  · exact c.effect_numbered time _ r
  · split <;> rfl

/-- A mirror is kept when both walks take a change at kept paths. -/
theorem apply (time : Int) : Mirrors kept place (part.apply time c) (full.apply time c) where
  sound := h.sound.apply time c
  sound_full := h.sound_full.apply time c
  injective := h.injective
  next i := by
    rw [h.sound.length_records_apply, h.sound_full.length_records_apply, opens_eq_of_map (h.at?_mentioned hkept),
      Nat.add_assoc, h.next, Nat.add_assoc]
  record i r hr := by
    obtain ⟨a, ha, rfl⟩ | ⟨hopens, rfl, rfl⟩ := (h.sound.getElem?_records_apply time c).1 hr
    · obtain ⟨hpath, hfull⟩ := h.record i a ha
      refine ⟨?_, (h.sound_full.getElem?_records_apply time c).2 (.inl ⟨_, hfull, h.edited_eq hkept time i a⟩)⟩
      obtain heq | ⟨-, heq⟩ := part.path_edited time c i a
      · exact heq ▸ hpath
      · exact heq ▸ hkept c.path c.path_mem_mentioned
    · refine ⟨hkept c.path c.path_mem_mentioned, (h.sound_full.getElem?_records_apply time c).2 (.inr ⟨?_, ?_, rfl⟩)⟩
      · rwa [opens_eq_of_map (h.at?_mentioned hkept)]
      · exact h.next 0
  covered j r hr hpath := by
    have hgrows : part.history.records.length ≤ (part.apply time c).history.records.length := by
      rw [h.sound.length_records_apply]
      exact Nat.le_add_right _ _
    obtain ⟨a, ha, rfl⟩ | ⟨hopens, rfl, rfl⟩ := (h.sound_full.getElem?_records_apply time c).1 hr
    · obtain heq | ⟨hmet, -⟩ := full.path_edited time c j a
      · obtain ⟨i, hi, rfl⟩ := h.covered j a ha (heq ▸ hpath)
        exact ⟨i, hi.trans_le hgrows, rfl⟩
      · rw [met?_eq_map (h.at?_mentioned hkept)] at hmet
        obtain ⟨i, hi, rfl⟩ := Option.map_eq_some_iff.1 hmet
        exact ⟨i, (h.sound.lt_of_met? hi).trans_le hgrows, rfl⟩
    · rw [opens_eq_of_map (h.at?_mentioned hkept)] at hopens
      refine ⟨part.history.records.length, ?_, h.next 0⟩
      rw [h.sound.length_records_apply, hopens]
      exact Nat.lt_succ_self _
  at?_eq path hpath := by
    have hfilled : (full.met? c).getD full.history.records.length =
        place ((part.met? c).getD part.history.records.length) := by
      rw [met?_eq_map (h.at?_mentioned hkept)]
      cases part.met? c with
      | some i => rfl
      | none => exact (h.next 0).symm
    rw [at?_apply, at?_apply, hfilled, h.at?_eq path hpath]
    split
    · rfl
    · split <;> rfl
  head_eq := by rw [(progress_apply _ _ _).1, (progress_apply _ _ _).1, h.head_eq]
  commitCount_eq := by rw [(progress_apply _ _ _).2, (progress_apply _ _ _).2, h.commitCount_eq]

end Kept

/-- A mirror is kept when both walks look for a kept path. -/
theorem openMissing (h : Mirrors kept place part full) {path : String} (hkept : kept path) (time : Int) :
    Mirrors kept place (part.openMissing time path) (full.openMissing time path) := by
  rw [openMissing_eq, openMissing_eq, h.at?_eq path hkept, Option.isSome_map]
  split
  · exact h
  · exact h.apply (by simpa [FileChange.mentioned] using hkept) time

end Mirrors

/-! ## Changes at other paths -/

/-- A change at other paths neither reaches nor adds a record at a kept path. -/
theorem Sound.getElem?_records_apply_of_not_kept (hw : w.Sound) (hother : ∀ path ∈ c.mentioned, ¬ kept path)
    (time : Int) {j : Nat} {r : ChurnRecord} (hr : kept r.identity.path) :
    (w.apply time c).history.records[j]? = some r ↔ w.history.records[j]? = some r := by
  -- A record that is open at a path of the change stands there, so it does not stand at a kept path.
  have hstays : ∀ a, w.history.records[j]? = some a → kept a.identity.path → w.edited time c j a = a := by
    refine fun a ha hkept => edited_eq_self (fun path hpath hat => ?_) a
    obtain ⟨a', ha', -, rfl⟩ := hw.live_of_at? path j hat
    obtain rfl : a = a' := Option.some.inj (ha.symm.trans ha')
    exact hother _ hpath hkept
  rw [hw.getElem?_records_apply]
  constructor
  · rintro (⟨a, ha, rfl⟩ | ⟨-, -, rfl⟩)
    · obtain heq | ⟨-, heq⟩ := w.path_edited time c j a
      · rwa [hstays a ha (heq ▸ hr)]
      · exact absurd (heq ▸ hr) (hother c.path c.path_mem_mentioned)
    · exact absurd hr (hother c.path c.path_mem_mentioned)
  · exact fun h => .inl ⟨r, h, hstays r h hr⟩

namespace Mirrors

/-- A mirror is kept, with its order, when the full walk takes a change at other paths. -/
theorem apply_full (h : Mirrors kept place part full) (hmono : StrictMono place)
    (hother : ∀ path ∈ c.mentioned, ¬ kept path) (time : Int) :
    ∃ place', StrictMono place' ∧ Mirrors kept place' part (full.apply time c) := by
  let place' i := if i < part.history.records.length then place i else place i + (full.opens c).toNat
  have hold : ∀ i, i < part.history.records.length → place' i = place i := fun i hi => if_pos hi
  have hmono' : StrictMono place' := by
    intro i j hij
    have hlt := hmono hij
    dsimp only [place']
    split <;> split <;> omega
  refine ⟨place', hmono', ?_⟩
  exact {
    sound := h.sound
    sound_full := h.sound_full.apply time c
    injective := hmono'.injective
    next i := by
      have hge : ¬ part.history.records.length + i < part.history.records.length := by omega
      dsimp only [place']
      rw [if_neg hge, h.next, h.sound_full.length_records_apply]
      omega
    record i r hr := by
      obtain ⟨hpath, hfull⟩ := h.record i r hr
      have himage : kept (r.numbered (place i)).identity.path := hpath
      rw [hold i (List.getElem?_eq_some_iff.1 hr).1]
      exact ⟨hpath, (h.sound_full.getElem?_records_apply_of_not_kept hother time himage).2 hfull⟩
    covered j r hr hpath := by
      obtain ⟨i, hi, hij⟩ :=
        h.covered j r ((h.sound_full.getElem?_records_apply_of_not_kept hother time hpath).1 hr) hpath
      exact ⟨i, hi, (hold i hi).trans hij⟩
    at?_eq path hpath := by
      rw [at?_apply_of_not_mentioned (fun hmem => hother path hmem hpath), h.at?_eq path hpath]
      cases hat : part.at? path with
      | none => rfl
      | some i => exact congrArg some (hold i (h.sound.lt_of_at? hat)).symm
    head_eq := (progress_apply _ _ _).1.trans h.head_eq
    commitCount_eq := (progress_apply _ _ _).2.trans h.commitCount_eq }

/-- A mirror is kept, with its order, when the full walk looks for another path. -/
theorem openMissing_full (h : Mirrors kept place part full) (hmono : StrictMono place) {path : String}
    (hother : ¬ kept path) (time : Int) :
    ∃ place', StrictMono place' ∧ Mirrors kept place' part (full.openMissing time path) := by
  rw [openMissing_eq]
  split
  · exact ⟨place, hmono, h⟩
  · exact h.apply_full hmono (by simpa [FileChange.mentioned] using hother) time

end Mirrors

end Walk

end Hotspots
