import Hotspots.Record
import Mathlib.Data.List.Nodup
import Mathlib.Data.List.Perm.Basic

/-!
# Looking up what was put

A look-up finds an entry of the record, and finds every entry of a record whose keys are distinct.
Putting entries one after the other makes the last of each key count (`putAll_map_perm`), so a record built from
entries with distinct keys holds exactly these.
-/

namespace Hotspots.Record

variable {κ α : Type} [DecidableEq κ]

/-- A value that is found was entered under its key. -/
theorem mem_of_get? {key : κ} {value : α} {r : List (κ × α)} (h : get? key r = some value) :
    (key, value) ∈ r := by
  induction r with
  | nil => simp [get?] at h
  | cons e rest ih =>
    obtain ⟨k, v⟩ := e
    by_cases hk : k = key
    · simp_all [get?]
    · simp only [get?, if_neg hk] at h
      exact List.mem_cons_of_mem _ (ih h)

/-- Keys that are entered have a value, and no others. -/
theorem get?_eq_none_iff {key : κ} {r : List (κ × α)} :
    get? key r = none ↔ key ∉ r.map Prod.fst := by
  induction r with
  | nil => simp [get?]
  | cons e rest ih =>
    obtain ⟨k, v⟩ := e
    by_cases hk : k = key
    · simp [get?, hk]
    · simp [get?, hk, ih, Ne.symm hk]

/-- A key has a value exactly when it is entered. -/
theorem has_eq_true_iff {key : κ} {r : List (κ × α)} : has key r = true ↔ key ∈ r.map Prod.fst := by
  rw [has, Option.isSome_iff_ne_none, Ne, get?_eq_none_iff, not_not]

/-- With distinct keys every entry is found under its key. -/
theorem get?_of_mem {key : κ} {value : α} {r : List (κ × α)} (hkeys : (r.map Prod.fst).Nodup)
    (h : (key, value) ∈ r) : get? key r = some value := by
  induction r with
  | nil => simp at h
  | cons e rest ih =>
    obtain ⟨k, v⟩ := e
    rw [List.map_cons, List.nodup_cons] at hkeys
    rcases List.mem_cons.1 h with heq | hrest
    · cases heq
      simp [get?]
    · have hk : k ≠ key := by
        rintro rfl
        exact hkeys.1 (List.mem_map.2 ⟨_, hrest, rfl⟩)
      rw [get?, if_neg hk]
      exact ih hkeys.2 hrest

/-- With distinct keys a look-up does not depend on the order of the entries. -/
theorem get?_eq_of_perm {r r' : List (κ × α)} (hkeys : (r.map Prod.fst).Nodup) (h : r'.Perm r) (key : κ) :
    get? key r' = get? key r := by
  cases hget : get? key r with
  | none =>
    rw [get?_eq_none_iff] at hget ⊢
    exact fun hmem => hget ((h.map _).mem_iff.1 hmem)
  | some value => exact get?_of_mem ((h.map _).nodup_iff.2 hkeys) (h.mem_iff.2 (mem_of_get? hget))

/-- Looking up among changed values gives the changed value. -/
theorem get?_map {β : Type} (g : α → β) (key : κ) (r : List (κ × α)) :
    get? key (r.map fun e => (e.1, g e.2)) = (get? key r).map g := by
  induction r with
  | nil => rfl
  | cons e rest ih =>
    obtain ⟨k, v⟩ := e
    by_cases hk : k = key
    · simp [get?, hk]
    · simp [get?, hk, ih]

/-- A look-up after one value was put. -/
theorem get?_put (key other : κ) (value : α) (r : List (κ × α)) :
    get? other (put key value r) = if other = key then some value else get? other r := by
  split
  · next h => rw [h, get?_put_self]
  · next h => exact get?_put_of_ne h value r

/-- A look-up after one key was erased. -/
theorem get?_erase (key other : κ) (r : List (κ × α)) :
    get? other (erase key r) = if other = key then none else get? other r := by
  split
  · next h => rw [h, get?_erase_self]
  · next h => exact get?_erase_of_ne h r

/-- Putting a value for a new key appends it. -/
theorem put_of_not_mem {key : κ} (value : α) {r : List (κ × α)} (h : key ∉ r.map Prod.fst) :
    put key value r = r ++ [(key, value)] := by
  induction r with
  | nil => rfl
  | cons e rest ih =>
    obtain ⟨k, v⟩ := e
    simp only [List.map_cons, List.mem_cons, not_or] at h
    simp [put, Ne.symm h.1, ih h.2]

/-- Of several entries of one key the last one that was put counts. -/
theorem get?_putAll (key : κ) (entries r : List (κ × α)) :
    get? key (putAll entries r) =
      ((entries.reverse.find? fun e => e.1 = key).map Prod.snd).or (get? key r) := by
  induction entries generalizing r with
  | nil => simp [putAll]
  | cons e rest ih =>
    have hstep : putAll (e :: rest) r = putAll rest (put e.1 e.2 r) := rfl
    rw [hstep, ih, get?_put, List.reverse_cons, List.find?_append]
    by_cases hk : key = e.1
    · subst hk
      cases rest.reverse.find? fun x => decide (x.1 = e.1) <;> simp
    · cases rest.reverse.find? fun x => decide (x.1 = key) <;> simp [hk, Ne.symm hk]

/-- The keys of a record are those of the entries that it was built from. -/
theorem has_putAll_nil {key : κ} {entries : List (κ × α)} :
    has key (putAll entries []) = true ↔ key ∈ entries.map Prod.fst := by
  rw [has, get?_putAll, get?, Option.or_none, Option.isSome_map, List.find?_isSome, List.mem_map]
  simp only [List.mem_reverse, decide_eq_true_eq]

/-- A value that is found in a record comes from one of the entries that it was built from. -/
theorem mem_of_get?_putAll {key : κ} {value : α} {entries : List (κ × α)}
    (h : get? key (putAll entries []) = some value) : (key, value) ∈ entries := by
  rw [get?_putAll] at h
  cases hfind : entries.reverse.find? fun e => e.1 = key with
  | none => simp [hfind, get?] at h
  | some e =>
    obtain ⟨k, v⟩ := e
    have hkey := List.find?_some hfind
    simp only [hfind, Option.map_some, Option.some_or, Option.some.injEq, decide_eq_true_eq] at h hkey
    rw [← h, ← hkey]
    exact List.mem_reverse.1 (List.mem_of_find?_eq_some hfind)

/-- The keys after entries were put are the ones that were there and those of the entries. -/
theorem mem_keys_putAll {key : κ} {entries r : List (κ × α)} :
    key ∈ (putAll entries r).map Prod.fst ↔ key ∈ entries.map Prod.fst ∨ key ∈ r.map Prod.fst := by
  rw [← has_eq_true_iff, ← has_eq_true_iff (r := r), has, has, get?_putAll, Option.isSome_or, Bool.or_eq_true,
    Option.isSome_map, List.find?_isSome, List.mem_map]
  simp only [List.mem_reverse, decide_eq_true_eq]

/-- After a value was put there is this entry, and there are entries that were there. -/
theorem mem_of_mem_put {key : κ} {value : α} {e : κ × α} {r : List (κ × α)} (h : e ∈ put key value r) :
    e = (key, value) ∨ e ∈ r := by
  induction r with
  | nil => exact .inl (List.mem_singleton.1 h)
  | cons first rest ih =>
    obtain ⟨k, v⟩ := first
    by_cases hk : k = key
    · rw [put, if_pos hk, hk] at h
      exact (List.mem_cons.1 h).imp_right (List.mem_cons_of_mem _)
    · rw [put, if_neg hk] at h
      rcases List.mem_cons.1 h with rfl | hrest
      · exact .inr List.mem_cons_self
      · exact (ih hrest).imp_right (List.mem_cons_of_mem _)

/-- Keys stay distinct when a value is put. -/
theorem nodup_put {key : κ} {value : α} {r : List (κ × α)} (h : (r.map Prod.fst).Nodup) :
    ((put key value r).map Prod.fst).Nodup := by
  induction r with
  | nil => simp [put]
  | cons e rest ih =>
    obtain ⟨k, v⟩ := e
    rw [List.map_cons, List.nodup_cons] at h
    by_cases hk : k = key
    · rw [put, if_pos hk]
      exact List.nodup_cons.2 h
    · have hnew : k ∉ (put key value rest).map Prod.fst := by
        rw [← has_eq_true_iff, has, get?_put_of_ne hk]
        exact fun hin => h.1 (has_eq_true_iff.1 hin)
      rw [put, if_neg hk]
      exact List.nodup_cons.2 ⟨hnew, ih h.2⟩

/-- Putting several entries keeps the keys distinct. -/
theorem nodup_putAll {entries r : List (κ × α)} (h : (r.map Prod.fst).Nodup) :
    ((putAll entries r).map Prod.fst).Nodup := by
  induction entries generalizing r with
  | nil => exact h
  | cons e rest ih => exact ih (nodup_put h)

/-- With distinct keys a look-up among the entries with certain values finds a value if it is one of these. -/
theorem get?_filter {keep : α → Bool} {key : κ} {r : List (κ × α)} (h : (r.map Prod.fst).Nodup) :
    get? key (r.filter fun e => keep e.2) = (get? key r).filter keep := by
  induction r with
  | nil => rfl
  | cons e rest ih =>
    obtain ⟨k, v⟩ := e
    rw [List.map_cons, List.nodup_cons] at h
    by_cases hk : k = key
    · -- What follows has no other value for the key, so that a value that is not kept is not replaced.
      have hnone : get? key rest = none := get?_eq_none_iff.2 (hk ▸ h.1)
      cases hv : keep v with
      | true => simp [get?, hk, hv, Option.filter]
      | false => simp [get?, hk, hv, ih h.2, hnone, Option.filter]
    · cases hv : keep v with
      | true => simp [get?, hk, hv, ih h.2]
      | false => simp [get?, hk, hv, ih h.2]

/-- Entries with new and distinct keys are appended in their order. -/
theorem putAll_eq_append {entries r : List (κ × α)} (h : ((r ++ entries).map Prod.fst).Nodup) :
    putAll entries r = r ++ entries := by
  induction entries generalizing r with
  | nil => simp [putAll]
  | cons e rest ih =>
    have hnew : e.1 ∉ r.map Prod.fst := by
      rw [List.map_append, List.map_cons] at h
      exact fun hmem => (List.nodup_append.1 h).2.2 _ hmem _ List.mem_cons_self rfl
    have hstep : putAll (e :: rest) r = putAll rest (r ++ [e]) := by
      rw [← put_of_not_mem e.2 hnew]
      rfl
    rw [hstep, ih (by simpa using h), List.append_assoc, List.singleton_append]

/-- A record built from entries with distinct keys is made of these entries. -/
theorem putAll_nil {entries : List (κ × α)} (h : (entries.map Prod.fst).Nodup) :
    putAll entries [] = entries := by
  simpa using putAll_eq_append (r := []) (by simpa using h)

/-- Records with distinct keys and the same look-ups hold the same entries. -/
theorem perm_of_get?_eq {r r' : List (κ × α)} (hkeys : (r.map Prod.fst).Nodup) (hkeys' : (r'.map Prod.fst).Nodup)
    (h : ∀ key, get? key r = get? key r') : r.Perm r' := by
  refine (List.perm_ext_iff_of_nodup (List.Nodup.of_map _ hkeys) (List.Nodup.of_map _ hkeys')).2 ?_
  rintro ⟨key, value⟩
  constructor
  · intro hmem
    exact mem_of_get? ((h key).symm.trans (get?_of_mem hkeys hmem))
  · intro hmem
    exact mem_of_get? ((h key).trans (get?_of_mem hkeys' hmem))

section Latest

variable {β : Type} {b : β} {bs : List β}

/-- The elements of a list that no later one with the same key follows. -/
def latestBy (key : β → κ) : List β → List β
  | [] => []
  | b :: rest => if key b ∈ rest.map key then latestBy key rest else b :: latestBy key rest

/-- The latest elements are elements. -/
theorem latestBy_sublist (key : β → κ) (bs : List β) : (latestBy key bs).Sublist bs := by
  induction bs with
  | nil => exact List.Sublist.refl _
  | cons b rest ih =>
    rw [latestBy]
    split
    · exact ih.cons b
    · exact ih.cons_cons b

/-- The latest elements have distinct keys. -/
theorem nodup_latestBy (key : β → κ) (bs : List β) : ((latestBy key bs).map key).Nodup := by
  induction bs with
  | nil => exact List.nodup_nil
  | cons b rest ih =>
    rw [latestBy]
    split
    · exact ih
    · next hnew =>
      rw [List.map_cons, List.nodup_cons]
      exact ⟨fun hmem => hnew (((latestBy_sublist key rest).map key).subset hmem), ih⟩

/-- Elements with distinct keys are all the latest. -/
theorem latestBy_eq_self {key : β → κ} (h : (bs.map key).Nodup) : latestBy key bs = bs := by
  induction bs with
  | nil => rfl
  | cons b rest ih =>
    rw [List.map_cons, List.nodup_cons] at h
    rw [latestBy, if_neg h.1, ih h.2]

/-- The latest element of a key is the last one. -/
theorem get?_latestBy (key : β → κ) (value : β → α) (bs : List β) (k : κ) :
    get? k ((latestBy key bs).map fun b => (key b, value b)) =
      (bs.reverse.find? fun b => key b = k).map value := by
  induction bs with
  | nil => rfl
  | cons b rest ih =>
    rw [latestBy, List.reverse_cons, List.find?_append, Option.map_or, ← ih]
    split
    · next hlater =>
      -- A later element has the key, so that it does not matter what this one is.
      cases hfound : get? k ((latestBy key rest).map fun b => (key b, value b)) with
      | some v => rfl
      | none =>
        have hother : key b ≠ k := by
          rintro rfl
          rw [ih, Option.map_eq_none_iff, List.find?_eq_none] at hfound
          obtain ⟨c, hc, hkey⟩ := List.mem_map.1 hlater
          exact hfound c (List.mem_reverse.2 hc) (by simpa using hkey)
        simp [hother]
    · next hnew =>
      rw [List.map_cons, get?]
      split
      · next hkey =>
        have hnone : get? k ((latestBy key rest).map fun b => (key b, value b)) = none := by
          rw [ih, Option.map_eq_none_iff, List.find?_eq_none]
          intro c hc hc'
          refine hnew (List.mem_map.2 ⟨c, List.mem_reverse.1 hc, ?_⟩)
          rw [hkey]
          simpa using hc'
        simp [hnone, hkey]
      · next hkey => simp [hkey]

/-- A record built from a list has an entry for the latest element of each key. -/
theorem putAll_map_perm (key : β → κ) (value : β → α) (bs : List β) :
    (putAll (bs.map fun b => (key b, value b)) []).Perm ((latestBy key bs).map fun b => (key b, value b)) := by
  have hkeys : ((putAll (bs.map fun b => (key b, value b)) []).map Prod.fst).Nodup := nodup_putAll List.nodup_nil
  refine perm_of_get?_eq hkeys ?_ fun k => ?_
  · simpa [Function.comp_def] using nodup_latestBy key bs
  · rw [get?_putAll, get?_latestBy, get?, Option.or_none, ← List.map_reverse, List.find?_map, Option.map_map]
    rfl

end Latest

end Hotspots.Record
