/-!
# Records with keys in order

A record is a list of keys with values, in the order in which the keys were first put. Putting a key
that is there replaces its value in place; a new key goes to the end.
-/

namespace Hotspots.Record

variable {κ α : Type} [DecidableEq κ]

/-- The value of a key. -/
def get? (key : κ) : List (κ × α) → Option α
  | [] => none
  | (k, v) :: rest => if k = key then some v else get? key rest

/-- The record with a value for a key. -/
def put (key : κ) (value : α) : List (κ × α) → List (κ × α)
  | [] => [(key, value)]
  | (k, v) :: rest => if k = key then (k, value) :: rest else (k, v) :: put key value rest

/-- The record with the values of another put in, in order. -/
def putAll (entries : List (κ × α)) (record : List (κ × α)) : List (κ × α) :=
  entries.foldl (fun r (k, v) => put k v r) record

/-- The record without a key. -/
def erase (key : κ) (record : List (κ × α)) : List (κ × α) :=
  record.filter fun (k, _) => k ≠ key

/-- Whether a key has a value. -/
def has (key : κ) (record : List (κ × α)) : Bool := (get? key record).isSome

/-- A value that was put is there. -/
@[simp] theorem get?_put_self (key : κ) (value : α) (r : List (κ × α)) :
    get? key (put key value r) = some value := by
  induction r with
  | nil => simp [put, get?]
  | cons e rest ih =>
    obtain ⟨k, v⟩ := e
    by_cases h : k = key <;> simp [put, get?, h, ih]

/-- Putting a key leaves the other keys alone. -/
theorem get?_put_of_ne {key other : κ} (h : other ≠ key) (value : α) (r : List (κ × α)) :
    get? other (put key value r) = get? other r := by
  induction r with
  | nil => simp [put, get?, Ne.symm h]
  | cons e rest ih =>
    obtain ⟨k, v⟩ := e
    by_cases hk : k = key
    · subst hk; simp [put, get?, Ne.symm h]
    · by_cases ho : k = other
      · subst ho; simp [put, get?, hk]
      · simp [put, get?, hk, ho, ih]

/-- A key that was erased is gone. -/
@[simp] theorem get?_erase_self (key : κ) (r : List (κ × α)) : get? key (erase key r) = none := by
  induction r with
  | nil => rfl
  | cons e rest ih =>
    obtain ⟨k, v⟩ := e
    by_cases h : k = key
    · simpa [erase, h] using ih
    · simpa [erase, h, get?] using ih

/-- Erasing a key leaves the other keys alone. -/
theorem get?_erase_of_ne {key other : κ} (h : other ≠ key) (r : List (κ × α)) :
    get? other (erase key r) = get? other r := by
  induction r with
  | nil => rfl
  | cons e rest ih =>
    obtain ⟨k, v⟩ := e
    by_cases hk : k = key
    · subst hk; simpa [erase, get?, Ne.symm h] using ih
    · by_cases ho : k = other
      · subst ho; simp [erase, get?, h]
      · simpa [erase, hk, get?, ho] using ih

end Hotspots.Record
