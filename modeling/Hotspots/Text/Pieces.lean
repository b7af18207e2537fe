/-!
# Pieces of a list

`splitOn` cuts a list at every occurrence of a separator, and joining the pieces with the separator
gives the list back. `partition` cuts at the first occurrence only.
-/

namespace Hotspots.Pieces

variable {α : Type} [BEq α]

/-- The pieces of a list between the occurrences of a separator; always at least one. -/
def splitOn (separator : α) : List α → List (List α)
  | [] => [[]]
  | b :: rest =>
    if b == separator then [] :: splitOn separator rest
    else match splitOn separator rest with
      | [] => [[b]]
      | piece :: pieces => (b :: piece) :: pieces

/-- There is always a piece. -/
theorem splitOn_ne_nil (separator : α) (bs : List α) : splitOn separator bs ≠ [] := by
  cases bs with
  | nil => simp [splitOn]
  | cons b rest =>
    unfold splitOn
    split
    · simp
    · split <;> simp

/-- Joining the pieces with the separator gives the list back. -/
theorem intercalate_splitOn [LawfulBEq α] (separator : α) (bs : List α) :
    [separator].intercalate (splitOn separator bs) = bs := by
  induction bs with
  | nil => rfl
  | cons b rest ih =>
    obtain ⟨p, ps, hs⟩ := List.exists_cons_of_ne_nil (splitOn_ne_nil separator rest)
    rw [hs] at ih
    unfold splitOn
    rw [hs]
    split
    · rename_i h
      cases ps <;> simp_all [List.intercalate]
    · cases ps <;> simp_all [List.intercalate]

/-- What stands before the first occurrence of a separator, and what stands after it. -/
def partition (separator : α) (bs : List α) : List α × List α :=
  (bs.takeWhile (· != separator), (bs.dropWhile (· != separator)).drop 1)

end Hotspots.Pieces
