import Hotspots.Number.Reading
import Mathlib.Data.Nat.Digits.Defs

/-!
# Numbers that were written in decimal

The decimal text of a natural number is read back as that number, if it is read at all: a text with too many
digits is not, and every other one is.
-/

namespace Hotspots.Reading

/-- A digit of the first script has its distance from the zero as its value. -/
theorem value?_of_isDigit {c : Char} (h : c.isDigit = true) : DecimalDigit.value? c = some (c.toNat - 48) := by
  have hcode : c.toNat < 128 := by
    simp only [Char.isDigit, Bool.and_eq_true, decide_eq_true_eq, ge_iff_le, UInt32.le_iff_toNat_le] at h
    have hle : c.toNat ≤ 57 := h.2
    omega
  rw [DecimalDigit.value?, if_pos hcode, if_pos h]

/-- Digits are read to their end. -/
theorem digitsFrom_of_isDigit {cs : List Char} (h : ∀ c ∈ cs, c.isDigit = true) (afterDigit : Bool) :
    digitsFrom afterDigit cs = (cs.map fun c => c.toNat - 48, []) := by
  induction cs generalizing afterDigit with
  | nil => cases afterDigit <;> rfl
  | cons c rest ih =>
    have hc := h c List.mem_cons_self
    have hrest := ih (fun d hd => h d (List.mem_cons_of_mem _ hd)) true
    have hunderscore : c ≠ '_' := by
      rintro rfl
      cases hc
    cases afterDigit with
    | false => simp [digitsFrom, value?_of_isDigit hc, hrest]
    | true =>
      rw [digitsFrom.eq_def]
      split
      · next heq => exact (hunderscore (by injection heq)).elim
      · next heq _ =>
        injection heq with hhead htail
        subst hhead htail
        simp [value?_of_isDigit hc, hrest]
      · next heq => cases heq

/-- The values of the decimal digits of a number spell the number. -/
theorem ofDigitValues_toDigits (n : Nat) :
    ofDigitValues ((Nat.toDigits 10 n).map fun c => c.toNat - 48) = n := by
  induction n using Nat.strongRecOn with
  | ind n ih =>
    rw [Nat.toDigits_eq_if (by omega)]
    split
    · next hlt => simp [ofDigitValues, Nat.toNat_digitChar_sub_48_of_lt_ten hlt]
    · next hge =>
      have hdiv := ih (n / 10) (by omega)
      rw [ofDigitValues] at hdiv
      rw [ofDigitValues, List.map_append, List.foldl_append, hdiv, List.map_singleton, List.foldl_cons,
        List.foldl_nil, Nat.toNat_digitChar_sub_48_of_lt_ten (Nat.mod_lt n (by omega))]
      omega

/-- The decimal text of a number has only digits. -/
theorem isDigit_of_mem_natText {n : Nat} {c : Char} (h : c ∈ (natText n).toList) : c.isDigit = true := by
  rw [natText, String.toList_ofList] at h
  exact Nat.isDigit_of_mem_toDigits (by omega) (by omega) h

/-- The decimal text of a number is not empty. -/
theorem toList_natText_ne_nil (n : Nat) : (natText n).toList ≠ [] := by
  rw [natText, String.toList_ofList]
  exact Nat.toDigits_ne_nil

/-- The code points of digits. -/
theorem toNat_of_isDigit {c : Char} (h : c.isDigit = true) : 48 ≤ c.toNat ∧ c.toNat ≤ 57 := by
  simp only [Char.isDigit, Bool.and_eq_true, decide_eq_true_eq, ge_iff_le, UInt32.le_iff_toNat_le] at h
  exact h

/-- Digits stand around nothing. -/
theorem inner_of_isDigit {cs : List Char} (h : ∀ c ∈ cs, c.isDigit = true) : inner cs = cs := by
  have houter : ∀ c ∈ cs, isOuterBlank c = false := by
    intro c hc
    have hcode := toNat_of_isDigit (h c hc)
    have hspace : c ≠ ' ' := by
      rintro rfl
      exact absurd hcode.1 (by decide)
    simp only [isOuterBlank, Bool.or_eq_false_iff, Bool.and_eq_false_iff, decide_eq_false_iff_not,
      beq_eq_false_iff_ne]
    exact ⟨⟨by omega, hspace⟩, by omega⟩
  have hdrop : ∀ ds : List Char, (∀ c ∈ ds, isOuterBlank c = false) → ds.dropWhile isOuterBlank = ds := by
    intro ds hds
    cases ds with
    | nil => rfl
    | cons d rest => rw [List.dropWhile_cons, if_neg (by simp [hds d List.mem_cons_self])]
  rw [inner, hdrop cs houter, hdrop cs.reverse (fun c hc => houter c (List.mem_reverse.1 hc)),
    List.reverse_reverse]

/-- Digits have no sign in front. -/
theorem sign_of_isDigit {cs : List Char} (h : ∀ c ∈ cs, c.isDigit = true) : sign cs = (false, cs) := by
  unfold sign
  split
  · exact absurd (h _ List.mem_cons_self) (by decide)
  · exact absurd (h _ List.mem_cons_self) (by decide)
  · rfl

/-- Digits are read as the number that they spell, if they are read. -/
theorem eq_of_whole {shown : String} {cs : List Char} {i : Int} (hdigits : ∀ c ∈ cs, c.isDigit = true)
    (h : whole shown cs = .ok i) : i = ofDigitValues (cs.map fun c => c.toNat - 48) := by
  unfold whole at h
  rw [inner_of_isDigit hdigits, sign_of_isDigit hdigits] at h
  dsimp only at h
  rw [digits, digitsFrom_of_isDigit hdigits false] at h
  dsimp only at h
  by_cases hlong : maxDigits < (cs.map fun c => c.toNat - 48).length
  · rw [if_pos hlong] at h
    cases h
  · rw [if_neg hlong] at h
    by_cases hempty : ((cs.map fun c => c.toNat - 48).isEmpty || !([] : List Char).isEmpty) = true
    · rw [if_pos hempty] at h
      cases h
    · rw [if_neg hempty] at h
      injection h with h
      exact h.symm

/-- The decimal text of a number is read as that number, if it is read. -/
theorem eq_of_whole_natText {shown : String} {n : Nat} {i : Int}
    (h : whole shown (natText n).toList = .ok i) : i = n := by
  rw [eq_of_whole (fun c hc => isDigit_of_mem_natText hc) h, natText, String.toList_ofList,
    ofDigitValues_toDigits]

/-- Digits that are not too many are read. -/
theorem exists_whole {shown : String} {cs : List Char} (hdigits : ∀ c ∈ cs, c.isDigit = true) (hne : cs ≠ [])
    (hlength : cs.length ≤ maxDigits) : ∃ i, whole shown cs = .ok i := by
  unfold whole
  rw [inner_of_isDigit hdigits, sign_of_isDigit hdigits]
  dsimp only
  rw [digits, digitsFrom_of_isDigit hdigits false]
  dsimp only
  rw [if_neg (by simpa using hlength), if_neg (by simpa using hne)]
  exact ⟨_, rfl⟩

/-- A number below a power of ten has no more digits than the power has zeros. -/
theorem length_natText_le {n k : Nat} (hk : 0 < k) (h : n < 10 ^ k) : (natText n).toList.length ≤ k := by
  rw [natText, String.toList_ofList]
  exact Nat.toDigits_length 10 n k hk h

/-- The decimal text of a number of few digits is read as that number. -/
theorem whole_natText {shown : String} {n : Nat} (h : (natText n).toList.length ≤ maxDigits) :
    whole shown (natText n).toList = .ok n := by
  obtain ⟨i, hi⟩ := exists_whole (fun c hc => isDigit_of_mem_natText hc) (toList_natText_ne_nil n) h
  rw [hi, eq_of_whole_natText hi]

end Hotspots.Reading

namespace Hotspots

/-! ## Texts of numbers -/

/-- Neither blanks nor control characters. -/
def IsGraphic (cs : List Char) : Prop := ∀ c ∈ cs, ' ' < c

@[simp] theorem isGraphic_nil : IsGraphic [] := nofun

@[simp] theorem isGraphic_cons {c : Char} {cs : List Char} : IsGraphic (c :: cs) ↔ ' ' < c ∧ IsGraphic cs :=
  List.forall_mem_cons

@[simp] theorem isGraphic_append {cs ds : List Char} : IsGraphic (cs ++ ds) ↔ IsGraphic cs ∧ IsGraphic ds :=
  List.forall_mem_append

@[simp] theorem isGraphic_replicate {n : Nat} {c : Char} : IsGraphic (List.replicate n c) ↔ n = 0 ∨ ' ' < c := by
  simp [IsGraphic, List.mem_replicate, or_iff_not_imp_left]

/-- A part of a text without blanks has none. -/
theorem IsGraphic.of_sublist {cs ds : List Char} (h : IsGraphic ds) (hsub : cs.Sublist ds) : IsGraphic cs :=
  fun c hc => h c (hsub.subset hc)

/-- The decimal text of a natural number has no blanks. -/
@[simp] theorem isGraphic_natText (n : Nat) : IsGraphic (natText n).toList := by
  intro c hc
  have hcode := (Reading.toNat_of_isDigit (Reading.isDigit_of_mem_natText hc)).1
  exact Char.lt_def.2 (UInt32.lt_iff_toNat_lt.2 (lt_of_lt_of_le (by decide) hcode))

/-- The decimal text of an integer has no blanks. -/
@[simp] theorem isGraphic_intText (i : Int) : IsGraphic (intText i).toList := by
  unfold intText
  split <;> simp

namespace Binary64

variable {digits : String}

/-- Digits that are laid out without an exponent have no blanks. -/
theorem isGraphic_positional (h : IsGraphic digits.toList) (exponent : Int) :
    IsGraphic (positional digits exponent).toList := by
  have htake (n : Nat) : IsGraphic (digits.toList.take n) := h.of_sublist (List.take_sublist n _)
  have hdrop (n : Nat) : IsGraphic (digits.toList.drop n) := h.of_sublist (List.drop_sublist n _)
  unfold positional
  dsimp only
  split
  · simp [h]
  · split <;> simp [h, htake, hdrop]

/-- Digits that are laid out with an exponent have no blanks. -/
theorem isGraphic_scientific (h : IsGraphic digits.toList) (exponent : Int) :
    IsGraphic (scientific digits exponent).toList := by
  have hhead := h.of_sublist (List.take_sublist 1 _)
  have htail := h.of_sublist (List.drop_sublist 1 _)
  unfold scientific
  simp only [String.toList_append, isGraphic_append, String.toList_ofList]
  refine ⟨⟨⟨hhead, ?_⟩, ?_⟩, ?_⟩ <;> split <;> simp_all

/-- The text of a magnitude has no blanks. -/
@[simp] theorem isGraphic_magnitudeText (units : Nat) : IsGraphic (magnitudeText units).toList := by
  unfold magnitudeText
  dsimp only
  split
  · simp
  · split
    · exact isGraphic_positional (isGraphic_natText _) _
    · exact isGraphic_scientific (isGraphic_natText _) _

/-- The text of a value has no blanks. -/
@[simp] theorem isGraphic_text (x : Binary64) : IsGraphic x.text.toList := by
  rcases x with _ | negative | ⟨negative, units⟩
  · simp [text]
  · cases negative <;> simp [text]
  · cases negative <;> simp [text]

end Binary64

end Hotspots
