import Hotspots.Proofs.Text.Encoded
import Hotspots.Proofs.Number.Digits

/-!
# ASCII text as bytes

A text of ASCII characters has one byte for each of them, the code of the character. Other texts have no
byte below 128 that is not the code of one of their characters.
-/

namespace Hotspots.Utf8

/-- Only characters of the ASCII range. -/
def IsAscii (cs : List Char) : Prop := ∀ c ∈ cs, c.toNat < 128

instance : DecidablePred IsAscii := fun cs => List.decidableBAll _ cs

/-- ASCII texts are put together from ASCII texts. -/
theorem isAscii_append {cs ds : List Char} : IsAscii (cs ++ ds) ↔ IsAscii cs ∧ IsAscii ds := by
  simp only [IsAscii, List.mem_append]
  exact ⟨fun h => ⟨fun c hc => h c (.inl hc), fun c hc => h c (.inr hc)⟩,
    fun h c hc => hc.elim (h.1 c) (h.2 c)⟩

/-- The decimal text of a number is ASCII. -/
theorem isAscii_natText (n : Nat) : IsAscii (natText n).toList := by
  intro c hc
  have hcode := Reading.toNat_of_isDigit (Reading.isDigit_of_mem_natText hc)
  omega

/-- The bytes of joined texts. -/
theorem encodeChars_append (cs ds : List Char) : encodeChars (cs ++ ds) = encodeChars cs ++ encodeChars ds :=
  List.flatMap_append

/-- The bytes of joined strings. -/
theorem encode_append (s t : String) : encode (s ++ t) = encode s ++ encode t := by
  rw [encode, String.toList_append, encodeChars_append]
  rfl

/-- An ASCII text has the codes of its characters as bytes. -/
theorem encodeChars_of_isAscii {cs : List Char} (h : IsAscii cs) :
    encodeChars cs = cs.map fun c => c.toNat.toUInt8 := by
  induction cs with
  | nil => rfl
  | cons c rest ih =>
    have hone : encodeChar c = [c.toNat.toUInt8] := by
      unfold encodeChar
      exact if_pos (h c List.mem_cons_self)
    rw [encodeChars, List.flatMap_cons, hone, ← encodeChars, ih fun d hd => h d (List.mem_cons_of_mem _ hd)]
    rfl

/-- A small byte of a text is the code of one of its characters. -/
theorem exists_of_mem_encodeChars {cs : List Char} {b : UInt8} (h : b ∈ encodeChars cs)
    (hb : b.toNat < 128) : ∃ c ∈ cs, b.toNat = c.toNat := by
  obtain ⟨c, hc, hmem⟩ := List.mem_flatMap.1 h
  exact ⟨c, hc, toNat_of_mem_encodeChar hmem hb⟩

/-- All bytes of an ASCII text are small. -/
theorem toNat_lt_of_mem_encodeChars {cs : List Char} (h : IsAscii cs) {b : UInt8} (hb : b ∈ encodeChars cs) :
    b.toNat < 128 := by
  rw [encodeChars_of_isAscii h] at hb
  obtain ⟨c, hc, rfl⟩ := List.mem_map.1 hb
  rw [toNat_toUInt8 (by have := h c hc; omega)]
  exact h c hc

/-- The characters of the bytes of an ASCII text are those of the text. -/
theorem map_ofNat_encodeChars {cs : List Char} (h : IsAscii cs) :
    (encodeChars cs).map (fun b => Char.ofNat b.toNat) = cs := by
  rw [encodeChars_of_isAscii h, List.map_map]
  refine (List.map_congr_left fun c hc => ?_).trans (List.map_id cs)
  have hcode := h c hc
  simp only [Function.comp, id_eq]
  rw [toNat_toUInt8 (by omega), Char.ofNat_toNat]

end Hotspots.Utf8
