import Hotspots.Text.Utf8

/-!
# Text that was encoded

The bytes of a character are read as one piece of well-formed text, whatever follows them, so that reading
gives back every text that was encoded (`decodeLossy_encode`). Bytes are compared as numbers.
-/

namespace Hotspots.Utf8

/-- A code point below the surrogates is the code of its character. -/
theorem toNat_charOfNat {n : Nat} (h : n < 0xD800) : (Char.ofNat n).toNat = n := by
  have hvalid : n.isValidChar := .inl h
  rw [Char.ofNat, dif_pos hvalid]
  rfl

/-- A number that fits into a byte is kept. -/
theorem toNat_toUInt8 {n : Nat} (h : n < 256) : n.toUInt8.toNat = n := by
  simp [Nat.mod_eq_of_lt h]

/-- The range of the bytes that continue a character. -/
theorem isContinuation_iff (b : UInt8) : isContinuation b = true ↔ 128 ≤ b.toNat ∧ b.toNat < 192 := by
  simp [isContinuation, UInt8.le_iff_toNat_le, UInt8.lt_iff_toNat_lt]

/-- The second bytes that are allowed after a first, as numbers. -/
theorem allowsSecond_iff (first second : UInt8) : allowsSecond first second = true ↔
    (128 ≤ second.toNat ∧ second.toNat < 192) ∧ ¬(first.toNat = 224 ∧ second.toNat < 160) ∧
      ¬(first.toNat = 237 ∧ 160 ≤ second.toNat) ∧ ¬(first.toNat = 240 ∧ second.toNat < 144) ∧
      ¬(first.toNat = 244 ∧ 144 ≤ second.toNat) := by
  simp only [allowsSecond, Bool.and_eq_true, isContinuation_iff, Bool.not_eq_true', Bool.and_eq_false_iff,
    beq_eq_false_iff_ne, decide_eq_false_iff_not, UInt8.le_iff_toNat_le, UInt8.lt_iff_toNat_lt, ne_eq,
    ← UInt8.toNat_inj]
  simp only [UInt8.reduceToNat]
  omega

/-- A byte below 128 is a character. -/
theorem item_one {first : UInt8} (h : first.toNat < 128) (rest : Bytes) :
    item first rest = charOf first.toNat := by
  have hone : first < 0x80 := UInt8.lt_iff_toNat_lt.2 h
  simp only [item.eq_def, hone, if_true]

/-- The first byte of a longer character is neither a character nor a fault. -/
theorem longer_start (first : UInt8) (hlow : 194 ≤ first.toNat) (hhigh : first.toNat < 245) :
    ¬first < 0x80 ∧ (first < 0xC2 || 0xF5 ≤ first) = false := by
  simp only [UInt8.lt_iff_toNat_lt, UInt8.le_iff_toNat_le, Bool.or_eq_false_iff,
    decide_eq_false_iff_not]
  simp
  omega

/-- A character of two bytes. -/
theorem item_two {first second : UInt8} (hlow : 194 ≤ first.toNat) (hhigh : first.toNat < 224)
    (hsecond : allowsSecond first second = true) (rest : Bytes) :
    item first (second :: rest) = charOf (first.toNat % 32 * 64 + low second) := by
  obtain ⟨hone, hstart⟩ := longer_start first hlow (by omega)
  have hwidth : first < 0xE0 := UInt8.lt_iff_toNat_lt.2 hhigh
  simp only [item, if_neg hone, hstart, hsecond, hwidth, Bool.not_true, Bool.false_eq_true, if_false,
    if_true]

/-- A character of three bytes. -/
theorem item_three {first second third : UInt8} (hlow : 224 ≤ first.toNat) (hhigh : first.toNat < 240)
    (hsecond : allowsSecond first second = true) (hthird : isContinuation third = true) (rest : Bytes) :
    item first (second :: third :: rest) =
      charOf (first.toNat % 16 * 4096 + low second * 64 + low third) := by
  obtain ⟨hone, hstart⟩ := longer_start first (by omega) (by omega)
  have hlonger : ¬first < 0xE0 := by rw [UInt8.lt_iff_toNat_lt]; simp; omega
  have hwidth : first < 0xF0 := UInt8.lt_iff_toNat_lt.2 hhigh
  simp only [item, if_neg hone, hstart, hsecond, hlonger, hthird, hwidth, Bool.not_true,
    Bool.false_eq_true, if_false, if_true]

/-- A character of four bytes. -/
theorem item_four {first second third fourth : UInt8} (hlow : 240 ≤ first.toNat)
    (hhigh : first.toNat < 245) (hsecond : allowsSecond first second = true)
    (hthird : isContinuation third = true) (hfourth : isContinuation fourth = true) (rest : Bytes) :
    item first (second :: third :: fourth :: rest) =
      charOf (first.toNat % 8 * 262144 + low second * 4096 + low third * 64 + low fourth) := by
  obtain ⟨hone, hstart⟩ := longer_start first (by omega) hhigh
  have hlonger : ¬first < 0xE0 := by rw [UInt8.lt_iff_toNat_lt]; simp; omega
  have hlongest : ¬first < 0xF0 := by rw [UInt8.lt_iff_toNat_lt]; simp; omega
  simp only [item, if_neg hone, hstart, hsecond, hlonger, hthird, hlongest, hfourth, Bool.not_true,
    Bool.false_eq_true, if_false]

/-- The bytes of a character are read as this character, whatever follows them. -/
theorem item_encodeChar (c : Char) (first : UInt8) (more rest : Bytes) (h : encodeChar c = first :: more) :
    item first (more ++ rest) = .char c (more.length + 1) := by
  have hchar : ∀ n, n = c.toNat → Char.ofNat n = c := by rintro _ rfl; exact Char.ofNat_toNat c
  have hvalid : c.toNat < 55296 ∨ 57343 < c.toNat ∧ c.toNat < 1114112 := c.valid
  unfold encodeChar at h
  dsimp only at h
  split at h
  · obtain ⟨rfl, rfl⟩ := List.cons.inj h
    have hfirst := toNat_toUInt8 (n := c.toNat) (by omega)
    rw [item_one (by omega), hfirst, charOf, hchar _ rfl, if_pos (by omega)]
    rfl
  · split at h
    · obtain ⟨rfl, rfl⟩ := List.cons.inj h
      have hfirst := toNat_toUInt8 (n := 0xC0 + c.toNat / 64) (by omega)
      have hsecond := toNat_toUInt8 (n := 0x80 + c.toNat % 64) (by omega)
      have hcode : (0xC0 + c.toNat / 64) % 32 * 64 + (0x80 + c.toNat % 64) % 64 = c.toNat := by omega
      rw [List.cons_append, item_two (by omega) (by omega)
        (by rw [allowsSecond_iff]; omega), low, hfirst, hsecond, hcode, charOf,
        hchar _ rfl, if_neg (by omega), if_pos (by omega)]
      rfl
    · split at h
      · obtain ⟨rfl, rfl⟩ := List.cons.inj h
        have hfirst := toNat_toUInt8 (n := 0xE0 + c.toNat / 4096) (by omega)
        have hsecond := toNat_toUInt8 (n := 0x80 + c.toNat / 64 % 64) (by omega)
        have hthird := toNat_toUInt8 (n := 0x80 + c.toNat % 64) (by omega)
        have hcode : (0xE0 + c.toNat / 4096) % 16 * 4096 + (0x80 + c.toNat / 64 % 64) % 64 * 64
            + (0x80 + c.toNat % 64) % 64 = c.toNat := by omega
        have hcontinues := (isContinuation_iff (0x80 + c.toNat % 64).toUInt8).2 (by omega)
        rw [List.cons_append, List.cons_append, item_three (by omega) (by omega)
          (by rw [allowsSecond_iff]; omega) hcontinues, low, low, hfirst, hsecond, hthird, hcode, charOf, hchar _ rfl,
          if_neg (by omega), if_neg (by omega), if_pos (by omega)]
        rfl
      · obtain ⟨rfl, rfl⟩ := List.cons.inj h
        have hfirst := toNat_toUInt8 (n := 0xF0 + c.toNat / 262144) (by omega)
        have hsecond := toNat_toUInt8 (n := 0x80 + c.toNat / 4096 % 64) (by omega)
        have hthird := toNat_toUInt8 (n := 0x80 + c.toNat / 64 % 64) (by omega)
        have hfourth := toNat_toUInt8 (n := 0x80 + c.toNat % 64) (by omega)
        have hcode : (0xF0 + c.toNat / 262144) % 8 * 262144 + (0x80 + c.toNat / 4096 % 64) % 64 * 4096
            + (0x80 + c.toNat / 64 % 64) % 64 * 64 + (0x80 + c.toNat % 64) % 64 = c.toNat := by omega
        have hthirdContinues := (isContinuation_iff (0x80 + c.toNat / 64 % 64).toUInt8).2 (by omega)
        have hfourthContinues := (isContinuation_iff (0x80 + c.toNat % 64).toUInt8).2 (by omega)
        rw [List.cons_append, List.cons_append, List.cons_append, item_four (by omega) (by omega)
          (by rw [allowsSecond_iff]; omega) hthirdContinues hfourthContinues, low, low, low, hfirst, hsecond,
          hthird, hfourth, hcode, charOf, hchar _ rfl, if_neg (by omega), if_neg (by omega), if_neg (by omega)]
        rfl

/-- A byte below 128 is a character of its own. -/
theorem toNat_of_mem_encodeChar {c : Char} {b : UInt8} (h : b ∈ encodeChar c) (hb : b.toNat < 128) :
    b.toNat = c.toNat := by
  unfold encodeChar at h
  dsimp only at h
  split at h
  · rw [List.mem_singleton.1 h]
    exact toNat_toUInt8 (by omega)
  · exfalso
    have hvalid : c.toNat < 55296 ∨ 57343 < c.toNat ∧ c.toNat < 1114112 := c.valid
    have hlarge : ∀ n, 128 ≤ n → n < 256 → b = n.toUInt8 → False := by
      rintro n hlow hhigh rfl
      rw [toNat_toUInt8 hhigh] at hb
      omega
    split at h
    · simp only [List.mem_cons, List.not_mem_nil, or_false] at h
      rcases h with h | h <;> exact hlarge _ (by omega) (by omega) h
    · split at h
      · simp only [List.mem_cons, List.not_mem_nil, or_false] at h
        rcases h with h | h | h <;> exact hlarge _ (by omega) (by omega) h
      · simp only [List.mem_cons, List.not_mem_nil, or_false] at h
        rcases h with h | h | h | h <;> exact hlarge _ (by omega) (by omega) h

/-- A character has at least one byte. -/
theorem encodeChar_ne_nil (c : Char) : encodeChar c ≠ [] := by
  unfold encodeChar
  dsimp only
  split
  · simp
  · split
    · simp
    · split <;> simp

/-- The pieces of the bytes of characters are these characters. -/
theorem itemsUpTo_encodeChars {bound : Nat} {cs : List Char} (h : (encodeChars cs).length ≤ bound) :
    itemsUpTo bound (encodeChars cs) = cs.map fun c => .char c (encodeChar c).length := by
  induction cs generalizing bound with
  | nil => cases bound <;> rfl
  | cons c rest ih =>
    obtain ⟨first, more, hbytes⟩ := List.exists_cons_of_ne_nil (encodeChar_ne_nil c)
    have hall : encodeChars (c :: rest) = first :: (more ++ encodeChars rest) := by
      rw [encodeChars, List.flatMap_cons, hbytes, List.cons_append]
      rfl
    rw [hall] at h ⊢
    cases bound with
    | zero => simp at h
    | succ bound =>
      simp only [List.length_cons, List.length_append] at h
      have hitem := item_encodeChar c first more (encodeChars rest) hbytes
      have hdrop : (more ++ encodeChars rest).drop (more.length + 1 - 1) = encodeChars rest := by
        rw [Nat.add_sub_cancel, List.drop_left]
      simp only [itemsUpTo, hitem, Item.width, hdrop, List.map_cons, hbytes, List.length_cons]
      rw [ih (by omega)]

/-- A lossy reading gives back the text of encoded characters. -/
theorem decodeLossy_encodeChars (cs : List Char) : decodeLossy (encodeChars cs) = String.ofList cs := by
  have hshown : (Item.shown ∘ fun c => Item.char c (encodeChar c).length) = id := rfl
  rw [decodeLossy, items, itemsUpTo_encodeChars (Nat.le_refl _), List.map_map, hshown, List.map_id]

/-- A lossy reading gives back a text that was encoded. -/
@[simp] theorem decodeLossy_encode (s : String) : decodeLossy (encode s) = s := by
  rw [encode, decodeLossy_encodeChars, String.ofList_toList]

/-- Different texts have different bytes. -/
theorem encode_injective {s t : String} (h : encode s = encode t) : s = t := by
  rw [← decodeLossy_encode s, h, decodeLossy_encode]

end Hotspots.Utf8
