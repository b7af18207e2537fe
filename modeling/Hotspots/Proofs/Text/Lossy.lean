import Hotspots.Proofs.Text.Ascii

/-!
# Lossy readings piece by piece

An ASCII byte is always a piece of its own, whatever stands before it. A lossy reading can therefore be cut in front
of every ASCII byte (`shownChars_append`): bytes beyond ASCII belong together only within a run of such bytes. With
`runs_induction` a fact about all byte strings follows from facts about runs and about ASCII bytes.
-/

namespace Hotspots.Utf8

/-- The characters that a lossy reading shows. -/
def shownChars (bytes : Bytes) : List Char := (items bytes).map Item.shown

/-- Bytes that begin with an ASCII byte, or none at all. -/
def StartsAscii (bytes : Bytes) : Prop := ∀ b ∈ bytes.head?, b.toNat < 128

/-- An ASCII byte comes first. -/
theorem startsAscii_cons {b : UInt8} (h : b.toNat < 128) (rest : Bytes) : StartsAscii (b :: rest) := by
  rintro a ⟨⟩
  exact h

/-- What begins with an ASCII byte does so whatever follows it. -/
theorem StartsAscii.append_of_ne_nil {bytes : Bytes} (h : StartsAscii bytes) (hne : bytes ≠ []) (rest : Bytes) :
    StartsAscii (bytes ++ rest) := by
  obtain ⟨b, more, rfl⟩ := List.exists_cons_of_ne_nil hne
  exact startsAscii_cons (h b rfl) _

/-- Parts that begin with ASCII bytes make a whole that does. -/
theorem StartsAscii.append {before after : Bytes} (h : StartsAscii before) (h' : StartsAscii after) :
    StartsAscii (before ++ after) := by
  cases before with
  | nil => exact h'
  | cons b more => exact startsAscii_cons (h b rfl) _

/-- A run of bytes beyond ASCII. -/
def IsHigh (bytes : Bytes) : Prop := ∀ b ∈ bytes, 128 ≤ b.toNat

/-- A lossy reading is the text of the characters that it shows. -/
theorem decodeLossy_eq (bytes : Bytes) : decodeLossy bytes = String.ofList (shownChars bytes) := rfl

/-- The characters of a lossy reading. -/
@[simp] theorem toList_decodeLossy (bytes : Bytes) : (decodeLossy bytes).toList = shownChars bytes := by
  rw [decodeLossy_eq, String.toList_ofList]

/-! ## The first piece -/

/-- A bound on the number of pieces does not matter if it is at least the number of bytes. -/
theorem itemsUpTo_congr {n m : Nat} {bytes : Bytes} (hn : bytes.length ≤ n) (hm : bytes.length ≤ m) :
    itemsUpTo n bytes = itemsUpTo m bytes := by
  induction n generalizing m bytes with
  | zero =>
    obtain rfl : bytes = [] := List.length_eq_zero_iff.1 (Nat.le_zero.1 hn)
    cases m <;> rfl
  | succ n ih =>
    cases bytes with
    | nil => cases m <;> rfl
    | cons first rest =>
      cases m with
      | zero => simp at hm
      | succ m =>
        simp only [List.length_cons, Nat.add_le_add_iff_right] at hn hm
        have hdrop : ∀ k, (rest.drop k).length ≤ rest.length := fun k => by simp
        simp only [itemsUpTo]
        rw [ih ((hdrop _).trans hn) ((hdrop _).trans hm)]

/-- What is shown for the first piece, and then for what follows it. -/
theorem shownChars_cons (first : UInt8) (rest : Bytes) : shownChars (first :: rest) =
    (item first rest).shown :: shownChars (rest.drop ((item first rest).width - 1)) := by
  simp only [shownChars, items, List.length_cons, itemsUpTo, List.map_cons]
  rw [itemsUpTo_congr (m := (rest.drop ((item first rest).width - 1)).length) (by simp) (Nat.le_refl _)]

/-- An ASCII byte is shown as its character, and what follows is read on its own. -/
theorem shownChars_cons_of_ascii {b : UInt8} (h : b.toNat < 128) (rest : Bytes) :
    shownChars (b :: rest) = Char.ofNat b.toNat :: shownChars rest := by
  rw [shownChars_cons, item_one h, charOf, if_pos h]
  rfl

/-- A piece that shows a character beyond ASCII and has no more bytes than there are. -/
def Item.IsHigh (piece : Item) (length : Nat) : Prop := 128 ≤ piece.shown.toNat ∧ piece.width ≤ length

/-- A malformed stretch shows a character beyond ASCII. -/
theorem isHigh_malformed {fault : Fault} {stretch : Bytes} {length : Nat} (h : stretch.length ≤ length) :
    (Item.malformed fault stretch).IsHigh length :=
  ⟨(by decide : 128 ≤ '\uFFFD'.toNat), h⟩

/-- The character of a code point beyond ASCII is beyond ASCII. -/
theorem isHigh_charOf {code length : Nat} (hcode : 128 ≤ code) (hvalid : code.isValidChar)
    (hlength : 4 ≤ length ∨ code < 0x10000 ∧ (3 ≤ length ∨ code < 0x800 ∧ 2 ≤ length)) :
    (charOf code).IsHigh length := by
  have hchar : (charOf code).shown.toNat = code := by
    rw [charOf, Item.shown, Char.ofNat, dif_pos hvalid]
    rfl
  refine ⟨hcode.trans_eq hchar.symm, ?_⟩
  simp only [charOf, Item.width]
  split_ifs <;> omega

/-- A piece that begins beyond ASCII shows a character beyond ASCII. -/
theorem isHigh_item {first : UInt8} (h : 128 ≤ first.toNat) (more : Bytes) :
    (item first more).IsHigh (more.length + 1) := by
  have hlow : ∀ b, low b < 64 := fun b => Nat.mod_lt _ (by decide)
  have hstart : ∀ b : UInt8, ¬(decide (b < 0xC2) || decide (0xF5 ≤ b)) = true → 194 ≤ b.toNat ∧ b.toNat < 245 := by
    intro b hb
    simpa [UInt8.lt_iff_toNat_lt, UInt8.le_iff_toNat_le] using hb
  have hsecond : ∀ second, ¬(!allowsSecond first second) = true → second.toNat % 64 = low second ∧
      ¬(first.toNat = 224 ∧ second.toNat < 160) ∧ ¬(first.toNat = 237 ∧ 160 ≤ second.toNat) ∧
        ¬(first.toNat = 240 ∧ second.toNat < 144) ∧ ¬(first.toNat = 244 ∧ 144 ≤ second.toNat) ∧
          128 ≤ second.toNat ∧ second.toNat < 192 := by
    intro second hallows
    simp only [Bool.not_eq_true', Bool.not_eq_false, allowsSecond_iff] at hallows
    exact ⟨rfl, hallows.2.1, hallows.2.2.1, hallows.2.2.2.1, hallows.2.2.2.2, hallows.1⟩
  fun_cases item first more with
  | case1 _ hone => exact absurd (UInt8.lt_iff_toNat_lt.1 hone) (Nat.not_lt.2 h)
  | case2 => exact isHigh_malformed (by simp)
  | case3 => exact isHigh_malformed (by simp)
  | case4 => exact isHigh_malformed (by simp)
  | case5 _ hfirst second rest hallows hwidth =>
    have hfirst := hstart first hfirst
    have hallows := hsecond second hallows
    have hwidth : first.toNat < 224 := UInt8.lt_iff_toNat_lt.1 hwidth
    apply isHigh_charOf
    · omega
    · exact .inl (by omega)
    · exact .inr ⟨by omega, .inr ⟨by omega, by simp⟩⟩
  | case6 => exact isHigh_malformed (by simp)
  | case7 => exact isHigh_malformed (by simp)
  | case8 _ hfirst second hallows hlonger third rest _ hwidth =>
    have hfirst := hstart first hfirst
    have hallows := hsecond second hallows
    have hlonger : 224 ≤ first.toNat := Nat.not_lt.1 fun h => hlonger (UInt8.lt_iff_toNat_lt.2 h)
    have hwidth : first.toNat < 240 := UInt8.lt_iff_toNat_lt.1 hwidth
    have hthird := hlow third
    apply isHigh_charOf
    · omega
    · simp only [Nat.isValidChar]
      omega
    · exact .inr ⟨by omega, .inl (by simp)⟩
  | case9 => exact isHigh_malformed (by simp)
  | case10 => exact isHigh_malformed (by simp)
  | case11 _ hfirst second hallows _ third _ hlonger fourth rest _ =>
    have hfirst := hstart first hfirst
    have hallows := hsecond second hallows
    have hlonger : 240 ≤ first.toNat := Nat.not_lt.1 fun h => hlonger (UInt8.lt_iff_toNat_lt.2 h)
    have hthird := hlow third
    have hfourth := hlow fourth
    apply isHigh_charOf
    · omega
    · simp only [Nat.isValidChar]
      omega
    · exact .inl (by simp)

/-- A piece has no more bytes than there are. -/
theorem width_item_le (first : UInt8) (more : Bytes) : (item first more).width ≤ more.length + 1 := by
  rcases Nat.lt_or_ge first.toNat 128 with h | h
  · simp [item_one h, charOf, Item.width, h]
  · exact (isHigh_item h more).2

/-- What begins with an ASCII byte does not change the piece in front of it, except for why it is malformed. -/
theorem item_append (first : UInt8) (more : Bytes) {after : Bytes} (h : StartsAscii after) :
    (item first (more ++ after)).width = (item first more).width ∧
      (item first (more ++ after)).shown = (item first more).shown := by
  cases after with
  | nil => simp
  | cons b after =>
    have hb : b.toNat < 128 := h b rfl
    have hcontinues : isContinuation b = false := by
      rw [Bool.eq_false_iff, ne_eq, isContinuation_iff]
      omega
    have hsecond : allowsSecond first b = false := by simp [allowsSecond, hcontinues]
    -- A piece has at most four bytes, so that at most three of those that follow the first one matter.
    rcases more with _ | ⟨second, _ | ⟨third, _ | ⟨fourth, more⟩⟩⟩
    · simp only [item, hsecond, List.nil_append]
      split_ifs <;> simp_all [Item.width, Item.shown]
    · simp only [item, hcontinues, List.nil_append, List.cons_append]
      split_ifs <;> simp_all [Item.width, Item.shown]
    · simp only [item, hcontinues, List.nil_append, List.cons_append]
      split_ifs <;> simp_all [Item.width, Item.shown]
    · simp only [item, List.cons_append, and_self]

/-! ## Cutting a reading -/

/-- A lossy reading can be cut in front of an ASCII byte. -/
theorem shownChars_append {before after : Bytes} (h : StartsAscii after) :
    shownChars (before ++ after) = shownChars before ++ shownChars after := by
  induction hlength : before.length using Nat.strongRecOn generalizing before with
  | ind n ih =>
    cases before with
    | nil => rfl
    | cons first more =>
      obtain ⟨hwidth, hshown⟩ := item_append first more h
      have hle : (item first more).width - 1 ≤ more.length := by
        have := width_item_le first more
        omega
      rw [List.cons_append, shownChars_cons, shownChars_cons, hwidth, hshown, List.drop_append_of_le_length hle,
        ih _ (by simp only [List.length_drop, List.length_cons] at hlength ⊢; omega) rfl]
      rfl

/-- What stands in front of an ASCII byte is read on its own. -/
theorem shownChars_append_cons {b : UInt8} (h : b.toNat < 128) (before rest : Bytes) :
    shownChars (before ++ b :: rest) = shownChars before ++ Char.ofNat b.toNat :: shownChars rest := by
  rw [shownChars_append (startsAscii_cons h rest), shownChars_cons_of_ascii h]

/-- A lossy reading of parts that begin with ASCII bytes is that of each of them. -/
theorem shownChars_flatMap {α : Type} {g : α → Bytes} {xs : List α} (h : ∀ a ∈ xs, StartsAscii (g a)) :
    StartsAscii (xs.flatMap g) ∧ shownChars (xs.flatMap g) = xs.flatMap fun a => shownChars (g a) := by
  induction xs with
  | nil => exact ⟨nofun, rfl⟩
  | cons a rest ih =>
    obtain ⟨hstarts, hshown⟩ := ih fun b hb => h b (List.mem_cons_of_mem _ hb)
    rw [List.flatMap_cons, List.flatMap_cons, shownChars_append hstarts, hshown]
    exact ⟨(h a List.mem_cons_self).append hstarts, rfl⟩

/-- Encoded characters are shown as they are. -/
theorem shownChars_encodeChars (cs : List Char) : shownChars (encodeChars cs) = cs := by
  have h := congrArg String.toList (decodeLossy_encodeChars cs)
  rwa [toList_decodeLossy, String.toList_ofList] at h

/-- Characters have bytes. -/
theorem encodeChars_ne_nil {cs : List Char} (h : cs ≠ []) : encodeChars cs ≠ [] := by
  obtain ⟨c, rest, rfl⟩ := List.exists_cons_of_ne_nil h
  rw [encodeChars, List.flatMap_cons]
  exact List.append_ne_nil_of_left_ne_nil (encodeChar_ne_nil c) _

/-- Encoded ASCII characters begin with an ASCII byte. -/
theorem startsAscii_encodeChars {cs : List Char} (h : IsAscii cs) : StartsAscii (encodeChars cs) :=
  fun _ hb => toNat_lt_of_mem_encodeChars h (List.mem_of_head? hb)

/-- Encoded ASCII characters are shown as they are, whatever follows. -/
theorem shownChars_encodeChars_append {cs : List Char} (h : IsAscii cs) (rest : Bytes) :
    shownChars (encodeChars cs ++ rest) = cs ++ shownChars rest := by
  induction cs with
  | nil => rfl
  | cons c cs ih =>
    have hc : c.toNat < 128 := h c List.mem_cons_self
    have hcode : c.toNat.toUInt8.toNat = c.toNat := toNat_toUInt8 (by omega)
    have hbytes : encodeChars (c :: cs) = c.toNat.toUInt8 :: encodeChars cs := by
      rw [encodeChars, List.flatMap_cons, encodeChar, if_pos hc]
      rfl
    rw [hbytes, List.cons_append, shownChars_cons_of_ascii (by omega), hcode, Char.ofNat_toNat,
      ih fun d hd => h d (List.mem_cons_of_mem _ hd), List.cons_append]

/-! ## What is shown -/

/-- A run beyond ASCII is shown as characters beyond ASCII. -/
theorem toNat_of_mem_shownChars {run : Bytes} (h : IsHigh run) {c : Char} (hc : c ∈ shownChars run) :
    128 ≤ c.toNat := by
  induction hlength : run.length using Nat.strongRecOn generalizing run with
  | ind n ih =>
    cases run with
    | nil => cases hc
    | cons first more =>
      rw [shownChars_cons, List.mem_cons] at hc
      rcases hc with rfl | hc
      · exact (isHigh_item (h first List.mem_cons_self) more).1
      · refine ih _ ?_ (fun b hb => h b (List.mem_cons_of_mem _ (List.mem_of_mem_drop hb))) hc rfl
        simp only [List.length_drop, List.length_cons] at hlength ⊢
        omega

/-- Something is shown for bytes. -/
theorem shownChars_ne_nil {bytes : Bytes} (h : bytes ≠ []) : shownChars bytes ≠ [] := by
  cases bytes with
  | nil => exact absurd rfl h
  | cons first rest =>
    rw [shownChars_cons]
    exact List.cons_ne_nil _ _

/-- Byte strings as runs beyond ASCII with ASCII bytes between them. -/
theorem runs_induction {motive : Bytes → Prop} (high : ∀ run, IsHigh run → motive run)
    (ascii : ∀ run b rest, IsHigh run → b.toNat < 128 → motive rest → motive (run ++ b :: rest)) (bytes : Bytes) :
    motive bytes := by
  have hcarried : ∀ run, IsHigh run → motive (run ++ bytes) := by
    induction bytes with
    | nil =>
      intro run hrun
      rw [List.append_nil]
      exact high run hrun
    | cons b rest ih =>
      intro run hrun
      rcases Nat.lt_or_ge b.toNat 128 with hb | hb
      · exact ascii run b rest hrun hb (ih [] (List.forall_mem_nil _))
      · rw [← List.singleton_append, ← List.append_assoc]
        exact ih (run ++ [b]) (List.forall_mem_append.2 ⟨hrun, List.forall_mem_singleton.2 hb⟩)
  exact hcarried [] (List.forall_mem_nil _)

end Hotspots.Utf8
