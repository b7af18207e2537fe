import Hotspots.Git.Reader
import Hotspots.Proofs.Text.Ascii
import Hotspots.Proofs.Text.Joined

/-!
# The first line of a reply

The helper answers a request by one line, and by the content if there is an object. A line of a name, a kind
and a size is read as the kind and the size, and is not taken for a refusal; a line that ends like a refusal
is one, whatever stands in front.
-/

namespace Hotspots.Reader

/-! ## Words and lines -/

/-- A word of bytes has a byte and no blank. -/
def IsByteWord (bytes : Bytes) : Prop := bytes ≠ [] ∧ ∀ b ∈ bytes, Lines.isBlankByte b = false

instance : DecidablePred IsByteWord := fun bytes =>
  decidable_of_iff ((!bytes.isEmpty && bytes.all fun b => !Lines.isBlankByte b) = true) (by simp [IsByteWord])

/-- A byte that is no blank. -/
theorem isBlankByte_of_toNat {b : UInt8} (h : 32 < b.toNat) : Lines.isBlankByte b = false := by
  simp only [Lines.isBlankByte, Bool.or_eq_false_iff, Bool.and_eq_false_iff, decide_eq_false_iff_not,
    beq_eq_false_iff_ne, UInt8.le_iff_toNat_le, ne_eq, ← UInt8.toNat_inj]
  simp
  omega

/-- An ASCII text above the blanks is a word of bytes. -/
theorem isByteWord_encode {s : String} (hne : s.toList ≠ [])
    (h : ∀ c ∈ s.toList, 32 < c.toNat ∧ c.toNat < 128) : IsByteWord (Utf8.encode s) := by
  rw [Utf8.encode, Utf8.encodeChars_of_isAscii fun c hc => (h c hc).2]
  refine ⟨by simpa using hne, fun b hb => ?_⟩
  obtain ⟨c, hc, rfl⟩ := List.mem_map.1 hb
  have hcode := h c hc
  refine isBlankByte_of_toNat ?_
  rw [Utf8.toNat_toUInt8 (by omega)]
  exact hcode.1

/-- The decimal text of a number is a word of bytes. -/
theorem isByteWord_natText (n : Nat) : IsByteWord (Utf8.encode (natText n)) := by
  refine isByteWord_encode (Reading.toList_natText_ne_nil n) fun c hc => ?_
  have hcode := Reading.toNat_of_isDigit (Reading.isDigit_of_mem_natText hc)
  omega

/-- A word of bytes has no line end inside. -/
theorem IsByteWord.not_mem {word : Bytes} (h : IsByteWord word) : 10 ∉ word :=
  fun hmem => absurd (h.2 10 hmem) (by decide)

/-- A line is read up to its end. -/
theorem readLine_append {line : Bytes} (h : 10 ∉ line) (rest : Bytes) :
    readLine (line ++ 10 :: rest) = (line ++ [10], rest) := by
  have hpass : ∀ b ∈ line, (b != 10) = true := by
    intro b hb
    rw [bne_iff_ne]
    rintro rfl
    exact h hb
  have htake : (line ++ 10 :: rest).takeWhile (· != 10) = line := by
    rw [List.takeWhile_append_of_pos hpass]
    simp
  have hsplit : line ++ 10 :: rest = (line ++ [10]) ++ rest := by simp
  have hlength : (line ++ [10]).length = line.length + 1 := by simp
  unfold readLine
  dsimp only
  rw [htake, if_pos (by simp), ← hlength, hsplit, List.take_left, List.drop_left]

/-- A line of words ends no word with its end. -/
theorem words_intercalate_append {words : List Bytes} (hwords : ∀ w ∈ words, IsByteWord w) :
    Lines.words ([32].intercalate words ++ [10]) = words := by
  induction words with
  | nil => rfl
  | cons w rest ih =>
    obtain ⟨hne, hw⟩ := hwords w List.mem_cons_self
    have hrest := ih fun v hv => hwords v (List.mem_cons_of_mem _ hv)
    rw [Lines.words, Lines.wordsFrom_eq] at hrest ⊢
    cases rest with
    | nil =>
      have hone : [32].intercalate [w] ++ [10] = w ++ 10 :: [] := by simp [List.intercalate]
      rw [hone, wordsBy_append_blank hw hne (by decide)]
      rfl
    | cons w' rest =>
      have hjoin : [32].intercalate (w :: w' :: rest) ++ [10] =
          w ++ 32 :: ([32].intercalate (w' :: rest) ++ [10]) := by
        simp [List.intercalate]
      rw [hjoin, wordsBy_append_blank hw hne (by decide), hrest]

/-! ## The line of an object -/

/-- The line of an object, without its end: its name, its kind and its size. -/
def objectLine (name kind : Bytes) (size : Nat) : Bytes :=
  [32].intercalate [name, kind, Utf8.encode (natText size)]

section ObjectLine

variable {name kind : Bytes}

/-- The line of an object has no end inside. -/
theorem not_mem_objectLine (hname : IsByteWord name) (hkind : IsByteWord kind) (size : Nat) :
    10 ∉ objectLine name kind size := by
  simp [objectLine, List.intercalate, hname.not_mem, hkind.not_mem, (isByteWord_natText size).not_mem]

/-- The line of an object is no refusal. -/
theorem isRefusal_objectLine (name kind : Bytes) (size : Nat) :
    isRefusal (objectLine name kind size ++ [10]) = false := by
  -- A refusal ends with a letter, the line of an object with a digit.
  obtain ⟨front, last, hsize⟩ : ∃ front last, (natText size).toList = front ++ [last] :=
    ⟨_, _, (List.dropLast_concat_getLast (Reading.toList_natText_ne_nil size)).symm⟩
  have hdigit : last.toNat ≤ 57 := by
    refine (Reading.toNat_of_isDigit (Reading.isDigit_of_mem_natText (n := size) ?_)).2
    rw [hsize]
    exact List.mem_append_right _ List.mem_cons_self
  obtain ⟨before, hline⟩ : ∃ before, objectLine name kind size = before ++ [last.toNat.toUInt8] := by
    have hencode : Utf8.encode (natText size) = Utf8.encodeChars front ++ [last.toNat.toUInt8] := by
      rw [Utf8.encode, hsize, Utf8.encodeChars_append]
      exact congrArg _ (Utf8.encodeChars_of_isAscii fun c hc => by
        rw [List.mem_singleton.1 hc]
        omega)
    refine ⟨[32].intercalate [name, kind] ++ 32 :: Utf8.encodeChars front, ?_⟩
    rw [objectLine, hencode]
    simp [List.intercalate]
  have hno : ∀ (refusal : Bytes) (letter : UInt8), 57 < letter.toNat →
      (refusal ++ [letter, 10]).isSuffixOf (objectLine name kind size ++ [10]) = false := by
    intro refusal letter hletter
    rw [← Bool.not_eq_true, List.isSuffixOf_iff_suffix, hline]
    rintro ⟨front', heq⟩
    have hlast := congrArg (fun bytes => bytes.reverse.drop 1 |>.head?) heq
    simp only [List.reverse_append, List.reverse_cons, List.reverse_nil, List.nil_append, List.cons_append,
      List.drop_succ_cons, List.drop_zero, List.head?_cons, Option.some.injEq] at hlast
    rw [hlast, Utf8.toNat_toUInt8 (by omega)] at hletter
    omega
  rw [isRefusal, Bool.or_eq_false_iff]
  exact ⟨hno (Utf8.encode " missin") 103 (by decide), hno (Utf8.encode " ambiguou") 115 (by decide)⟩

/-- The kind and the size of an object are read from its line, if the size is read. -/
theorem kindAndSize_objectLine (hname : IsByteWord name) (hkind : IsByteWord kind) (size : Nat) :
    kindAndSize (objectLine name kind size ++ [10]) =
      (Reading.whole (Quoted.bytes (Utf8.encode (natText size))) (natText size).toList).map fun n => (kind, n) := by
  have hwords : ∀ w ∈ [name, kind, Utf8.encode (natText size)], IsByteWord w := by
    simp [hname, hkind, isByteWord_natText size]
  have hchars : (Utf8.encode (natText size)).map
      (fun b => if b < 128 then Char.ofNat b.toNat else '\uFFFD') = (natText size).toList := by
    have hascii := Utf8.isAscii_natText size
    refine (List.map_congr_left fun b hb => ?_).trans (Utf8.map_ofNat_encodeChars hascii)
    exact if_pos (UInt8.lt_iff_toNat_lt.2 (Utf8.toNat_lt_of_mem_encodeChars hascii hb))
  unfold kindAndSize
  rw [objectLine, words_intercalate_append hwords]
  dsimp only
  rw [hchars]
  cases Reading.whole (Quoted.bytes (Utf8.encode (natText size))) (natText size).toList <;> rfl

/-- A content is read up to its size, if the size fits in a machine word. -/
theorem readBytes_append {content : Bytes} (h : content.length < 2 ^ 63) (rest : Bytes) :
    readBytes content.length (content ++ rest) = .ok (content, rest) := by
  unfold readBytes
  rw [if_neg (by omega), if_neg (by omega), if_neg (by omega), Int.toNat_natCast, List.take_left,
    List.drop_left]

/-- A content that is read is the announced one. -/
theorem eq_of_readBytes {content rest c left : Bytes}
    (h : readBytes content.length (content ++ rest) = .ok (c, left)) : c = content ∧ left = rest := by
  by_cases hsize : content.length < 2 ^ 63
  · rw [readBytes_append hsize] at h
    injection h with h
    injection h with hc hleft
    exact ⟨hc.symm, hleft.symm⟩
  · unfold readBytes at h
    rw [if_pos (by omega)] at h
    cases h

end ObjectLine

/-! ## The line of a refusal -/

/-- A line that ends like that of a missing object is a refusal. -/
theorem isRefusal_missing (bytes : Bytes) : isRefusal (bytes ++ Utf8.encode " missing" ++ [10]) = true := by
  rw [isRefusal, Bool.or_eq_true, List.isSuffixOf_iff_suffix]
  refine .inl ⟨bytes, ?_⟩
  rw [List.append_assoc]
  exact congrArg (bytes ++ ·) (by decide)

/-- A line that ends like that of an ambiguous name is a refusal. -/
theorem isRefusal_ambiguous (bytes : Bytes) :
    isRefusal (bytes ++ Utf8.encode " ambiguous" ++ [10]) = true := by
  rw [isRefusal, Bool.or_eq_true, List.isSuffixOf_iff_suffix, List.isSuffixOf_iff_suffix]
  refine .inr ⟨bytes, ?_⟩
  rw [List.append_assoc]
  exact congrArg (bytes ++ ·) (by decide)

end Hotspots.Reader
