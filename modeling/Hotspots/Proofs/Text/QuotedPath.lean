import Hotspots.Proofs.Record.Lookup
import Hotspots.Proofs.Text.Encoded
import Hotspots.Text.CQuoted

/-!
# Writing path names in C-style quotes

A path name is written as it is, unless it has a control character, a double quote or a backslash. Then it
stands between double quotes, with a letter or three octal digits after a backslash for each of these
characters. What is written has no control character and reads as the path name (`path_written`).
-/

namespace Hotspots.CQuoted

/-- The characters that are written with a letter after a backslash. -/
def letters : List (Char × Char) :=
  [('"', '"'), ('\\', '\\'), ('\x07', 'a'), ('\x08', 'b'), ('\x09', 't'), ('\x0a', 'n'), ('\x0b', 'v'),
    ('\x0c', 'f'), ('\x0d', 'r')]

/-- Whether a character is a control character. -/
def isControl (c : Char) : Bool := c.toNat < 32 || c.toNat == 127

/-- An octal digit of a number. -/
def octalDigit (n : Nat) : Char := Char.ofNat (48 + n % 8)

/-- A character as it is written between quotes. -/
def writtenChar (c : Char) : List Char :=
  match Record.get? c letters with
  | some letter => ['\\', letter]
  | none =>
    if isControl c then ['\\', octalDigit (c.toNat / 64), octalDigit (c.toNat / 8), octalDigit c.toNat]
    else [c]

/-- Whether a character stands for itself. -/
def isPlain (c : Char) : Bool := writtenChar c == [c]

/-- A path name as it is written. -/
def written (path : String) : String :=
  if path.toList.all isPlain then path
  else String.ofList ('"' :: (path.toList.flatMap writtenChar ++ ['"']))

/-! ## Reading one character -/

/-- A byte other than the backslash stands for itself. -/
theorem unescape_cons (total : Nat) {b : UInt8} (h : b ≠ 92) (rest : Bytes) :
    unescape total (b :: rest) = (unescape total rest).map (b :: ·) := by
  rw [unescape.eq_def]
  simp only [if_neg h]

/-- Bytes other than the backslash stand for themselves. -/
theorem unescape_append (total : Nat) {plain : Bytes} (hplain : ∀ b ∈ plain, b ≠ 92) (rest : Bytes) :
    unescape total (plain ++ rest) = (unescape total rest).map (plain ++ ·) := by
  induction plain with
  | nil => cases h : unescape total rest <;> simp [Except.map, h]
  | cons b more ih =>
    have hb : b ≠ 92 := hplain b List.mem_cons_self
    rw [List.cons_append, unescape_cons total hb, ih fun c hc => hplain c (List.mem_cons_of_mem _ hc)]
    cases unescape total rest <;> rfl

/-- An escape that stands for one byte is replaced by it. -/
theorem unescape_escape {total : Nat} {b byte : UInt8} {after rest : Bytes}
    (h : ∀ position, escape position b after = .ok ([byte], rest)) :
    unescape total (92 :: b :: after) = (unescape total rest).map (byte :: ·) := by
  rw [unescape.eq_def]
  simp only [if_true]
  split
  · next heq => simp [h] at heq
  · next out left heq =>
    simp only [h, Except.ok.injEq, Prod.mk.injEq] at heq
    obtain ⟨rfl, rfl⟩ := heq
    rfl

/-- The letters are read as the characters that they are written for. -/
theorem letter?_of_mem_letters : ∀ e ∈ letters,
    Utf8.encodeChar e.1 = [e.1.toNat.toUInt8] ∧ Utf8.encodeChar e.2 = [e.2.toNat.toUInt8] ∧
      e.2.toNat.toUInt8 ≠ 10 ∧ isOctal e.2.toNat.toUInt8 = false ∧ e.2.toNat.toUInt8 ≠ 120 ∧
      letter? e.2.toNat.toUInt8 = some e.1.toNat.toUInt8 := by
  decide

/-- The code of an octal digit. -/
theorem toNat_octalDigit (n : Nat) : (octalDigit n).toNat = 48 + n % 8 :=
  Utf8.toNat_charOfNat (by omega)

/-- An octal digit is one byte. -/
theorem encodeChar_octalDigit (n : Nat) :
    Utf8.encodeChar (octalDigit n) = [(48 + n % 8).toUInt8] := by
  rw [Utf8.encodeChar, toNat_octalDigit, if_pos (by omega)]

/-- Three octal digits are read as the byte that they spell. -/
theorem escape_octal {n : Nat} (h : n < 256) (position : Nat) (rest : Bytes) :
    escape position (48 + n / 64 % 8).toUInt8
        ((48 + n / 8 % 8).toUInt8 :: (48 + n % 8).toUInt8 :: rest) = .ok ([n.toUInt8], rest) := by
  have hdigit : ∀ d, d % 8 < 8 := fun d => Nat.mod_lt _ (by omega)
  have hvalue : ∀ d, (48 + d % 8).toUInt8.toNat = 48 + d % 8 := fun d =>
    Utf8.toNat_toUInt8 (by have := hdigit d; omega)
  have hoctal : ∀ d, isOctal (48 + d % 8).toUInt8 = true := by
    intro d
    have := hvalue d
    have := hdigit d
    simp only [isOctal, UInt8.le_iff_toNat_le, Bool.and_eq_true, decide_eq_true_eq, UInt8.reduceToNat]
    omega
  have hfeed : (48 + n / 64 % 8).toUInt8 ≠ 10 := by
    intro heq
    have := hvalue (n / 64)
    rw [heq] at this
    simp only [UInt8.reduceToNat] at this
    omega
  have hmore : (((48 + n / 8 % 8).toUInt8 :: (48 + n % 8).toUInt8 :: rest).takeWhile isOctal).take 2 =
      [(48 + n / 8 % 8).toUInt8, (48 + n % 8).toUInt8] := by
    rw [List.takeWhile_cons_of_pos (hoctal _), List.takeWhile_cons_of_pos (hoctal _)]
    rfl
  have hspelled : octalValue [(48 + n / 64 % 8).toUInt8, (48 + n / 8 % 8).toUInt8, (48 + n % 8).toUInt8] =
      n.toUInt8 := by
    simp only [octalValue, List.foldl_cons, List.foldl_nil, hvalue]
    congr 1
    omega
  simp only [escape, if_neg hfeed, if_pos (hoctal _), hmore, hspelled, List.length_cons,
    List.length_nil, List.drop_succ_cons, List.drop_zero]

/-- What is written for a character is read as the bytes of this character. -/
theorem unescape_writtenChar (total : Nat) (c : Char) (rest : Bytes) :
    unescape total (Utf8.encodeChars (writtenChar c) ++ rest) =
      (unescape total rest).map (Utf8.encodeChar c ++ ·) := by
  unfold writtenChar
  cases hletter : Record.get? c letters with
  | some letter =>
    obtain ⟨hchar, hbyte, hfeed, hoctal, hhex, hread⟩ :=
      letter?_of_mem_letters _ (Record.mem_of_get? hletter)
    have hbytes : Utf8.encodeChars ['\\', letter] = [92, letter.toNat.toUInt8] := by
      rw [Utf8.encodeChars, List.flatMap_cons, List.flatMap_cons, hbyte]
      rfl
    have hescape : ∀ position, escape position letter.toNat.toUInt8 rest =
        .ok ([c.toNat.toUInt8], rest) := by
      intro position
      simp only [escape, if_neg hfeed, hoctal, Bool.false_eq_true, if_false, if_neg hhex, hread]
    rw [hbytes, List.cons_append, List.cons_append, List.nil_append, unescape_escape hescape, hchar]
    rfl
  | none =>
    cases hcontrol : isControl c with
    | true =>
      have hcode : c.toNat < 128 := by
        simp only [isControl, Bool.or_eq_true, decide_eq_true_eq, beq_iff_eq] at hcontrol
        omega
      have hchar : Utf8.encodeChar c = [c.toNat.toUInt8] := by rw [Utf8.encodeChar, if_pos hcode]
      simp only [if_true, Utf8.encodeChars, List.flatMap_cons, List.flatMap_nil, encodeChar_octalDigit,
        List.append_nil]
      rw [show Utf8.encodeChar '\\' = [92] from rfl]
      simp only [List.cons_append, List.nil_append]
      rw [unescape_escape fun position => escape_octal (by omega) position rest, hchar]
      rfl
    | false =>
      have hplain : ∀ b ∈ Utf8.encodeChar c, b ≠ 92 := by
        rintro b hb rfl
        have hbackslash : c = '\\' := by
          rw [← Char.ofNat_toNat c, ← Utf8.toNat_of_mem_encodeChar hb (by decide)]
          rfl
        rw [hbackslash] at hletter
        cases hletter
      simp only [Bool.false_eq_true, if_false, Utf8.encodeChars, List.flatMap_cons, List.flatMap_nil,
        List.append_nil]
      exact unescape_append total hplain rest

/-- What is written for characters is read as their bytes. -/
theorem unescape_flatMap_writtenChar (total : Nat) (cs : List Char) :
    unescape total (Utf8.encodeChars (cs.flatMap writtenChar)) = .ok (Utf8.encodeChars cs) := by
  induction cs with
  | nil => rw [unescape.eq_def]; rfl
  | cons c rest ih =>
    have hfirst : Utf8.encodeChars ((c :: rest).flatMap writtenChar) =
        Utf8.encodeChars (writtenChar c) ++ Utf8.encodeChars (rest.flatMap writtenChar) := by
      rw [List.flatMap_cons, Utf8.encodeChars, List.flatMap_append]
      rfl
    rw [hfirst, unescape_writtenChar, ih]
    rfl

/-! ## Reading a path name -/

/-- A path name of plain characters does not look quoted. -/
theorem inside?_of_plain {cs : List Char} (h : cs.all isPlain = true) : inside? cs = none := by
  cases cs with
  | nil => rfl
  | cons c rest =>
    have hquote : c ≠ '"' := by
      rintro rfl
      rw [List.all_cons, show isPlain '"' = false from by decide] at h
      cases h
    unfold inside?
    split
    · next heq =>
      cases heq
      exact (hquote rfl).elim
    · rfl

/-- What stands between two double quotes is inside them. -/
theorem inside?_quoted (cs : List Char) : inside? ('"' :: (cs ++ ['"'])) = some cs := by
  simp [inside?]

/-- A path name is read back from what is written for it. -/
theorem path_written (p : String) : path (written p) = .ok p := by
  unfold written
  split
  · next hplain => rw [path, inside?_of_plain hplain]
  · rw [path, String.toList_ofList, inside?_quoted]
    simp only [unescape_flatMap_writtenChar, Except.map, Utf8.decodeLossy_encodeChars,
      String.ofList_toList]

/-! ## What is written -/

/-- No control character below the blank is written. -/
theorem toNat_of_mem_writtenChar {c d : Char} (h : d ∈ writtenChar c) : 32 ≤ d.toNat := by
  have hdigit : ∀ n, 32 ≤ (octalDigit n).toNat := by
    intro n
    rw [toNat_octalDigit]
    omega
  have hletters : ∀ e ∈ letters, 32 ≤ e.2.toNat := by decide
  unfold writtenChar at h
  split at h
  · next letter hletter =>
    rcases List.mem_pair.1 h with rfl | rfl
    · decide
    · exact hletters _ (Record.mem_of_get? hletter)
  · split at h
    · simp only [List.mem_cons, List.not_mem_nil, or_false] at h
      rcases h with rfl | rfl | rfl | rfl
      · decide
      · exact hdigit _
      · exact hdigit _
      · exact hdigit _
    · next hcontrol =>
      rw [List.mem_singleton.1 h]
      simp only [isControl, Bool.or_eq_true, decide_eq_true_eq, not_or, Nat.not_lt] at hcontrol
      exact hcontrol.1

/-- A written path name has no control character below the blank. -/
theorem toNat_of_mem_written {p : String} {d : Char} (h : d ∈ (written p).toList) : 32 ≤ d.toNat := by
  unfold written at h
  split at h
  · next hplain =>
    have hself : writtenChar d = [d] := by
      simpa [isPlain] using List.all_eq_true.1 hplain d h
    exact toNat_of_mem_writtenChar (c := d) (by rw [hself]; exact List.mem_singleton_self d)
  · rw [String.toList_ofList] at h
    rcases List.mem_cons.1 h with rfl | h
    · decide
    · rcases List.mem_append.1 h with h | h
      · obtain ⟨c, -, hd⟩ := List.mem_flatMap.1 h
        exact toNat_of_mem_writtenChar hd
      · rw [List.mem_singleton.1 h]
        decide

/-- Something is written for every path name but the empty one. -/
theorem written_ne_empty {p : String} (h : p ≠ "") : written p ≠ "" := by
  unfold written
  split
  · exact h
  · intro heq
    have := congrArg String.toList heq
    rw [String.toList_ofList] at this
    cases this

end Hotspots.CQuoted
