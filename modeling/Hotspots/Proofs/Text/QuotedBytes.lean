import Hotspots.Proofs.Text.Lossy
import Hotspots.Proofs.Text.QuotedPath

/-!
# Path names that are no text

A path name is any string of bytes. It is written byte by byte: only ASCII bytes are ever escaped, so that what is
written is as malformed as the path name itself. Reading it lossily and undoing the quotes gives the same text as
reading the path name itself lossily (`path_writtenBytes`).
-/

namespace Hotspots.CQuoted

open Utf8 (shownChars IsHigh IsAscii)

/-- A byte as it is written between quotes. -/
def writtenByte (b : UInt8) : Bytes :=
  if b.toNat < 128 then Utf8.encodeChars (writtenChar (Char.ofNat b.toNat)) else [b]

/-- Whether a byte stands for itself. -/
def isPlainByte (b : UInt8) : Bool := 128 ≤ b.toNat || isPlain (Char.ofNat b.toNat)

/-- A path name of bytes as it is written. -/
def writtenBytes (path : Bytes) : Bytes :=
  if path.all isPlainByte then path else 34 :: (path.flatMap writtenByte ++ [34])

/-! ## Written characters -/

/-- A character beyond ASCII stands for itself. -/
theorem writtenChar_of_high {c : Char} (h : 128 ≤ c.toNat) : writtenChar c = [c] := by
  have hletters : ∀ e ∈ letters, e.1.toNat < 128 := by decide
  have hletter : Record.get? c letters = none := by
    rw [Record.get?_eq_none_iff]
    intro hmem
    obtain ⟨e, he, rfl⟩ := List.mem_map.1 hmem
    exact absurd (hletters e he) (Nat.not_lt.2 h)
  have hcontrol : isControl c = false := by
    simp only [isControl, Bool.or_eq_false_iff, decide_eq_false_iff_not, beq_eq_false_iff_ne]
    omega
  simp [writtenChar, hletter, hcontrol]

/-- Something is written for every character. -/
theorem writtenChar_ne_nil (c : Char) : writtenChar c ≠ [] := by
  unfold writtenChar
  split
  · simp
  · split <;> simp

/-- What is written for an ASCII character is ASCII. -/
theorem isAscii_writtenChar {c : Char} (h : c.toNat < 128) : IsAscii (writtenChar c) := by
  have hletters : ∀ e ∈ letters, IsAscii ['\\', e.2] := by decide
  have hdigit : ∀ n, (octalDigit n).toNat < 128 := fun n => by
    rw [toNat_octalDigit]
    omega
  unfold writtenChar
  split
  · next letter hletter => exact hletters _ (Record.mem_of_get? hletter)
  · split
    · simp only [IsAscii, List.forall_mem_cons, List.not_mem_nil, false_imp_iff, implies_true, and_true]
      exact ⟨by decide, hdigit _, hdigit _, hdigit _⟩
    · exact List.forall_mem_singleton.2 h

/-! ## Written bytes -/

/-- A run beyond ASCII is written as it is. -/
theorem flatMap_writtenByte_of_high {run : Bytes} (h : IsHigh run) : run.flatMap writtenByte = run := by
  induction run with
  | nil => rfl
  | cons b rest ih =>
    have hb : ¬b.toNat < 128 := Nat.not_lt.2 (h b List.mem_cons_self)
    rw [List.flatMap_cons, writtenByte, if_neg hb, ih fun a ha => h a (List.mem_cons_of_mem _ ha),
      List.singleton_append]

/-- The characters of a run beyond ASCII are written as they are. -/
theorem flatMap_writtenChar_of_high {run : Bytes} (h : IsHigh run) :
    (shownChars run).flatMap writtenChar = shownChars run := by
  have hchars : ∀ c ∈ shownChars run, 128 ≤ c.toNat := fun c hc => Utf8.toNat_of_mem_shownChars h hc
  revert hchars
  induction shownChars run with
  | nil => exact fun _ => rfl
  | cons c rest ih =>
    intro hchars
    rw [List.flatMap_cons, writtenChar_of_high (hchars c List.mem_cons_self),
      ih fun d hd => hchars d (List.mem_cons_of_mem _ hd), List.singleton_append]

/-- Bytes that are written are read lossily as what is written for the characters of the bytes. -/
theorem shownChars_flatMap_writtenByte (bytes : Bytes) :
    shownChars (bytes.flatMap writtenByte) = (shownChars bytes).flatMap writtenChar := by
  induction bytes using Utf8.runs_induction with
  | high run hrun => rw [flatMap_writtenByte_of_high hrun, flatMap_writtenChar_of_high hrun]
  | ascii run b rest hrun hb ih =>
    have hcode : (Char.ofNat b.toNat).toNat = b.toNat := Utf8.toNat_charOfNat (by omega)
    have hascii : IsAscii (writtenChar (Char.ofNat b.toNat)) := isAscii_writtenChar (by omega)
    have hstarts : Utf8.StartsAscii (Utf8.encodeChars (writtenChar (Char.ofNat b.toNat)) ++ rest.flatMap writtenByte) :=
      (Utf8.startsAscii_encodeChars hascii).append_of_ne_nil (Utf8.encodeChars_ne_nil (writtenChar_ne_nil _)) _
    rw [List.flatMap_append, List.flatMap_cons, flatMap_writtenByte_of_high hrun, writtenByte, if_pos hb,
      Utf8.shownChars_append hstarts, Utf8.shownChars_encodeChars_append hascii, ih, Utf8.shownChars_append_cons hb,
      List.flatMap_append, List.flatMap_cons, flatMap_writtenChar_of_high hrun]

/-- The bytes of a path name are plain if its characters are. -/
theorem all_isPlainByte (bytes : Bytes) : bytes.all isPlainByte = (shownChars bytes).all isPlain := by
  have hhigh : ∀ run, IsHigh run → run.all isPlainByte = true ∧ (shownChars run).all isPlain = true := by
    intro run hrun
    rw [List.all_eq_true, List.all_eq_true]
    refine ⟨fun b hb => by simp [isPlainByte, hrun b hb], fun c hc => ?_⟩
    rw [isPlain, writtenChar_of_high (Utf8.toNat_of_mem_shownChars hrun hc), beq_self_eq_true]
  induction bytes using Utf8.runs_induction with
  | high run hrun => rw [(hhigh run hrun).1, (hhigh run hrun).2]
  | ascii run b rest hrun hb ih =>
    have hbyte : isPlainByte b = isPlain (Char.ofNat b.toNat) := by simp [isPlainByte, Nat.not_le.2 hb]
    simp only [List.all_append, List.all_cons, Utf8.shownChars_append_cons hb, hhigh run hrun, hbyte, ih]

/-- A lossy reading of a path name as it is written is the text of the path name as it is written. -/
theorem decodeLossy_writtenBytes (path : Bytes) :
    Utf8.decodeLossy (writtenBytes path) = written (Utf8.decodeLossy path) := by
  unfold written writtenBytes
  rw [Utf8.toList_decodeLossy, all_isPlainByte]
  split
  · rfl
  · have hquote : (34 : UInt8).toNat < 128 := by decide
    rw [Utf8.decodeLossy_eq, Utf8.shownChars_cons_of_ascii hquote, Utf8.shownChars_append_cons hquote,
      shownChars_flatMap_writtenByte]
    rfl

/-- A path name that is written, read lossily and unquoted is the text of the path name. -/
theorem path_writtenBytes (p : Bytes) : path (Utf8.decodeLossy (writtenBytes p)) = .ok (Utf8.decodeLossy p) := by
  rw [decodeLossy_writtenBytes, path_written]

end Hotspots.CQuoted
