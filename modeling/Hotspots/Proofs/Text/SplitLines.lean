import Hotspots.Text.Lines
import Mathlib.Data.List.Basic

/-!
# The lines that a byte string splits into

A byte string is made of lines and their ends, which are a line feed, a carriage return or the pair of both, and of a
last line without an end. A pair is one end and never two. Read so, a byte string splits into its lines and into nothing
else (`splits_iff`).
-/

namespace Hotspots.Lines

/-- No byte of the line ends a line. -/
def IsPlain (line : Bytes) : Prop := 10 ∉ line ∧ 13 ∉ line

/-- What ends a line in front of the rest of a byte string. -/
inductive IsEnd : Bytes → Bytes → Prop where
  | lineFeed (rest : Bytes) : IsEnd [10] rest
  | pair (rest : Bytes) : IsEnd [13, 10] rest
  | carriageReturn {rest : Bytes} (hrest : rest.head? ≠ some 10) : IsEnd [13] rest

/-- The lines that a byte string is made of. A last line without an end is not empty. -/
inductive Splits : Bytes → List Bytes → Prop where
  | nothing : Splits [] []
  | last {line : Bytes} (hline : IsPlain line) (hne : line ≠ []) : Splits line [line]
  | ended {line mark rest : Bytes} {more : List Bytes} (hline : IsPlain line) (hmark : IsEnd mark rest)
      (hmore : Splits rest more) : Splits (line ++ (mark ++ rest)) (line :: more)

variable {line word mark rest bytes : Bytes} {b : UInt8}

/-- No byte of the empty line ends it. -/
theorem isPlain_nil : IsPlain [] := ⟨List.not_mem_nil, List.not_mem_nil⟩

/-- A line is plain if its first byte and the others are. -/
theorem isPlain_cons : IsPlain (b :: line) ↔ (b ≠ 10 ∧ b ≠ 13) ∧ IsPlain line := by
  simp only [IsPlain, List.mem_cons, not_or, ne_eq, eq_comm (b := b)]
  exact and_and_and_comm

/-- A line is plain in either direction. -/
theorem isPlain_reverse : IsPlain line.reverse ↔ IsPlain line := by
  simp only [IsPlain, List.mem_reverse]

/-- A byte string splits into the lines that are read from it. -/
theorem splits_linesFrom (bytes line : Bytes) (hline : IsPlain line) :
    Splits (line.reverse ++ bytes) (linesFrom bytes line) := by
  have hplain := isPlain_reverse.2 hline
  fun_induction linesFrom bytes line with
  | case1 => exact .nothing
  | case2 line hne =>
    rw [List.append_nil]
    exact .last hplain fun h => hne (List.reverse_eq_nil_iff.1 h)
  | case3 rest line ih => exact .ended hplain (.lineFeed rest) (ih isPlain_nil isPlain_nil)
  | case4 rest line ih => exact .ended hplain (.pair rest) (ih isPlain_nil isPlain_nil)
  | case5 rest line hrest ih =>
    refine .ended hplain (.carriageReturn fun h => ?_) (ih isPlain_nil isPlain_nil)
    obtain ⟨more, hmore⟩ := List.head?_eq_some_iff.1 h
    exact hrest more hmore
  | case6 b rest line hfeed _ hreturn ih =>
    have hmore : IsPlain (b :: line) := isPlain_cons.2 ⟨⟨hfeed, hreturn⟩, hline⟩
    have hsplits := ih hmore (isPlain_reverse.2 hmore)
    rwa [List.reverse_cons, List.append_assoc, List.singleton_append] at hsplits

/-- A byte that ends no line is added to the line in progress. -/
theorem linesFrom_cons (hfeed : b ≠ 10) (hreturn : b ≠ 13) (rest line : Bytes) :
    linesFrom (b :: rest) line = linesFrom rest (b :: line) := by
  rw [linesFrom]
  · exact hfeed
  · exact fun _ h _ => hreturn h
  · exact hreturn

/-- Bytes that end no line are added to the line in progress. -/
theorem linesFrom_append (hword : IsPlain word) (rest line : Bytes) :
    linesFrom (word ++ rest) line = linesFrom rest (word.reverse ++ line) := by
  induction word generalizing line with
  | nil => rfl
  | cons b word ih =>
    obtain ⟨⟨hfeed, hreturn⟩, hplain⟩ := isPlain_cons.1 hword
    rw [List.cons_append, linesFrom_cons hfeed hreturn, ih hplain, List.reverse_cons, List.append_assoc,
      List.singleton_append]

/-- An end of a line puts the line in progress in front of the lines of the rest. -/
theorem linesFrom_end (hmark : IsEnd mark rest) (line : Bytes) :
    linesFrom (mark ++ rest) line = line.reverse :: lines rest := by
  cases hmark with
  | lineFeed => rfl
  | pair => rfl
  | carriageReturn hrest =>
    rw [List.singleton_append, linesFrom, lines]
    exact fun more h => hrest (List.head?_eq_some_iff.2 ⟨more, h⟩)

/-- A line and its end in front of a byte string are one line more. -/
theorem lines_append (hline : IsPlain line) (hmark : IsEnd mark rest) :
    lines (line ++ (mark ++ rest)) = line :: lines rest := by
  rw [lines, linesFrom_append hline, linesFrom_end hmark, List.append_nil, List.reverse_reverse]

/-- A byte string splits into its lines, and into nothing else. -/
theorem splits_iff {ls : List Bytes} : Splits bytes ls ↔ ls = lines bytes := by
  constructor
  · intro h
    induction h with
    | nothing => rfl
    | @last line hline hne =>
      have hlast : linesFrom [] line.reverse = [line] := by
        rw [linesFrom, List.reverse_reverse]
        exact fun h => hne (List.reverse_eq_nil_iff.1 h)
      rw [lines, ← List.append_nil line, linesFrom_append hline, List.append_nil, List.append_nil, hlast]
    | ended hline hmark _ ih => rw [lines_append hline hmark, ih]
  · rintro rfl
    exact splits_linesFrom bytes [] isPlain_nil

end Hotspots.Lines
