import Hotspots.Text.Blank
import Hotspots.Text.Lines
import Hotspots.Text.Pieces

/-!
# Text that was joined from pieces

Pieces without the separator come back one at a time when a text is split, and words without blanks when it
is cut into words. Both kinds of words, of characters and of bytes, are one recursion over a class of blanks.
-/

namespace Hotspots

namespace Pieces

variable {α : Type} [BEq α] [LawfulBEq α]

/-- A list without the separator is one piece. -/
theorem splitOn_of_not_mem {separator : α} {piece : List α} (h : separator ∉ piece) :
    splitOn separator piece = [piece] := by
  induction piece with
  | nil => rfl
  | cons b rest ih =>
    rw [List.mem_cons, not_or] at h
    rw [splitOn, if_neg (by simpa using Ne.symm h.1), ih h.2]

/-- Splitting peels off a piece without the separator. -/
theorem splitOn_append {separator : α} {piece : List α} (h : separator ∉ piece) (rest : List α) :
    splitOn separator (piece ++ separator :: rest) = piece :: splitOn separator rest := by
  induction piece with
  | nil => simp [splitOn]
  | cons b more ih =>
    rw [List.mem_cons, not_or] at h
    rw [List.cons_append, splitOn, if_neg (by simpa using Ne.symm h.1), ih h.2]

/-- No piece has the separator. -/
theorem not_mem_of_mem_splitOn {separator : α} {as piece : List α} (h : piece ∈ splitOn separator as) :
    separator ∉ piece := by
  induction as generalizing piece with
  | nil =>
    obtain rfl := List.mem_singleton.1 h
    exact List.not_mem_nil
  | cons a rest ih =>
    obtain ⟨first, more, hrest⟩ := List.exists_cons_of_ne_nil (splitOn_ne_nil separator rest)
    rw [splitOn, hrest] at h
    rw [hrest] at ih
    split at h
    · rcases List.mem_cons.1 h with rfl | h
      · exact List.not_mem_nil
      · exact ih h
    · next hne =>
      rcases List.mem_cons.1 h with rfl | h
      · rw [List.mem_cons, not_or]
        exact ⟨fun heq => hne (beq_iff_eq.2 heq.symm), ih List.mem_cons_self⟩
      · exact ih (List.mem_cons_of_mem _ h)

/-- Lines that end with the separator are split into the lines and an empty rest. -/
theorem splitOn_flatMap {separator : α} {pieces : List (List α)} (h : ∀ p ∈ pieces, separator ∉ p) :
    splitOn separator (pieces.flatMap (· ++ [separator])) = pieces ++ [[]] := by
  induction pieces with
  | nil => rfl
  | cons p rest ih =>
    rw [List.flatMap_cons, List.append_assoc, List.singleton_append, splitOn_append (h p List.mem_cons_self),
      ih fun q hq => h q (List.mem_cons_of_mem _ hq), List.cons_append]

/-- Pieces that begin with the separator are split into nothing and the pieces. -/
theorem splitOn_flatMap_cons {separator : α} {pieces : List (List α)} (h : ∀ p ∈ pieces, separator ∉ p) :
    splitOn separator (pieces.flatMap (separator :: ·)) = [] :: pieces := by
  have hstarted : ∀ started, separator ∉ started →
      splitOn separator (started ++ pieces.flatMap (separator :: ·)) = started :: pieces := by
    induction pieces with
    | nil =>
      intro started hstarted
      rw [List.flatMap_nil, List.append_nil, splitOn_of_not_mem hstarted]
    | cons p rest ih =>
      intro started hstarted
      rw [List.flatMap_cons, List.cons_append, splitOn_append hstarted,
        ih (fun q hq => h q (List.mem_cons_of_mem _ hq)) p (h p List.mem_cons_self)]
  exact hstarted [] List.not_mem_nil

/-- A list is cut at the separator after a part without it. -/
theorem partition_append {separator : α} {before : List α} (h : separator ∉ before) (after : List α) :
    partition separator (before ++ separator :: after) = (before, after) := by
  have hpass : ∀ b ∈ before, (b != separator) = true := by
    intro b hb
    rw [bne_iff_ne]
    rintro rfl
    exact h hb
  rw [partition, List.takeWhile_append_of_pos hpass, List.dropWhile_append_of_pos hpass]
  simp

omit [BEq α] [LawfulBEq α] in
/-- What is in joined pieces is the separator or in a piece. -/
theorem mem_of_mem_intercalate {separator a : α} {pieces : List (List α)}
    (h : a ∈ [separator].intercalate pieces) : a = separator ∨ ∃ p ∈ pieces, a ∈ p := by
  induction pieces with
  | nil => simp [List.intercalate] at h
  | cons p rest ih =>
    cases rest with
    | nil => exact .inr ⟨p, List.mem_cons_self, by simpa [List.intercalate] using h⟩
    | cons q rest =>
      have hjoin : [separator].intercalate (p :: q :: rest) =
          p ++ separator :: [separator].intercalate (q :: rest) := by
        simp [List.intercalate]
      rw [hjoin, List.mem_append, List.mem_cons] at h
      rcases h with h | h | h
      · exact .inr ⟨p, List.mem_cons_self, h⟩
      · exact .inl h
      · exact (ih h).imp_right fun ⟨w, hw, ha⟩ => ⟨w, List.mem_cons_of_mem _ hw, ha⟩

end Pieces

/-! ## Words -/

/-- The words between blanks of a class, with a word in progress, in reverse, put in front. -/
def wordsBy {α : Type} (isBlank : α → Bool) : List α → List α → List (List α)
  | [], [] => []
  | [], word => [word.reverse]
  | c :: rest, word =>
    if isBlank c then
      (if word.isEmpty then wordsBy isBlank rest [] else word.reverse :: wordsBy isBlank rest [])
    else wordsBy isBlank rest (c :: word)

section WordsBy

variable {α : Type} {isBlank : α → Bool} {word : List α}

/-- Characters of a word join the word in progress. -/
theorem wordsBy_append (hword : ∀ c ∈ word, isBlank c = false) (rest started : List α) :
    wordsBy isBlank (word ++ rest) started = wordsBy isBlank rest (word.reverse ++ started) := by
  induction word generalizing started with
  | nil => rfl
  | cons c more ih =>
    rw [List.cons_append, wordsBy, if_neg (by simp [hword c List.mem_cons_self]),
      ih fun d hd => hword d (List.mem_cons_of_mem _ hd)]
    simp

/-- A text without blanks is one word. -/
theorem wordsBy_word (hword : ∀ c ∈ word, isBlank c = false) (hne : word ≠ []) :
    wordsBy isBlank word [] = [word] := by
  have h := wordsBy_append hword [] []
  rw [List.append_nil, List.append_nil] at h
  rw [h]
  cases hreverse : word.reverse with
  | nil => simp [hne] at hreverse
  | cons c more => rw [wordsBy, ← hreverse, List.reverse_reverse]; simp

/-- Cutting into words peels off a word that ends at a blank. -/
theorem wordsBy_append_blank (hword : ∀ c ∈ word, isBlank c = false) (hne : word ≠ []) {b : α}
    (hb : isBlank b = true) (rest : List α) :
    wordsBy isBlank (word ++ b :: rest) [] = word :: wordsBy isBlank rest [] := by
  rw [wordsBy_append hword, List.append_nil, wordsBy, if_pos hb, if_neg (by simpa using hne),
    List.reverse_reverse]

/-- Words are read back from a text in which they are joined by blanks. -/
theorem wordsBy_intercalate {b : α} (hb : isBlank b = true) {words : List (List α)}
    (hwords : ∀ w ∈ words, w ≠ [] ∧ ∀ c ∈ w, isBlank c = false) :
    wordsBy isBlank ([b].intercalate words) [] = words := by
  induction words with
  | nil => rfl
  | cons w rest ih =>
    obtain ⟨hne, hw⟩ := hwords w List.mem_cons_self
    cases rest with
    | nil => simpa [List.intercalate] using wordsBy_word hw hne
    | cons w' rest =>
      have hjoin : [b].intercalate (w :: w' :: rest) = w ++ b :: [b].intercalate (w' :: rest) := by
        simp [List.intercalate]
      rw [hjoin, wordsBy_append_blank hw hne hb, ih fun v hv => hwords v (List.mem_cons_of_mem _ hv)]

/-- A word has no blank. -/
theorem isBlank_of_mem_wordsBy {cs w : List α} (hword : ∀ c ∈ word, isBlank c = false)
    (h : w ∈ wordsBy isBlank cs word) : ∀ c ∈ w, isBlank c = false := by
  induction cs generalizing word with
  | nil =>
    cases word with
    | nil => cases h
    | cons c rest =>
      obtain rfl : w = (c :: rest).reverse := by simpa only [wordsBy, List.mem_singleton] using h
      exact fun d hd => hword d (List.mem_reverse.1 hd)
  | cons b rest ih =>
    rw [wordsBy] at h
    split at h
    · split at h
      · exact ih (fun _ hc => (List.not_mem_nil hc).elim) h
      · rcases List.mem_cons.1 h with rfl | h
        · exact fun d hd => hword d (List.mem_reverse.1 hd)
        · exact ih (fun _ hc => (List.not_mem_nil hc).elim) h
    · next hb => exact ih (List.forall_mem_cons.2 ⟨by simpa using hb, hword⟩) h

end WordsBy

/-- The ASCII characters after the space are no blanks, up to the last one. -/
theorem Blank.isBlank_of_toNat {c : Char} (hlow : 32 < c.toNat) (hhigh : c.toNat < 128) :
    isBlank c = false := by
  simp only [isBlank, Bool.or_eq_false_iff, Bool.and_eq_false_iff, decide_eq_false_iff_not,
    beq_eq_false_iff_ne]
  omega

/-- Blanks after a text that begins and ends without a blank are what is trimmed. -/
theorem Blank.trim_append {cs blanks : List Char} (hne : cs ≠ [])
    (hhead : ∀ c, cs.head? = some c → Blank.isBlank c = false)
    (hlast : ∀ c, cs.getLast? = some c → Blank.isBlank c = false)
    (hblanks : ∀ c ∈ blanks, Blank.isBlank c = true) : Blank.trim (cs ++ blanks) = cs := by
  have hdrop : ∀ (ds rest : List Char), ds ≠ [] → (∀ c, ds.head? = some c → Blank.isBlank c = false) →
      (ds ++ rest).dropWhile Blank.isBlank = ds ++ rest := by
    intro ds rest hds hd
    cases ds with
    | nil => exact (hds rfl).elim
    | cons d more => rw [List.cons_append, List.dropWhile_cons, if_neg (by simp [hd d rfl])]
  have hreverse : ∀ c, cs.reverse.head? = some c → Blank.isBlank c = false := by
    intro c hc
    rw [List.head?_reverse] at hc
    exact hlast c hc
  have hback := hdrop cs.reverse [] (by simpa using hne) hreverse
  rw [List.append_nil] at hback
  rw [Blank.trim, Blank.trimStart, hdrop cs blanks hne hhead, Blank.trimEnd, List.reverse_append,
    List.dropWhile_append_of_pos fun c hc => hblanks c (List.mem_reverse.1 hc), hback, List.reverse_reverse]

/-- The words of characters are those between blank characters. -/
theorem Blank.wordsFrom_eq (cs word : List Char) : Blank.wordsFrom cs word = wordsBy Blank.isBlank cs word := by
  induction cs generalizing word with
  | nil => cases word <;> rfl
  | cons c rest ih => simp only [Blank.wordsFrom, wordsBy, ih]

/-- The words of bytes are those between blank bytes. -/
theorem Lines.wordsFrom_eq (bytes word : Bytes) :
    Lines.wordsFrom bytes word = wordsBy Lines.isBlankByte bytes word := by
  induction bytes generalizing word with
  | nil => cases word <;> rfl
  | cons b rest ih => simp only [Lines.wordsFrom, wordsBy, ih]

end Hotspots
