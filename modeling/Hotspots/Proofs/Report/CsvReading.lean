import Hotspots.Proofs.Number.Digits
import Hotspots.Report.Csv
import Mathlib.Algebra.BigOperators.Group.List.Basic
import Mathlib.Data.List.Basic

/-!
# Reading comma-separated values back

A reader takes a text character by character, with a sign at the end of each line, and bounds the length of no field.
Outside quotes a line ends at a line feed, at a carriage return or at the pair of both, and the record ends with it.

A written field is read as what it was, except that a carriage return in a field without quotes ends a record. A writer
that puts quotes around a field because of a carriage return leaves none, so that its work-list is always read back as
its columns. The work-list of a writer that takes only a line feed for a line break is read back if and only if no path,
rule or subject has a carriage return and nothing else that needs quotes (`Worklist.csv_read_back`).
-/

namespace Hotspots.Csv

/-- Where a reader stands. -/
inductive Position where
  | recordStart
  | fieldStart
  | unquoted
  | quoted
  /-- After a double quote in a quoted field. -/
  | afterQuote
  /-- After a line break outside quotes. -/
  | afterBreak
  deriving DecidableEq, Repr

/-- A text that was read in part: the field and the record so far, and the records that are complete. -/
structure Reading where
  position : Position := .recordStart
  field : List Char := []
  fields : List (List Char) := []
  records : List (List (List Char)) := []
  deriving DecidableEq, Repr

/-- Whether a character breaks a line outside quotes. -/
def isBreak (c : Char) : Bool := c == '\n' || c == '\r'

/-- Whether a line ends after a character: after a line feed, after a carriage return that no line feed follows, and at
the end of the text. -/
def endsLine (c : Char) (rest : List Char) : Bool :=
  c == '\n' || (c == '\r' && rest.head? != some '\n') || rest.isEmpty

namespace Reading

/-- The character belongs to the field. -/
def keep (r : Reading) (c : Char) (position : Position) : Reading :=
  { r with position := position, field := r.field ++ [c] }

/-- The field is complete. -/
def endField (r : Reading) (position : Position) : Reading :=
  { r with position := position, field := [], fields := r.fields ++ [r.field] }

/-- The record is complete. -/
def endRecord (r : Reading) : Reading := { records := r.records ++ [r.fields] }

/-- What the first character of a field does. -/
def putFirst (r : Reading) (c : Char) : Reading :=
  if isBreak c then r.endField .afterBreak
  else if c = '"' then { r with position := .quoted }
  else if c = ',' then r.endField .fieldStart
  else r.keep c .unquoted

/-- What a character does. After a line break only another one may come on the same line. -/
def put (r : Reading) (c : Char) : Option Reading :=
  match r.position with
  | .recordStart => some (if isBreak c then { r with position := .afterBreak } else r.putFirst c)
  | .fieldStart => some (r.putFirst c)
  | .unquoted =>
    some (if isBreak c then r.endField .afterBreak
      else if c = ',' then r.endField .fieldStart
      else r.keep c .unquoted)
  | .quoted => some (if c = '"' then { r with position := .afterQuote } else r.keep c .quoted)
  | .afterQuote =>
    some (if c = '"' then r.keep c .quoted
      else if isBreak c then r.endField .afterBreak
      else if c = ',' then r.endField .fieldStart
      else r.keep c .unquoted)
  | .afterBreak => if isBreak c then some r else none

/-- What the end of a line does. A quoted field goes on in the next line. -/
def endLine (r : Reading) : Reading :=
  match r.position with
  | .quoted => r
  | .recordStart => r.endRecord
  | .afterBreak => r.endRecord
  | _ => (r.endField .recordStart).endRecord

/-- Reads the rest of a text. -/
def read : List Char → Reading → Option Reading
  | [], r => some r
  | c :: rest, r => (r.put c).bind fun r => read rest (if endsLine c rest then r.endLine else r)

/-- The records at the end of a text; a quoted field may end there. -/
def finish (r : Reading) : List (List (List Char)) :=
  if r.position = .quoted || !r.field.isEmpty then (r.endField .recordStart).endRecord.records else r.records

end Reading

/-- The records of a text, or that it has none. -/
def parse (text : List Char) : Option (List (List (List Char))) := (Reading.read text {}).map Reading.finish

variable {quoting : Quoting}

/-- The number of carriage returns of a field that are written without quotes. -/
def bareReturns (quoting : Quoting) (cs : List Char) : Nat :=
  if cs.any (needsQuotes quoting) then 0 else cs.count '\r'

/-- All carriage returns of a text are written between quotes if and only if it has none or something that needs
quotes. -/
theorem bareReturns_eq_zero_iff {cs : List Char} :
    bareReturns quoting cs = 0 ↔ ('\r' ∈ cs → ∃ c ∈ cs, needsQuotes quoting c = true) := by
  unfold bareReturns
  split
  · next hquotes => exact iff_of_true rfl fun _ => List.any_eq_true.1 hquotes
  · next hquotes =>
    rw [List.count_eq_zero, ← not_iff_not]
    simp only [not_not, Classical.not_imp, iff_self_and]
    exact fun _ hneeds => hquotes (List.any_eq_true.2 hneeds)

/-- A carriage return that counts as a line break is always written between quotes. -/
theorem bareReturns_lineBreaks (cs : List Char) : bareReturns .lineBreaks cs = 0 :=
  bareReturns_eq_zero_iff.2 fun hreturn => ⟨'\r', hreturn, rfl⟩

/-- Beside a line feed as the only line break, a comma or a double quote needs quotes. -/
theorem bareReturns_recordEnd {cs : List Char} :
    bareReturns .recordEnd cs = 0 ↔ ('\r' ∈ cs → ∃ c ∈ cs, c = ',' ∨ c = '"' ∨ c = '\n') := by
  have hneeds : ∀ c, needsQuotes .recordEnd c = true ↔ c = ',' ∨ c = '"' ∨ c = '\n' := by
    intro c
    simp [needsQuotes, or_assoc]
  simp only [bareReturns_eq_zero_iff, hneeds]

/-- A text without control characters is read back. -/
theorem bareReturns_eq_zero_of_isGraphic {s : String} (h : IsGraphic s.toList) : bareReturns quoting s.toList = 0 :=
  bareReturns_eq_zero_iff.2 fun hreturn => absurd (h _ hreturn) (by decide)

namespace Reading

variable {r : Reading} {c d : Char} {cs rest : List Char}

/-! ## One field -/

/-- A reader that is neither between quotes nor after a line break. -/
def IsOpen (r : Reading) : Prop := r.position ≠ .quoted ∧ r.position ≠ .afterBreak

/-- A line goes on after a character that breaks no line, unless the text ends there. -/
theorem read_cons (hc : isBreak c = false) (hrest : rest ≠ []) : read (c :: rest) r = (r.put c).bind (read rest) := by
  obtain ⟨d, more, rfl⟩ := List.exists_cons_of_ne_nil hrest
  simp only [isBreak, Bool.or_eq_false_iff] at hc
  simp [read, endsLine, hc]

/-- A character that needs no quotes and breaks no line belongs to the field. -/
theorem put_of_isOpen (hr : r.IsOpen) (hc : needsQuotes quoting c = false) (hbreak : isBreak c = false) :
    r.put c = some (r.keep c .unquoted) := by
  obtain ⟨hquoted, hafter⟩ := hr
  simp only [needsQuotes, Bool.or_eq_false_iff, beq_eq_false_iff_ne] at hc
  obtain ⟨⟨hcomma, hquote⟩, -⟩ := hc
  cases hposition : r.position <;> simp_all [put, putFirst]

/-- A comma ends the field. -/
theorem put_comma (hr : r.IsOpen) : r.put ',' = some (r.endField .fieldStart) := by
  obtain ⟨hquoted, hafter⟩ := hr
  cases hposition : r.position <;> simp_all [put, putFirst, isBreak]

/-- A carriage return that ends a line ends a record. -/
theorem exists_put_return (hr : r.IsOpen) :
    ∃ r', r.put '\r' = some r' ∧ r'.endLine.IsOpen ∧ r'.endLine.records.length = r.records.length + 1 := by
  obtain ⟨hquoted, hafter⟩ := hr
  cases hposition : r.position <;>
    simp_all [put, putFirst, isBreak, endField, endLine, endRecord, IsOpen]

/-- The reader after the text of a field: it has a further record for each of the carriage returns that end one, and the
text is in the field if there is none. -/
structure Gathers (r : Reading) (cs : List Char) (returns : Nat) (r' : Reading) : Prop where
  isOpen : r'.IsOpen
  count : r'.records.length = r.records.length + returns
  exact : returns = 0 → r' = { r with position := r'.position, field := r.field ++ cs }
  atStart : returns = 0 → r'.position = .recordStart → r.position = .recordStart

/-- A field without quotes is read to its end, and each of its carriage returns ends a record. -/
theorem exists_read_plain (hr : r.IsOpen) (hcs : ∀ c ∈ cs, needsQuotes quoting c = false)
    (hd : d ≠ '\n' ∨ cs.count '\r' = 0) :
    ∃ r', r.Gathers cs (cs.count '\r') r' ∧ read (cs ++ d :: rest) r = read (d :: rest) r' := by
  induction cs generalizing r with
  | nil => exact ⟨r, ⟨hr, rfl, fun _ => by simp, fun _ => id⟩, rfl⟩
  | cons c cs ih =>
    have hrest : ∀ e ∈ cs, needsQuotes quoting e = false := fun e he => hcs e (List.mem_cons_of_mem c he)
    have hc : needsQuotes quoting c = false := hcs c List.mem_cons_self
    by_cases hreturn : c = '\r'
    · subst hreturn
      have hfeed : d ≠ '\n' := by simpa using hd
      obtain ⟨r₁, hput, hopen, hlength⟩ := exists_put_return hr
      -- The text goes on after the carriage return, and not with a line feed.
      have hend : endsLine '\r' (cs ++ d :: rest) = true := by
        cases cs with
        | nil => simp [endsLine, hfeed]
        | cons b cs =>
          have hb : b ≠ '\n' := by
            rintro rfl
            exact absurd (hrest _ List.mem_cons_self) (by simp [needsQuotes])
          simp [endsLine, hb]
      obtain ⟨r', hgathers, hread⟩ := ih hopen hrest (.inl hfeed)
      rw [List.count_cons_self]
      refine ⟨r', ⟨hgathers.isOpen, ?_, nofun, nofun⟩, ?_⟩
      · rw [hgathers.count, hlength, Nat.add_assoc, Nat.add_comm 1]
      · rw [List.cons_append, read, hput, Option.bind_some, if_pos hend, hread]
    · have hbreak : isBreak c = false := by
        simp only [needsQuotes, Bool.or_eq_false_iff] at hc
        simp [isBreak, hc, hreturn]
      rw [List.count_cons_of_ne hreturn] at hd ⊢
      obtain ⟨r', hgathers, hread⟩ := ih (r := r.keep c .unquoted) ⟨nofun, nofun⟩ hrest hd
      refine ⟨r', ⟨hgathers.isOpen, hgathers.count, fun hnone => ?_, fun hnone hstart => ?_⟩, ?_⟩
      · rw [hgathers.exact hnone]
        simp [keep]
      · exact nomatch hgathers.atStart hnone hstart
      · rw [List.cons_append, read_cons hbreak (by simp), put_of_isOpen hr hc hbreak, Option.bind_some, hread]

/-- A character between quotes belongs to the field, also if a line ends with it. -/
theorem read_cons_quoted (hr : r.position = .quoted) (hc : c ≠ '"') :
    read (c :: rest) r = read rest (r.keep c .quoted) := by
  have hline (ends : Bool) : (if ends then (r.keep c .quoted).endLine else r.keep c .quoted) = r.keep c .quoted := by
    cases ends <;> rfl
  rw [read, put, hr]
  simp only [if_neg hc, Option.bind_some, hline]

/-- Of two double quotes between quotes the first seems to close the field, and the second one continues it. -/
theorem read_doubled (hr : r.position = .quoted) (hrest : rest ≠ []) :
    read ('"' :: '"' :: rest) r = read rest (r.keep '"' .quoted) := by
  have hquote : isBreak '"' = false := by decide
  rw [read_cons hquote (List.cons_ne_nil _ _), put, hr]
  simp only [if_true, Option.bind_some]
  rw [read_cons hquote hrest, put]
  rfl

/-- A quoted field is read up to the double quote that closes it. -/
theorem read_quoted (hr : r.position = .quoted) (hrest : rest ≠ []) :
    read (cs.flatMap quotedChar ++ '"' :: rest) r =
      read rest { r with position := .afterQuote, field := r.field ++ cs } := by
  induction cs generalizing r with
  | nil =>
    rw [List.flatMap_nil, List.nil_append, read_cons (by decide) hrest, put, hr, List.append_nil]
    rfl
  | cons c cs ih =>
    have hlater : read (cs.flatMap quotedChar ++ '"' :: rest) (r.keep c .quoted) =
        read rest { r with position := .afterQuote, field := r.field ++ c :: cs } := by
      rw [ih rfl]
      simp [keep]
    rw [← hlater, List.flatMap_cons, List.append_assoc]
    by_cases hc : c = '"'
    · subst hc
      exact read_doubled hr (by simp)
    · have hsingle : quotedChar c = [c] := by simp [quotedChar, hc]
      rw [hsingle]
      exact read_cons_quoted hr hc

/-- A written field is read to its end, and each carriage return that is written without quotes ends a record. -/
theorem exists_read_field (quoting : Quoting) (cs : List Char) (d : Char) (rest : List Char)
    (hr : r.position = .recordStart ∨ r.position = .fieldStart) (hd : d ≠ '\n' ∨ bareReturns quoting cs = 0) :
    ∃ r', r.Gathers cs (bareReturns quoting cs) r' ∧
      read (Csv.field quoting cs ++ d :: rest) r = read (d :: rest) r' := by
  by_cases hquotes : cs.any (needsQuotes quoting) = true
  · have hbare : bareReturns quoting cs = 0 := if_pos hquotes
    have hput : r.put '"' = some { r with position := .quoted } := by
      rcases hr with hr | hr <;> simp [put, hr, putFirst, isBreak]
    have hfield : Csv.field quoting cs ++ d :: rest = '"' :: (cs.flatMap quotedChar ++ '"' :: d :: rest) := by
      simp [Csv.field, hquotes]
    rw [hbare]
    refine ⟨{ r with position := .afterQuote, field := r.field ++ cs }, ⟨⟨nofun, nofun⟩, rfl, fun _ => rfl, nofun⟩, ?_⟩
    rw [hfield, read_cons (by decide) (by simp), hput, Option.bind_some, read_quoted rfl (List.cons_ne_nil _ _)]
  · have hbare : bareReturns quoting cs = cs.count '\r' := if_neg hquotes
    have hfield : Csv.field quoting cs = cs := if_neg hquotes
    have hopen : r.IsOpen := by
      rcases hr with hr | hr <;> simp [IsOpen, hr]
    rw [hbare] at hd ⊢
    rw [hfield]
    exact exists_read_plain hopen (by simpa using hquotes) hd

/-! ## One record -/

/-- The reader after some more fields of a record: it has read the record to its end, with a further record for each
carriage return that is written without quotes, and as it was if there is none. -/
structure Completes (quoting : Quoting) (r : Reading) (fields : List (List Char)) (r' : Reading) : Prop where
  atStart : r'.position = .recordStart
  noField : r'.field = []
  noFields : r'.fields = []
  count : r'.records.length = r.records.length + (1 + (fields.map (bareReturns quoting)).sum)
  exact : (∀ f ∈ fields, bareReturns quoting f = 0) → r.field = [] → r'.records = r.records ++ [r.fields ++ fields]

/-- A line feed ends the field, unless the record has none. -/
theorem put_feed (hr : r.IsOpen) (hstart : r.position ≠ .recordStart) : r.put '\n' = some (r.endField .afterBreak) := by
  obtain ⟨hquoted, hafter⟩ := hr
  cases hposition : r.position <;> simp_all [put, putFirst, isBreak]

/-- A last field in which no carriage return ends a record is read to the end of its record. -/
theorem exists_read_last (hr : r.position = .fieldStart) (hcs : bareReturns quoting cs = 0) :
    ∃ r', Completes quoting r [cs] r' ∧ read (Csv.record quoting [cs] ++ rest) r = read rest r' := by
  obtain ⟨r₁, hgathers, hread⟩ := exists_read_field quoting cs '\n' rest (.inr hr) (.inr hcs)
  have hput := put_feed hgathers.isOpen fun hstart => by
    rw [hgathers.atStart hcs hstart] at hr
    cases hr
  have hrecord : Csv.record quoting [cs] ++ rest = Csv.field quoting cs ++ '\n' :: rest := by
    simp [Csv.record, List.intercalate]
  refine ⟨{ records := r₁.records ++ [r₁.fields ++ [r₁.field]] }, ⟨rfl, rfl, rfl, ?_, fun _ hfield => ?_⟩, ?_⟩
  · simp [hgathers.count, hcs]
  · rw [hgathers.exact hcs, hfield]
    rfl
  · rw [hrecord, hread, read, hput]
    rfl

/-- The fields of a record are read to its end, if no carriage return in the last one ends a record. -/
theorem exists_read_record {fields : List (List Char)} (rest : List Char)
    (hr : r.position = .fieldStart ∨ (r.position = .recordStart ∧ 2 ≤ fields.length)) (hfields : fields ≠ [])
    (hlast : ∀ cs ∈ fields.getLast?, bareReturns quoting cs = 0) :
    ∃ r', Completes quoting r fields r' ∧ read (Csv.record quoting fields ++ rest) r = read rest r' := by
  induction fields generalizing r with
  | nil => exact absurd rfl hfields
  | cons cs more ih =>
    cases more with
    | nil =>
      have hstart : r.position = .fieldStart := hr.resolve_right fun h => absurd h.2 (by simp)
      exact exists_read_last hstart (hlast cs (by simp))
    | cons next more =>
      have hrecord : Csv.record quoting (cs :: next :: more) ++ rest =
          Csv.field quoting cs ++ ',' :: (Csv.record quoting (next :: more) ++ rest) := by
        simp [Csv.record, List.intercalate]
      obtain ⟨r₁, hgathers, hread⟩ :=
        exists_read_field quoting cs ',' (Csv.record quoting (next :: more) ++ rest) (hr.symm.imp_left And.left)
          (.inl (by decide))
      obtain ⟨r', hcompletes, hread'⟩ := ih (r := r₁.endField .fieldStart) (.inl rfl) (List.cons_ne_nil _ _)
        (by simpa using hlast)
      refine ⟨r', ⟨hcompletes.atStart, hcompletes.noField, hcompletes.noFields, ?_, fun hall hfield => ?_⟩, ?_⟩
      · have hlength := hcompletes.count
        simp only [endField, hgathers.count, List.map_cons, List.sum_cons] at hlength ⊢
        omega
      · rw [hcompletes.exact (fun f hf => hall f (List.mem_cons_of_mem cs hf)) rfl,
          hgathers.exact (hall cs List.mem_cons_self)]
        simp [endField, hfield]
      · rw [hrecord, hread, read_cons (by decide) (by simp [Csv.record]), put_comma hgathers.isOpen, Option.bind_some,
          hread']

/-! ## Many records -/

/-- A record with an end that a reader finds: of at least two fields, and in the last no carriage return ends it. -/
def IsWritten (quoting : Quoting) (fields : List (List Char)) : Prop :=
  2 ≤ fields.length ∧ ∀ cs ∈ fields.getLast?, bareReturns quoting cs = 0

/-- Records are read one after the other. -/
theorem exists_read_records {rows : List (List (List Char))} (hrows : ∀ row ∈ rows, IsWritten quoting row)
    (hr : r.position = .recordStart) (hfield : r.field = []) (hfields : r.fields = []) :
    ∃ r', read (rows.flatMap (Csv.record quoting)) r = some r' ∧ r'.position = .recordStart ∧ r'.field = [] ∧
      r'.records.length = r.records.length + (rows.map fun row => 1 + (row.map (bareReturns quoting)).sum).sum ∧
      ((∀ row ∈ rows, ∀ f ∈ row, bareReturns quoting f = 0) → r'.records = r.records ++ rows) := by
  induction rows generalizing r with
  | nil => exact ⟨r, rfl, hr, hfield, rfl, fun _ => by simp⟩
  | cons row rows ih =>
    obtain ⟨hlength, hlast⟩ := hrows row List.mem_cons_self
    obtain ⟨r₁, hcompletes, hread⟩ := exists_read_record (rows.flatMap (Csv.record quoting)) (.inr ⟨hr, hlength⟩)
      (List.length_pos_iff.1 (by omega)) hlast
    have hlater : ∀ row ∈ rows, IsWritten quoting row := fun row hrow => hrows row (List.mem_cons_of_mem _ hrow)
    obtain ⟨r', hread', hposition, hnone, hcount, hexact⟩ :=
      ih hlater hcompletes.atStart hcompletes.noField hcompletes.noFields
    refine ⟨r', ?_, hposition, hnone, ?_, fun hall => ?_⟩
    · rw [List.flatMap_cons, hread, hread']
    · rw [hcount, hcompletes.count, List.map_cons, List.sum_cons, Nat.add_assoc]
    · rw [hexact fun row hrow => hall row (List.mem_cons_of_mem _ hrow),
        hcompletes.exact (hall row List.mem_cons_self) hfield, hfields]
      simp

end Reading

/-- Written records are read back as they were if and only if no field has a carriage return that is written without
quotes. -/
theorem parse_records_iff {rows : List (List (List Char))} (hrows : ∀ row ∈ rows, Reading.IsWritten quoting row) :
    parse (rows.flatMap (record quoting)) = some rows ↔ ∀ row ∈ rows, ∀ f ∈ row, bareReturns quoting f = 0 := by
  obtain ⟨r, hread, hposition, hfield, hcount, hexact⟩ := Reading.exists_read_records hrows (r := {}) rfl rfl rfl
  have hparse : parse (rows.flatMap (record quoting)) = some r.records := by
    rw [parse, hread, Option.map_some, Reading.finish, hposition, hfield]
    rfl
  rw [hparse, Option.some.injEq]
  constructor
  · intro heq row hrow f hf
    -- Every bare carriage return adds a record, and there is one record for each row.
    have hnone : (rows.map fun row => (row.map (bareReturns quoting)).sum).sum = 0 := by
      rw [heq, List.sum_map_add, List.map_const', List.sum_replicate_nat, mul_one] at hcount
      simpa using hcount
    have hsum := List.sum_eq_zero_iff_forall_eq_nat.1 hnone _ (List.mem_map_of_mem hrow)
    exact List.sum_eq_zero_iff_forall_eq_nat.1 hsum _ (List.mem_map_of_mem hf)
  · intro hall
    simpa using hexact hall

end Hotspots.Csv

namespace Hotspots

/-! ## The work-list -/

variable {quoting : Csv.Quoting}

/-- Of the columns of an entry, only its texts may have a carriage return that is written without quotes. -/
theorem WorkItem.bareReturns_columns_iff (i : WorkItem) :
    (∀ text ∈ i.columns, Csv.bareReturns quoting text.toList = 0) ↔
      ∀ text ∈ [i.identity.path, i.rule, i.subject], Csv.bareReturns quoting text.toList = 0 := by
  simp [columns, Csv.bareReturns_eq_zero_of_isGraphic]

/-- The names of the columns have no carriage return. -/
theorem Csv.bareReturns_columns : ∀ text ∈ columns, bareReturns quoting text.toList = 0 := by
  have hgraphic : ∀ text ∈ columns, ∀ c ∈ text.toList, ' ' < c := by simp [columns]
  exact fun text htext => bareReturns_eq_zero_of_isGraphic (hgraphic text htext)

/-- The record of the names of the columns ends with one of them. -/
theorem Csv.isWritten_columns : Reading.IsWritten quoting (columns.map String.toList) := by
  refine ⟨by decide, fun cs hcs => ?_⟩
  obtain ⟨text, htext, rfl⟩ := List.mem_map.1 (List.mem_of_getLast? hcs)
  exact bareReturns_columns text htext

/-- The record of an entry has its ten fields, and ends with a number. -/
theorem WorkItem.isWritten_columns (i : WorkItem) : Csv.Reading.IsWritten quoting (i.columns.map String.toList) := by
  refine ⟨by simp [columns], ?_⟩
  simp [columns, Csv.bareReturns_eq_zero_of_isGraphic (isGraphic_intText _)]

/-- A work-list is read back if and only if no path, rule or subject has a carriage return that is written without
quotes. -/
theorem Worklist.parse_csv_iff (items : List WorkItem) (quoting : Csv.Quoting) :
    Csv.parse (Worklist.csv items quoting).toList =
        some ((Csv.columns :: items.map WorkItem.columns).map fun record => record.map String.toList) ↔
      ∀ i ∈ items, ∀ text ∈ [i.identity.path, i.rule, i.subject], Csv.bareReturns quoting text.toList = 0 := by
  have hrecords : (Worklist.csv items quoting).toList =
      ((Csv.columns :: items.map WorkItem.columns).map fun record => record.map String.toList).flatMap
        (Csv.record quoting) := by
    rw [Worklist.csv, String.toList_ofList, List.flatMap_map]
    rfl
  have hwritten : ∀ row ∈ (Csv.columns :: items.map WorkItem.columns).map fun record => record.map String.toList,
      Csv.Reading.IsWritten quoting row := by
    simp only [List.map_cons, List.map_map, List.forall_mem_cons, List.forall_mem_map]
    exact ⟨Csv.isWritten_columns, fun i _ => i.isWritten_columns⟩
  simp only [← WorkItem.bareReturns_columns_iff]
  rw [hrecords, Csv.parse_records_iff hwritten]
  simpa only [List.map_cons, List.forall_mem_cons, List.forall_mem_map] using and_iff_right Csv.bareReturns_columns

/-- The work-list as comma-separated values is read back as a record of the names of the columns and then one record
for each entry, with its ten columns. A writer that takes only a line feed for a line break does so if and only if every
path, rule and subject with a carriage return also has a comma, a double quote or a line feed. -/
theorem Worklist.csv_read_back (items : List WorkItem) :
    Csv.parse (Worklist.csv items .lineBreaks).toList =
        some ((Csv.columns :: items.map WorkItem.columns).map fun record => record.map String.toList) ∧
      (Csv.parse (Worklist.csv items .recordEnd).toList =
          some ((Csv.columns :: items.map WorkItem.columns).map fun record => record.map String.toList) ↔
        ∀ i ∈ items, ∀ text ∈ [i.identity.path, i.rule, i.subject],
          '\r' ∈ text.toList → ∃ c ∈ text.toList, c = ',' ∨ c = '"' ∨ c = '\n') := by
  refine ⟨(parse_csv_iff items _).2 fun _ _ text _ => Csv.bareReturns_lineBreaks text.toList, ?_⟩
  simp only [parse_csv_iff, Csv.bareReturns_recordEnd]

/-- Without its quotes, a path with a carriage return splits its record in two. -/
example :
    let item : WorkItem := {
      identity := { uid := 0, path := "a\rb.py" }
      changeCount := 1, score := .zero, rule := "R", subject := "A"
      changeRank := 0, disharmonyRank := 0, priority := 0, firstModified := 1, lastModified := 1, metrics := [] }
    Csv.parse (Worklist.csv [item] .recordEnd).toList =
      some ((Csv.columns :: [["0", "a"], ["b.py", "1", "0.0", "R", "A", "0", "0", "1", "1"]]).map
        fun record => record.map String.toList) := by
  decide +kernel

end Hotspots
