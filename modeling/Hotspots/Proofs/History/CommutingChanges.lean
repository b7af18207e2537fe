import Hotspots.Proofs.History.MirroredWalks
import Mathlib.Data.Finset.Card
import Mathlib.Logic.Equiv.Basic

/-!
# The changes of a commit commute

Two changes that mention no path in common are about different records, so that either order edits the records in the
same way and leaves the same paths open (`Walk.Sound.records_apply_apply`, `Walk.at?_apply_apply`). If both open a
record, the new records have exchanged their places, and this is all that is left of the order
(`Walk.Sound.mirrors_apply_apply`). Walks that are equal up to places stay so, whatever they are fed, and exchanges make
up every permutation (`Walk.changes_commute`).
-/

namespace Hotspots

/-- No path is mentioned by both changes. -/
def FileChange.Apart (a b : FileChange) : Prop := ∀ path ∈ a.mentioned, path ∉ b.mentioned

/-- Being apart is symmetric. -/
theorem FileChange.Apart.symm {a b : FileChange} (h : a.Apart b) : b.Apart a :=
  fun path hb ha => h path ha hb

/-- A record that has a number already. -/
theorem ChurnRecord.numbered_self {r : ChurnRecord} {uid : Int} (h : r.identity.uid = uid) : r.numbered uid = r := by
  subst h
  rfl

namespace Walk

variable {w v u : Walk} {a b c : FileChange} {time : Int} {place : Nat → Nat}

/-! ## Walks that are equal up to places -/

/-- The walks have the same records at different places, under different numbers. -/
abbrev Renumbered (place : Nat → Nat) (w v : Walk) : Prop := Mirrors (fun _ => True) place w v

/-- A walk is equal to itself. -/
theorem Sound.renumbered_self (hw : w.Sound) : Renumbered id w w where
  sound := hw
  sound_full := hw
  injective := Function.injective_id
  next _ := rfl
  record i r hr := ⟨trivial, by rw [id, ChurnRecord.numbered_self (hw.uid_eq i r hr), hr]⟩
  covered j r hr _ := ⟨j, (List.getElem?_eq_some_iff.1 hr).1, rfl⟩
  at?_eq path _ := (Option.map_id_apply).symm
  head_eq := rfl
  commitCount_eq := rfl

namespace Mirrors

/-- Equality up to places is transitive. -/
theorem trans {after : Nat → Nat} (h : Renumbered place w v) (h' : Renumbered after v u) :
    Renumbered (after ∘ place) w u where
  sound := h.sound
  sound_full := h'.sound_full
  injective := h'.injective.comp h.injective
  next i := by rw [Function.comp_apply, h.next, h'.next]
  record i r hr := ⟨trivial, (h'.record _ _ (h.record i r hr).2).2⟩
  covered k r hr _ := by
    obtain ⟨j, hj, rfl⟩ := h'.covered k r hr trivial
    obtain ⟨i, hi, rfl⟩ := h.covered j _ (List.getElem?_eq_getElem hj) trivial
    exact ⟨i, hi, rfl⟩
  at?_eq path _ := by rw [h'.at?_eq path trivial, h.at?_eq path trivial, Option.map_map]
  head_eq := h'.head_eq.trans h.head_eq
  commitCount_eq := h'.commitCount_eq.trans h.commitCount_eq

/-- Walks that are equal up to places have as many records. -/
theorem length_eq (h : Renumbered place w v) : v.history.records.length = w.history.records.length := by
  have himage : (Finset.range w.history.records.length).image place = Finset.range v.history.records.length := by
    ext j
    rw [Finset.mem_image, Finset.mem_range]
    constructor
    · rintro ⟨i, hi, rfl⟩
      have hr := (h.record i _ (List.getElem?_eq_getElem (Finset.mem_range.1 hi))).2
      exact (List.getElem?_eq_some_iff.1 hr).1
    · intro hj
      obtain ⟨i, hi, hij⟩ := h.covered j _ (List.getElem?_eq_getElem hj) trivial
      exact ⟨i, Finset.mem_range.2 hi, hij⟩
  have hcard := Finset.card_image_of_injective (Finset.range w.history.records.length) h.injective
  rwa [himage, Finset.card_range, Finset.card_range] at hcard

/-- Behind the records no place is exchanged. -/
theorem place_of_length_le (h : Renumbered place w v) {i : Nat} (hi : w.history.records.length ≤ i) : place i = i := by
  have hnext := h.next (i - w.history.records.length)
  rwa [h.length_eq, Nat.add_sub_cancel' hi] at hnext

/-- Each record is found at its place in the other walk. -/
theorem getElem?_records (h : Renumbered place w v) (i : Nat) :
    v.history.records[place i]? = w.history.records[i]?.map (·.numbered (place i)) := by
  cases hr : w.history.records[i]? with
  | some r => exact (h.record i r hr).2
  | none =>
    have hlen := List.getElem?_eq_none_iff.1 hr
    rw [h.place_of_length_le hlen]
    exact List.getElem?_eq_none_iff.2 (h.length_eq.trans_le hlen)

/-- The same changes keep walks equal up to places. -/
theorem foldl_apply (h : Renumbered place w v) (time : Int) (changes : List FileChange) :
    Renumbered place (changes.foldl (Walk.apply time) w) (changes.foldl (Walk.apply time) v) := by
  induction changes generalizing w v with
  | nil => exact h
  | cons c rest ih => exact ih (h.apply (fun _ _ => trivial) time)

/-- The same paths that are looked for keep walks equal up to places. -/
theorem foldl_openMissing (h : Renumbered place w v) (time : Int) (paths : List String) :
    Renumbered place (paths.foldl (Walk.openMissing time) w) (paths.foldl (Walk.openMissing time) v) := by
  induction paths generalizing w v with
  | nil => exact h
  | cons path rest ih => exact ih (h.openMissing trivial time)

/-- The same operations keep walks equal up to places. -/
theorem foldl_perform (h : Renumbered place w v) (operations : List Operation) :
    Renumbered place (operations.foldl perform w) (operations.foldl perform v) := by
  induction operations generalizing w v with
  | nil => exact h
  | cons operation rest ih =>
    cases operation with
    | feed c => exact ih ((h.foldl_apply c.timestamp c.changes).committed c.sha)
    | backfill paths time => exact ih (h.foldl_openMissing time _)

end Mirrors

/-! ## Two changes -/

/-- After a change that is apart, the same is open at the paths of the other one. -/
theorem at?_apply_of_apart (h : a.Apart b) (w : Walk) (time : Int) :
    ∀ path ∈ b.mentioned, (w.apply time a).at? path = (w.at? path).map id := by
  intro path hb
  rw [Option.map_id_apply]
  exact at?_apply_of_not_mentioned (fun ha => h path ha hb) w time

/-- After a change that is apart, the other one is about the same record. -/
theorem met?_apply_of_apart (h : a.Apart b) (w : Walk) (time : Int) : (w.apply time a).met? b = w.met? b :=
  (met?_eq_map (at?_apply_of_apart h w time)).trans Option.map_id_apply

/-- A change that is apart does not open or keep closed what the other one opens. -/
theorem opens_apply_of_apart (h : a.Apart b) (w : Walk) (time : Int) : (w.apply time a).opens b = w.opens b :=
  opens_eq_of_map (at?_apply_of_apart h w time)

/-- After a change that is apart, the other one edits the same records in the same way. -/
theorem edited_apply_of_apart (h : a.Apart b) (w : Walk) (time : Int) :
    (w.apply time a).edited time b = w.edited time b := by
  funext place r
  rw [edited, edited, met?_apply_of_apart h, displaced?_eq_map (at?_apply_of_apart h w time), Option.map_id_apply]

/-- Changes that are apart are about different records. -/
theorem Sound.edited_comm (hw : w.Sound) (h : a.Apart b) (time : Int) (i : Nat) (r : ChurnRecord) :
    w.edited time b i (w.edited time a i r) = w.edited time a i (w.edited time b i r) := by
  by_cases ha : ∃ path ∈ a.mentioned, w.at? path = some i
  · obtain ⟨path, hpath, hat⟩ := ha
    have hb : ∀ other ∈ b.mentioned, w.at? other ≠ some i := fun other hother hat' =>
      h path hpath (hw.at?_injective hat hat' ▸ hother)
    rw [edited_eq_self hb, edited_eq_self hb]
  · have ha' : ∀ path ∈ a.mentioned, w.at? path ≠ some i := by simpa using ha
    rw [edited_eq_self ha', edited_eq_self ha']

/-- A change edits no record that is not there. -/
theorem Sound.edited_of_length_le (hw : w.Sound) (time : Int) (c : FileChange) {i : Nat}
    (hi : w.history.records.length ≤ i) (r : ChurnRecord) : w.edited time c i r = r :=
  edited_eq_self (fun _ _ hat => absurd (hw.lt_of_at? hat) (Nat.not_lt.2 hi)) r

/-- Two changes that are apart add what each of them opens. -/
theorem Sound.length_records_apply_apply (hw : w.Sound) (h : a.Apart b) (time : Int) :
    ((w.apply time a).apply time b).history.records.length =
      w.history.records.length + (w.opens a).toNat + (w.opens b).toNat := by
  rw [(hw.apply time a).length_records_apply, hw.length_records_apply, opens_apply_of_apart h]

/-- The records after two changes that are apart are those that both edited and those that one of them opened, the ones
of the first change first. -/
theorem Sound.getElem?_records_apply_apply (hw : w.Sound) (h : a.Apart b) (time : Int) {i : Nat} {r : ChurnRecord} :
    ((w.apply time a).apply time b).history.records[i]? = some r ↔
      (∃ s, w.history.records[i]? = some s ∧ w.edited time b i (w.edited time a i s) = r) ∨
        (w.opens a = true ∧ i = w.history.records.length ∧ .opened i a.path time = r) ∨
        (w.opens b = true ∧ i = w.history.records.length + (w.opens a).toNat ∧ .opened i b.path time = r) := by
  rw [(hw.apply time a).getElem?_records_apply, opens_apply_of_apart h, hw.length_records_apply,
    edited_apply_of_apart h, ← or_assoc]
  refine or_congr_left ?_
  simp only [hw.getElem?_records_apply]
  constructor
  · rintro ⟨_, ⟨s, hs, rfl⟩ | ⟨hopens, hi, rfl⟩, rfl⟩
    · exact .inl ⟨s, hs, rfl⟩
    · exact .inr ⟨hopens, hi, (hw.edited_of_length_le time b hi.ge _).symm⟩
  · rintro (⟨s, hs, rfl⟩ | ⟨hopens, hi, rfl⟩)
    · exact ⟨_, .inl ⟨s, hs, rfl⟩, rfl⟩
    · exact ⟨_, .inr ⟨hopens, hi, rfl⟩, hw.edited_of_length_le time b hi.ge _⟩

/-- What is open after two changes that are apart. -/
theorem Sound.at?_apply_apply (hw : w.Sound) (h : a.Apart b) (time : Int) (path : String) :
    ((w.apply time a).apply time b).at? path =
      if b.Fills path then some ((w.met? b).getD (w.history.records.length + (w.opens a).toNat))
      else if b.Clears path then none
      else if a.Fills path then some ((w.met? a).getD w.history.records.length)
      else if a.Clears path then none else w.at? path := by
  rw [Walk.at?_apply, met?_apply_of_apart h, hw.length_records_apply, Walk.at?_apply]

/-- The places that two new records exchange if they are opened in the other order. -/
def exchange (w : Walk) (a b : FileChange) : Equiv.Perm Nat :=
  if w.opens a ∧ w.opens b then Equiv.swap w.history.records.length (w.history.records.length + 1)
  else Equiv.refl Nat

/-- The records that were there keep their places. -/
theorem exchange_of_lt (w : Walk) (a b : FileChange) {i : Nat} (hi : i < w.history.records.length) :
    w.exchange a b i = i := by
  unfold exchange
  split
  · exact Equiv.swap_apply_of_ne_of_ne (by omega) (by omega)
  · rfl

/-- Places behind the new records are not exchanged. -/
theorem exchange_of_ge (w : Walk) (a b : FileChange) {i : Nat}
    (hi : w.history.records.length + (w.opens a).toNat + (w.opens b).toNat ≤ i) : w.exchange a b i = i := by
  unfold exchange
  split
  · next hboth =>
    rw [hboth.1, hboth.2] at hi
    exact Equiv.swap_apply_of_ne_of_ne (by simp at hi; omega) (by simp at hi; omega)
  · rfl

/-- A change that fills a path opens a record if it finds none. -/
theorem opens_of_fills {path : String} (h : c.Fills path) : w.opens c = (w.met? c).isNone := by
  rw [opens, bne_iff_ne.2 h.1, Bool.true_and]

/-- The record that the first change opens is opened behind the one of the other change. -/
theorem exchange_first (ha : w.opens a = true) :
    w.exchange a b w.history.records.length = w.history.records.length + (w.opens b).toNat := by
  unfold exchange
  cases hb : w.opens b <;> simp [ha]

/-- The record that the second change opens is opened before the one of the other change. -/
theorem exchange_second (hb : w.opens b = true) :
    w.exchange a b (w.history.records.length + (w.opens a).toNat) = w.history.records.length := by
  unfold exchange
  cases ha : w.opens a <;> simp [hb]

/-- A path that the first change fills is open at the exchanged place. -/
theorem Sound.exchange_filled_first (hw : w.Sound) {path : String} (h : a.Fills path) (b : FileChange) :
    w.exchange a b ((w.met? a).getD w.history.records.length) =
      (w.met? a).getD (w.history.records.length + (w.opens b).toNat) := by
  cases hmet : w.met? a with
  | some i => exact w.exchange_of_lt a b (hw.lt_of_met? hmet)
  | none => exact exchange_first (by rw [opens_of_fills h, hmet]; rfl)

/-- A path that the second change fills is open at the exchanged place. -/
theorem Sound.exchange_filled_second (hw : w.Sound) {path : String} (h : b.Fills path) (a : FileChange) :
    w.exchange a b ((w.met? b).getD (w.history.records.length + (w.opens a).toNat)) =
      (w.met? b).getD w.history.records.length := by
  cases hmet : w.met? b with
  | some i => exact w.exchange_of_lt a b (hw.lt_of_met? hmet)
  | none => exact exchange_second (by rw [opens_of_fills h, hmet]; rfl)

/-- Two changes that are apart lead to the same walk in either order, but for the exchanged places. -/
theorem Sound.renumbered_apply_apply (hw : w.Sound) (h : a.Apart b) (time : Int) :
    Renumbered (w.exchange a b) ((w.apply time a).apply time b) ((w.apply time b).apply time a) where
  sound := (hw.apply time a).apply time b
  sound_full := (hw.apply time b).apply time a
  injective := (w.exchange a b).injective
  next i := by
    rw [hw.length_records_apply_apply h, hw.length_records_apply_apply h.symm,
      w.exchange_of_ge a b (Nat.le_add_right _ _)]
    omega
  record i r hr := by
    have huid := ((hw.apply time a).apply time b).uid_eq i r hr
    refine ⟨trivial, (hw.getElem?_records_apply_apply h.symm time).2 ?_⟩
    obtain ⟨s, hs, rfl⟩ | ⟨hopens, rfl, rfl⟩ | ⟨hopens, rfl, rfl⟩ := (hw.getElem?_records_apply_apply h time).1 hr
    · rw [w.exchange_of_lt a b (List.getElem?_eq_some_iff.1 hs).1, ChurnRecord.numbered_self huid]
      exact .inl ⟨s, hs, (hw.edited_comm h time i s).symm⟩
    · exact .inr (.inr ⟨hopens, exchange_first hopens, rfl⟩)
    · exact .inr (.inl ⟨hopens, exchange_second hopens, rfl⟩)
  covered j r hr _ := by
    rw [hw.length_records_apply_apply h]
    obtain ⟨s, hs, -⟩ | ⟨hopens, rfl, -⟩ | ⟨hopens, rfl, -⟩ := (hw.getElem?_records_apply_apply h.symm time).1 hr
    · have hlt := (List.getElem?_eq_some_iff.1 hs).1
      exact ⟨j, by omega, w.exchange_of_lt a b hlt⟩
    · exact ⟨_, by rw [hopens]; exact Nat.lt_succ_self _, exchange_second hopens⟩
    · exact ⟨_, by rw [hopens]; exact Nat.lt_of_lt_of_le (Nat.lt_succ_self _) (Nat.le_add_right _ _),
        exchange_first hopens⟩
  at?_eq path _ := by
    have hkept : w.at? path = (w.at? path).map (w.exchange a b) := by
      cases hat : w.at? path with
      | none => rfl
      | some i => exact congrArg some (w.exchange_of_lt a b (hw.lt_of_at? hat)).symm
    rw [hw.at?_apply_apply h.symm, hw.at?_apply_apply h]
    by_cases ha : path ∈ a.mentioned
    · have hfills : ¬ b.Fills path := fun hfills => h path ha hfills.mem_mentioned
      have hclears : ¬ b.Clears path := fun hclears => h path ha hclears.mem_mentioned
      simp only [hfills, hclears, if_false]
      split
      · next hfilled => exact congrArg some (hw.exchange_filled_first hfilled b).symm
      · split
        · rfl
        · exact hkept
    · have hfills : ¬ a.Fills path := fun hfills => ha hfills.mem_mentioned
      have hclears : ¬ a.Clears path := fun hclears => ha hclears.mem_mentioned
      simp only [hfills, hclears, if_false]
      split
      · next hfilled => exact congrArg some (hw.exchange_filled_second hfilled a).symm
      · split
        · rfl
        · exact hkept
  head_eq := by simp only [progress_apply]
  commitCount_eq := by simp only [progress_apply]

/-! ## The changes of a commit -/

/-- Changes that are apart lead to the same walk in any order, but for the places of the records that they open. -/
theorem Sound.renumbered_foldl_apply (hw : w.Sound) {changes others : List FileChange} (hperm : changes.Perm others)
    (hapart : changes.Pairwise FileChange.Apart) (time : Int) :
    ∃ place : Equiv.Perm Nat, (∀ i < w.history.records.length, place i = i) ∧
      Renumbered place (changes.foldl (Walk.apply time) w) (others.foldl (Walk.apply time) w) := by
  induction hperm generalizing w with
  | nil => exact ⟨Equiv.refl Nat, fun _ _ => rfl, hw.renumbered_self⟩
  | cons c _ ih =>
    obtain ⟨place, hfixed, h⟩ := ih (hw.apply time c) (List.pairwise_cons.1 hapart).2
    refine ⟨place, fun i hi => hfixed i (hi.trans_le ?_), h⟩
    rw [hw.length_records_apply]
    exact Nat.le_add_right _ _
  | swap a b rest =>
    have hab : b.Apart a := (List.pairwise_cons.1 hapart).1 a List.mem_cons_self
    exact ⟨w.exchange b a, fun i hi => w.exchange_of_lt b a hi,
      (hw.renumbered_apply_apply hab time).foldl_apply time rest⟩
  | trans hfirst _ ih ih' =>
    obtain ⟨place, hfixed, h⟩ := ih hw hapart
    obtain ⟨place', hfixed', h'⟩ := ih' hw (hapart.perm hfirst FileChange.Apart.symm)
    exact ⟨place.trans place', fun i hi => by rw [Equiv.trans_apply, hfixed i hi, hfixed' i hi], h.trans h'⟩

/-- The changes of one commit commute. If no path is mentioned by two of them, feeding them in any order leads to
walks that differ in the numbers of the records that this commit opens and in nothing else: each record has the same
fields, the same paths are open at the same records, and the head and the number of commits are the same. This stays
so whatever is fed or filled up afterwards. -/
theorem changes_commute (earlier : List Operation) (c : Commit) {changes : List FileChange}
    (hperm : c.changes.Perm changes)
    (hapart : c.changes.Pairwise fun a b => ∀ path ∈ a.mentioned, path ∉ b.mentioned) :
    let opened := (run earlier).history.records.length
    let known := (run (earlier ++ [.feed c])).history.records.length
    ∃ place : Equiv.Perm Nat, (∀ i, i < opened ∨ known ≤ i → place i = i) ∧ ∀ later : List Operation,
      let one := run (earlier ++ .feed c :: later)
      let other := run (earlier ++ .feed { c with changes := changes } :: later)
      (∀ i, other.history.records[place i]? = one.history.records[i]?.map (·.numbered (place i))) ∧
        (∀ path, other.at? path = (one.at? path).map place) ∧
        other.history.head = one.history.head ∧ other.history.commitCount = one.history.commitCount := by
  have hsound : (run earlier).Sound := sound_empty.foldl_perform earlier
  obtain ⟨place, hfixed, h⟩ := hsound.renumbered_foldl_apply hperm hapart c.timestamp
  have hfed : Renumbered place ((run earlier).feed c) ((run earlier).feed { c with changes := changes }) :=
    h.committed c.sha
  have hrun (c : Commit) (later : List Operation) :
      run (earlier ++ .feed c :: later) = later.foldl perform ((run earlier).feed c) := by
    rw [run, List.foldl_append]
    rfl
  refine ⟨place, fun i hi => ?_, fun later => ?_⟩
  · refine hi.elim (hfixed i) fun hknown => hfed.place_of_length_le ?_
    rwa [hrun c []] at hknown
  · have hlater := hfed.foldl_perform later
    dsimp only
    rw [hrun, hrun]
    exact ⟨hlater.getElem?_records, fun path => hlater.at?_eq path trivial, hlater.head_eq, hlater.commitCount_eq⟩

/-- One change moves a file away, one opens a new file and one adds another; in the other order the two new files have
exchanged their places, and the moved one has kept its own. -/
theorem changes_commute_exchanged :
    let earlier : List Operation :=
      [.feed { sha := "1", timestamp := 1, changes := [{ kind := .added, path := "a" }] }]
    let c : Commit :=
      { sha := "2", timestamp := 2,
        changes := [{ kind := .added, path := "c" }, { kind := .renamed, path := "b", oldPath := some "a" },
          { kind := .modified, path := "d" }] }
    let numbers (w : Walk) := w.history.records.map fun r => (r.identity.uid, r.identity.path)
    let one := run (earlier ++ [.feed c])
    let other := run (earlier ++ [.feed { c with changes := c.changes.reverse }])
    numbers one = [(0, "b"), (1, "c"), (2, "d")] ∧ numbers other = [(0, "b"), (1, "d"), (2, "c")] ∧
      ∃ place : Equiv.Perm Nat, ∀ i,
        other.history.records[place i]? = one.history.records[i]?.map (·.numbered (place i)) := by
  intro earlier c numbers one other
  have hapart : c.changes.Pairwise fun a b => ∀ path ∈ a.mentioned, path ∉ b.mentioned := by decide +kernel
  obtain ⟨place, -, h⟩ := changes_commute earlier c c.changes.reverse_perm.symm hapart
  exact ⟨by decide +kernel, by decide +kernel, place, (h []).1⟩

end Walk

end Hotspots
