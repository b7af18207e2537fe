import Hotspots.Proofs.Git.CoveringWalk

/-!
# The files that a run scores

A run scores the regular files of the last tree that its engine supports and no pattern excludes. Each of them
is scored under the live identity at its path, with the content of its blob.
-/

namespace Hotspots

variable {f : ObjectFormat}

namespace Tree

/-- The content of the regular file at a path of a tree, if its blob is there. -/
def content? (t : Tree f) (store : ObjectStore f) (path : String) : Option Bytes :=
  match t.node? path with
  | some (.file _ blob) =>
    match store blob with
    | some (.blob, content) => some content
    | _ => none
  | _ => none

/-- A blob that is listed for a path is that of the regular file at the path. -/
theorem exists_of_get?_fileBlobs {t : Tree f} {path oid : String}
    (h : Record.get? path t.fileBlobs = some oid) :
    ∃ executable blob, t.node? path = some (.file executable blob) ∧ oid = blob.text := by
  obtain ⟨⟨p, node⟩, hmem, heq⟩ := List.mem_map.1 (Record.mem_of_get? h)
  obtain ⟨hentry, hfile⟩ := List.mem_filter.1 hmem
  injection heq with hp hid
  subst hp hid
  have hnode : t.node? p = some node := Record.get?_of_mem t.nodup hentry
  cases node with
  | file executable blob => exact ⟨executable, blob, hnode, rfl⟩
  | symlink blob => cases hfile
  | gitlink commit => cases hfile

end Tree

namespace Reader

variable {r : Reader} {store : ObjectStore f}

/-- Reading files of a tree in order gives each of them its content, which is there. -/
theorem ensures_readAll (hserved : store.IsServedBy r.repository) (t : Tree f) (revision : String)
    (contents : List (String × Bytes)) (paths : List String) :
    Run.Ensures Conversation.IsQuiet (r.readAll revision t.fileBlobs contents paths) fun result =>
      (∀ path ∈ paths, t.content? store path ≠ none) ∧ ∀ path, Record.get? path result =
        if path ∈ paths then t.content? store path else Record.get? path contents := by
  induction paths generalizing contents with
  | nil => exact Run.ensures_pure (by simp)
  | cons p rest ih =>
    rw [readAll]
    cases hblob : Record.get? p t.fileBlobs with
    | none => exact Run.ensures_fail
    | some oid =>
      obtain ⟨executable, blob, hnode, rfl⟩ := Tree.exists_of_get?_fileBlobs hblob
      apply (ensures_blobContent hserved blob).bind
      intro content hcontent
      have hp : t.content? store p = some content := by
        rw [Tree.content?, hnode]
        dsimp only
        rw [hcontent]
      refine (ih (Record.put p content contents)).imp ?_
      rintro result ⟨hall, hresult⟩
      refine ⟨?_, fun path => ?_⟩
      · rw [List.forall_mem_cons]
        exact ⟨by simp [hp], hall⟩
      · rw [hresult path, Record.get?_put]
        by_cases hrest : path ∈ rest
        · rw [if_pos hrest, if_pos (List.mem_cons_of_mem _ hrest)]
        · by_cases heq : path = p
          · rw [if_neg hrest, if_pos heq, if_pos (List.mem_cons.2 (.inl heq)), heq, hp]
          · rw [if_neg hrest, if_neg heq, if_neg (by simp [hrest, heq])]

end Reader

namespace Triage

/-! ## Files that are left out -/

/-- Whether no pattern of the settings stands for a path. -/
def Admits (t : Triage) (path : String) : Prop :=
  ∀ pattern, .text pattern ∈ (t.settings .excludePatterns).elements?.getD [] →
    Glob.matchesText pattern path = false

/-- A path of a tree that is scored: a regular file that the engine supports and no pattern excludes. -/
structure Selects (t : Triage) (tree : Tree f) (path : String) : Prop where
  isFile : path ∈ tree.files
  supports : t.engine.supports path = true
  admits : t.Admits path

/-- A path that is scored: it is tracked, the engine supports it and no pattern excludes it. -/
def IsScorable (t : Triage) (tracked : List (String × String)) (path : String) : Prop :=
  path ∈ tracked.map Prod.fst ∧ t.engine.supports path = true ∧ t.Admits path

/-- Patterns that are all compared exclude a path if one of them stands for it. -/
theorem eq_false_iff_of_anyMatches {path : String} {patterns : List Value} {b : Bool}
    (h : anyMatches path patterns = .ok b) :
    b = false ↔ ∀ pattern, .text pattern ∈ patterns → Glob.matchesText pattern path = false := by
  induction patterns with
  | nil =>
    injection h with h
    simp [← h]
  | cons v rest ih =>
    cases v with
    | text pattern =>
      rw [anyMatches] at h
      cases hmatches : Glob.matchesText pattern path with
      | true =>
        rw [hmatches, if_pos rfl] at h
        injection h with h
        rw [← h]
        simp only [Bool.true_eq_false, false_iff]
        intro hall
        rw [hall pattern List.mem_cons_self] at hmatches
        cases hmatches
      | false =>
        rw [hmatches, if_neg (by simp)] at h
        rw [ih h]
        simp only [List.mem_cons, Value.text.injEq, forall_eq_or_imp, hmatches, true_and]
    | _ => cases h

/-- A path is excluded unless the settings admit it. -/
theorem eq_false_iff_of_isExcluded {t : Triage} {path : String} {b : Bool}
    (h : isExcluded (t.settings .excludePatterns) path = .ok b) : b = false ↔ t.Admits path := by
  unfold isExcluded at h
  unfold Admits
  cases hitems : (t.settings .excludePatterns).elements? with
  | none =>
    rw [hitems] at h
    cases h
  | some items =>
    rw [hitems] at h
    exact eq_false_iff_of_anyMatches h

/-- A path is left out unless the engine supports it and the settings admit it. -/
theorem eq_false_iff_of_isLeftOut {t : Triage} {path : String} {b : Bool} (h : t.isLeftOut path = .ok b) :
    b = false ↔ t.engine.supports path = true ∧ t.Admits path := by
  obtain ⟨supported, hanswer, h⟩ := bind_eq_ok.1 h
  have hsupported : supported = t.engine.supports path := by
    unfold Engine.answer at hanswer
    split at hanswer
    · cases hanswer
    · injection hanswer with hanswer
      exact hanswer.symm
  cases supported with
  | true =>
    rw [if_pos rfl] at h
    cases hexcluded : isExcluded (t.settings .excludePatterns) path with
    | error e =>
      rw [hexcluded] at h
      cases h
    | ok excluded =>
      rw [hexcluded] at h
      injection h with h
      simp [← h, eq_false_iff_of_isExcluded hexcluded, ← hsupported]
  | false =>
    rw [if_neg (by simp)] at h
    injection h with h
    simp [← h, ← hsupported]

/-- The paths that are scored are among those that were given, in their order. -/
theorem sublist_of_scorablePaths {t : Triage} {tracked : List (String × String)} {paths result : List String}
    (h : t.scorablePaths tracked paths = .ok result) : result.Sublist paths := by
  induction paths generalizing result with
  | nil =>
    injection h with h
    rw [← h]
  | cons path rest ih =>
    rw [scorablePaths] at h
    split at h
    · obtain ⟨leftOut, -, h⟩ := bind_eq_ok.1 h
      obtain ⟨more, hmore, h⟩ := bind_eq_ok.1 h
      injection h with h
      cases leftOut with
      | true =>
        rw [← h, if_pos rfl]
        exact (ih hmore).cons path
      | false =>
        rw [← h, if_neg (by simp)]
        exact (ih hmore).cons_cons path
    · exact (ih h).cons path

/-- A head without a property does not count among the elements with it. -/
theorem mem_cons_and_iff {α : Type} {p : α → Prop} {a x : α} {rest : List α} (h : ¬p a) :
    x ∈ a :: rest ∧ p x ↔ x ∈ rest ∧ p x := by
  rw [List.mem_cons]
  constructor
  · rintro ⟨rfl | hmem, hx⟩
    · exact absurd hx h
    · exact ⟨hmem, hx⟩
  · rintro ⟨hmem, hx⟩
    exact ⟨.inr hmem, hx⟩

/-- The paths that are scored are those that are tracked, supported and not excluded. -/
theorem mem_iff_of_scorablePaths {t : Triage} {tracked : List (String × String)} {paths result : List String}
    (h : t.scorablePaths tracked paths = .ok result) (path : String) :
    path ∈ result ↔ path ∈ paths ∧ t.IsScorable tracked path := by
  induction paths generalizing result with
  | nil =>
    injection h with h
    simp [← h]
  | cons p rest ih =>
    rw [scorablePaths] at h
    split at h
    · next htracked =>
      rw [Record.has_eq_true_iff] at htracked
      obtain ⟨leftOut, hleftOut, h⟩ := bind_eq_ok.1 h
      obtain ⟨more, hmore, h⟩ := bind_eq_ok.1 h
      have hkept := eq_false_iff_of_isLeftOut hleftOut
      injection h with h
      rw [← h]
      cases leftOut with
      | true =>
        rw [if_pos rfl, ih hmore]
        refine (mem_cons_and_iff fun hp => ?_).symm
        exact absurd (hkept.2 hp.2) (by simp)
      | false =>
        rw [if_neg (by simp), List.mem_cons, ih hmore, List.mem_cons]
        constructor
        · rintro (rfl | ⟨hmem, hrest⟩)
          · exact ⟨.inl rfl, htracked, hkept.1 rfl⟩
          · exact ⟨.inr hmem, hrest⟩
        · rintro ⟨rfl | hmem, hrest⟩
          · exact .inl rfl
          · exact .inr ⟨hmem, hrest⟩
    · next huntracked =>
      rw [Record.has_eq_true_iff] at huntracked
      rw [ih h]
      exact (mem_cons_and_iff fun hp => huntracked hp.1).symm

/-! ## The snapshot -/

/-- The files of a snapshot are those that are selected, each once, under a live identity at its path and with
its content in the tree. -/
structure IsSnapshot (t : Triage) (tree : Tree f) (store : ObjectStore f) (churn : ChurnHistory)
    (snapshot : Scorer.Snapshot) : Prop where
  nodup : (snapshot.map (·.1.path)).Nodup
  mem : ∀ entry ∈ snapshot, t.Selects tree entry.1.path ∧ tree.content? store entry.1.path = some entry.2 ∧
    ∃ record ∈ churn.records, record.isLive = true ∧ record.identity = entry.1
  exists_of_selects : ∀ path, t.Selects tree path → ∃ entry ∈ snapshot, entry.1.path = path

variable {walk : Walk} {tree : Tree f}

/-- The live paths of a walk that covers a tree, each with its identity. -/
theorem liveByPath_of_covers (h : walk.Covers tree) : walk.history.liveByPath =
    (walk.history.records.filter ChurnRecord.isLive).map fun r => (r.identity.path, r.identity) := by
  have hnodup : walk.history.livePaths.Nodup := h.tracks.livePaths.1
  rw [ChurnHistory.liveByPath, Record.putAll_nil]
  rw [List.map_map]
  exact hnodup

/-- The paths with live identities of a walk that covers a tree. -/
theorem map_fst_liveByPath (h : walk.Covers tree) :
    walk.history.liveByPath.map Prod.fst = walk.history.livePaths := by
  rw [liveByPath_of_covers h, List.map_map]
  rfl

/-- The identity at a path is that of a live record. -/
theorem exists_of_get?_liveByPath (h : walk.Covers tree) {path : String} {identity : FileIdentity}
    (hpath : Record.get? path walk.history.liveByPath = some identity) :
    identity.path = path ∧
      ∃ record ∈ walk.history.records, record.isLive = true ∧ record.identity = identity := by
  have hmem := Record.mem_of_get? hpath
  rw [liveByPath_of_covers h] at hmem
  obtain ⟨record, hrecord, heq⟩ := List.mem_map.1 hmem
  obtain ⟨hrecord, hlive⟩ := List.mem_filter.1 hrecord
  injection heq with hp hidentity
  exact ⟨by rw [← hp, ← hidentity], record, hrecord, hlive, hidentity⟩

/-- The live paths in order are the open paths of the walk. -/
theorem mem_sorted_liveByPath (h : walk.Covers tree) (path : String) :
    path ∈ Reader.sorted (walk.history.liveByPath.map Prod.fst) ↔ walk.isOpen path = true := by
  rw [Reader.sorted, (List.mergeSort_perm _ _).mem_iff, map_fst_liveByPath h]
  exact h.tracks.livePaths.2 path

/-- The live paths that are scored are those that the analysis selects from the tree. -/
theorem mem_iff_selects {t : Triage} (h : walk.Covers tree) {paths : List String}
    (hpaths : t.scorablePaths tree.fileBlobs (Reader.sorted (walk.history.liveByPath.map Prod.fst)) = .ok paths)
    (path : String) : path ∈ paths ↔ t.Selects tree path := by
  rw [mem_iff_of_scorablePaths hpaths, mem_sorted_liveByPath h, IsScorable, Tree.map_fst_fileBlobs]
  constructor
  · rintro ⟨-, hfile, hsupports, hadmits⟩
    exact ⟨hfile, hsupports, hadmits⟩
  · intro hselects
    exact ⟨h.isOpen path hselects.isFile, hselects.isFile, hselects.supports, hselects.admits⟩

/-- Identities at the paths of a walk that covers a tree, with their contents, are a snapshot. -/
theorem isSnapshot_withContents {t : Triage} {store : ObjectStore f} (h : walk.Covers tree)
    {paths : List String} {contents : List (String × Bytes)}
    (hpaths : t.scorablePaths tree.fileBlobs (Reader.sorted (walk.history.liveByPath.map Prod.fst)) = .ok paths)
    (hthere : ∀ path ∈ paths, tree.content? store path ≠ none)
    (hcontents : ∀ path ∈ paths, Record.get? path contents = tree.content? store path) :
    t.IsSnapshot tree store walk.history (withContents walk.history.liveByPath contents paths) := by
  have hselects := mem_iff_selects h hpaths
  have hentry : ∀ path ∈ paths, ∃ entry : FileIdentity × Bytes, entry.1.path = path ∧
      tree.content? store path = some entry.2 ∧
      (∃ record ∈ walk.history.records, record.isLive = true ∧ record.identity = entry.1) ∧
      Record.get? path walk.history.liveByPath = some entry.1 ∧ Record.get? path contents = some entry.2 := by
    intro path hpath
    have hlive : path ∈ walk.history.liveByPath.map Prod.fst := by
      rw [map_fst_liveByPath h]
      exact (h.tracks.livePaths.2 path).2 (h.isOpen path ((hselects path).1 hpath).isFile)
    obtain ⟨identity, hidentity⟩ := Option.ne_none_iff_exists'.1 fun hnone =>
      Record.get?_eq_none_iff.1 hnone hlive
    obtain ⟨content, hcontent⟩ := Option.ne_none_iff_exists'.1 (hthere path hpath)
    obtain ⟨hp, hrecord⟩ := exists_of_get?_liveByPath h hidentity
    exact ⟨(identity, content), hp, hcontent, hrecord, hidentity, (hcontents path hpath).trans hcontent⟩
  refine ⟨?_, fun entry hmem => ?_, fun path hpath => ?_⟩
  · have hnodup : (Reader.sorted (walk.history.liveByPath.map Prod.fst)).Nodup := by
      rw [Reader.sorted, (List.mergeSort_perm _ _).nodup_iff, map_fst_liveByPath h]
      exact h.tracks.livePaths.1
    have hall : (withContents walk.history.liveByPath contents paths).map (·.1.path) = paths := by
      rw [withContents, List.map_filterMap]
      refine (List.filterMap_congr fun path hpath => ?_).trans List.filterMap_some
      obtain ⟨entry, hp, -, -, hidentity, hcontent⟩ := hentry path hpath
      simp [hidentity, hcontent, hp]
    rw [hall]
    exact (sublist_of_scorablePaths hpaths).nodup hnodup
  · obtain ⟨path, hpath, heq⟩ := List.mem_filterMap.1 hmem
    obtain ⟨entry', hp, hthere', hrecord, hidentity, hcontent⟩ := hentry path hpath
    simp only [hidentity, hcontent, Option.some.injEq] at heq
    subst heq
    rw [hp]
    exact ⟨(hselects path).1 hpath, hthere', hrecord⟩
  · have hin := (hselects path).2 hpath
    obtain ⟨entry, hp, -, -, hidentity, hcontent⟩ := hentry path hin
    exact ⟨entry, List.mem_filterMap.2 ⟨path, hin, by simp [hidentity, hcontent]⟩, hp⟩

/-- What is read for scoring is a snapshot. -/
theorem ensures_readSnapshot (t : Triage) {r : Reader} {name : String} {revisions : List (Revision f)}
    {store : ObjectStore f} {last : Revision f} (h : r.repository.Shows name revisions store)
    (hlast : revisions.getLast? = some last) (hhead : walk.history.head = some last.sha)
    (hcovers : walk.Covers last.tree) :
    Run.Ensures Conversation.IsQuiet (t.readSnapshot r walk.history) fun snapshot =>
      t.IsSnapshot last.tree store walk.history snapshot := by
  unfold readSnapshot
  dsimp only
  rw [hhead, Option.getD_some]
  apply (Reader.ensures_of_gives (Reader.gives_treeEntries h False.elim hlast)).bind
  intro tracked htracked
  rw [htracked]
  apply (Run.ensures_ofExcept _).bind
  intro paths hpaths
  have hsnapshot : Run.Ensures Conversation.IsQuiet (r.snapshot last.sha (some paths)) fun contents =>
      (∀ path ∈ paths, last.tree.content? store path ≠ none) ∧
        ∀ path ∈ paths, Record.get? path contents = last.tree.content? store path := by
    apply (Reader.ensures_of_gives (Reader.gives_treeEntries h False.elim hlast)).bind
    intro entries hentries
    rw [hentries]
    refine (Reader.ensures_readAll h.objects last.tree last.sha [] paths).imp fun contents hcontents => ?_
    exact ⟨hcontents.1, fun path hpath => by rw [hcontents.2 path, if_pos hpath]⟩
  apply hsnapshot.bind
  rintro contents ⟨hthere, hcontents⟩
  refine (Run.ensures_log Reader.isSilent_isQuiet _ _).bind fun _ _ => Run.ensures_pure ?_
  exact isSnapshot_withContents hcovers hpaths hthere hcontents

end Triage

end Hotspots
