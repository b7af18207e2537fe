import Hotspots.Proofs.Git.Opening
import Hotspots.Proofs.Ranking.Entries
import Hotspots.Proofs.Scan.Findings
import Hotspots.Proofs.Triage.Snapshot

/-!
# The files that are ranked

The work-list of a revision has exactly the regular files of its tree that are supported, not excluded and
have a finding, each of them once and with its finding (`ranks_selected_files`). However far back the log was
read, whatever was renamed on the way and however the files were scored, no file is lost or doubled.
-/

namespace Hotspots

variable {f : ObjectFormat}

/-- Scoring a path with a content gives a finding, under every identity and from every state. -/
def Scorer.Finds (s : Scorer) (path : String) (content : Bytes) (finding : Finding) : Prop :=
  ∀ (identity : FileIdentity) (st : Scoring), identity.path = path →
    ∃ st', (s.score identity content).Returns st (some finding) st'

/-- What scoring a path with a content gives is its finding. -/
theorem Scorer.finds_iff {s : Scorer} {path : String} {content : Bytes} {finding : Finding} :
    s.Finds path content finding ↔ s.finding? path content = some finding := by
  constructor
  · intro h
    exact exists_returns_score_iff.1 (h { uid := 0, path := path } {} rfl)
  · rintro h identity st rfl
    exact exists_returns_score_iff.2 h

namespace Triage

/-- The scorer of an analysis for files up to a size. -/
def scorer (t : Triage) (maxFileSize : Int) : Scorer :=
  { engine := t.engine, workers := t.settings .workers, maxFileSize := maxFileSize }

/-- Scoring the file at a path of a tree gives a finding. -/
def Finds (t : Triage) (tree : Tree f) (store : ObjectStore f) (path : String) (finding : Finding) : Prop :=
  ∃ maxFileSize content, t.settings.maxFileSizeBytes = .ok maxFileSize ∧
    tree.content? store path = some content ∧ (t.scorer maxFileSize).Finds path content finding

/-- The work-list of a tree: the selected files with a finding, each of them once and with its finding. -/
structure IsWorkList (t : Triage) (tree : Tree f) (store : ObjectStore f) (list : List WorkItem) : Prop where
  nodup : (list.map (·.identity.path)).Nodup
  mem_iff : ∀ path, path ∈ list.map (·.identity.path) ↔
    t.Selects tree path ∧ ∃ finding, t.Finds tree store path finding
  carries : ∀ item ∈ list, ∃ finding, t.Finds tree store item.identity.path finding ∧
    item.score = finding.score ∧ item.rule = finding.rule ∧ item.subject = finding.subject

variable {t : Triage} {walk : Walk} {tree : Tree f} {store : ObjectStore f}

/-- The record of a live identity is found in the churn of a sound walk. -/
theorem get?_records (hw : walk.Sound) {record : ChurnRecord} (h : record ∈ walk.history.records) :
    Record.get? record.identity (walk.history.records.map fun r => (r.identity, r)) = some record := by
  refine Record.get?_of_mem ?_ (List.mem_map.2 ⟨record, h, rfl⟩)
  rw [List.map_map]
  refine List.pairwise_map.2 (hw.pairwise_uid.imp ?_)
  intro a b hlt heq
  have huid : a.identity.uid = b.identity.uid := congrArg FileIdentity.uid heq
  omega

/-- The scores of a snapshot are those of its files. -/
theorem ensures_score (maxFileSize : Int) (snapshot : Scorer.Snapshot) :
    Run.Ensures Conversation.IsQuiet (t.score maxFileSize snapshot) fun scores =>
      scores.Perm ((t.scorer maxFileSize).findings snapshot) := by
  intro c scores c' hc h
  unfold score scoring at h
  obtain ⟨st, hscores, rfl⟩ := Run.returns_within.1 h
  exact ⟨((t.scorer maxFileSize).ensures_scoreAll snapshot true _ _ _ trivial hscores).1, hc⟩

section Scored

variable {churn : ChurnHistory} {snapshot : Scorer.Snapshot} {maxFileSize : Int} {scores : Scores}

/-- The score of an identity is the finding of a selected file, at the path of the identity. -/
theorem finds_of_mem_scores (hsnapshot : t.IsSnapshot tree store churn snapshot)
    (hsize : t.settings.maxFileSizeBytes = .ok maxFileSize)
    (hscores : scores.Perm ((t.scorer maxFileSize).findings snapshot)) {identity : FileIdentity}
    {finding : Finding} (hmem : (identity, finding) ∈ scores) :
    t.Selects tree identity.path ∧ t.Finds tree store identity.path finding := by
  rw [hscores.mem_iff, Scorer.mem_findings] at hmem
  obtain ⟨content, hentry, hfinding⟩ := hmem
  obtain ⟨hselects, hcontent, -⟩ := hsnapshot.mem _ hentry
  exact ⟨hselects, maxFileSize, content, hsize, hcontent, Scorer.finds_iff.2 hfinding⟩

/-- The finding of a selected file is the score of a live identity at its path, and not below zero. -/
theorem exists_score_of_finds (hsnapshot : t.IsSnapshot tree store churn snapshot)
    (hsize : t.settings.maxFileSizeBytes = .ok maxFileSize)
    (hscores : scores.Perm ((t.scorer maxFileSize).findings snapshot)) {path : String} {finding : Finding}
    (hselects : t.Selects tree path) (hfinds : t.Finds tree store path finding) :
    finding.score.lt .zero = false ∧ ∃ record ∈ churn.records, record.isLive = true ∧
      record.identity.path = path ∧ (record.identity, finding) ∈ scores := by
  obtain ⟨size, content, hsize', hcontent, hfinding⟩ := hfinds
  obtain ⟨⟨identity, content'⟩, hmem, rfl⟩ := hsnapshot.exists_of_selects path hselects
  obtain ⟨-, hcontent', record, hrecord, hlive, hidentity⟩ := hsnapshot.mem _ hmem
  dsimp only at hcontent' hidentity hcontent hfinding ⊢
  subst hidentity
  rw [hsize] at hsize'
  injection hsize' with hsize'
  rw [hcontent] at hcontent'
  injection hcontent' with hcontent'
  subst hsize' hcontent'
  rw [Scorer.finds_iff] at hfinding
  refine ⟨Scorer.lt_zero_of_finding? hfinding, record, hrecord, hlive, rfl, ?_⟩
  rw [hscores.mem_iff, Scorer.mem_findings]
  exact ⟨content, hmem, hfinding⟩

/-- No two scores are for identities at one path. -/
theorem nodup_paths_of_scores (hsnapshot : t.IsSnapshot tree store churn snapshot)
    (hscores : scores.Perm ((t.scorer maxFileSize).findings snapshot)) :
    (scores.map (·.1.path)).Nodup := by
  have hsublist := ((t.scorer maxFileSize).map_fst_findings_sublist snapshot).map FileIdentity.path
  have hnodup := hsublist.nodup (by rw [List.map_map]; exact hsnapshot.nodup)
  rw [List.map_map] at hnodup
  exact ((hscores.map _).nodup_iff).2 hnodup

end Scored

/-- The entries of the candidates among the scores of a snapshot are the work-list of the tree. -/
theorem isWorkList_of_perm (hcovers : walk.Covers tree) {snapshot : Scorer.Snapshot}
    (hsnapshot : t.IsSnapshot tree store walk.history snapshot) {maxFileSize : Int}
    (hsize : t.settings.maxFileSizeBytes = .ok maxFileSize) {scores : Scores}
    (hscores : scores.Perm ((t.scorer maxFileSize).findings snapshot)) {cs : List Worklist.Candidate}
    (hcs : Worklist.candidates (walk.history.records.map fun r => (r.identity, r))
      (scores.map fun (i, f) => (i, some f)) = cs) {list : List WorkItem}
    (hperm : list.Perm (cs.map (Worklist.entryOf (weights t.settings) cs))) : t.IsWorkList tree store list := by
  have hcandidate : ∀ c ∈ cs, t.Selects tree c.identity.path ∧ t.Finds tree store c.identity.path c.finding := by
    intro c hc
    rw [← hcs, Worklist.mem_candidates] at hc
    obtain ⟨⟨i, g⟩, hmem, heq⟩ := List.mem_map.1 hc.1
    injection heq with hi hg
    injection hg with hg
    subst hi hg
    exact finds_of_mem_scores hsnapshot hsize hscores hmem
  have hpaths : (list.map (·.identity.path)).Perm (cs.map (·.identity.path)) := by
    have hmap := hperm.map (·.identity.path)
    rw [List.map_map] at hmap
    exact hmap
  refine ⟨?_, fun path => ?_, fun item hitem => ?_⟩
  · rw [hpaths.nodup_iff, ← hcs]
    refine Worklist.nodup_map_candidates (g := FileIdentity.path) ?_
    rw [List.map_map]
    exact nodup_paths_of_scores hsnapshot hscores
  · rw [hpaths.mem_iff, List.mem_map]
    constructor
    · rintro ⟨c, hc, rfl⟩
      obtain ⟨hselects, hfinds⟩ := hcandidate c hc
      exact ⟨hselects, c.finding, hfinds⟩
    · rintro ⟨hselects, finding, hfinds⟩
      obtain ⟨hzero, record, hrecord, hlive, hpath, hmem⟩ :=
        exists_score_of_finds hsnapshot hsize hscores hselects hfinds
      refine ⟨⟨record.identity, record, finding⟩, ?_, hpath⟩
      rw [← hcs, Worklist.mem_candidates]
      exact ⟨List.mem_map.2 ⟨_, hmem, rfl⟩, get?_records hcovers.tracks.sound hrecord, hlive, hzero⟩
  · rw [hperm.mem_iff, List.mem_map] at hitem
    obtain ⟨c, hc, rfl⟩ := hitem
    obtain ⟨-, hfinds⟩ := hcandidate c hc
    exact ⟨c.finding, hfinds, rfl, rfl, rfl⟩

/-- The phases after the history give the work-list of the tree of the last revision. -/
theorem ensures_afterHistory {r : Reader} {name : String} {revisions : List (Revision f)} {last : Revision f}
    (h : r.repository.Shows name revisions store) (hlast : revisions.getLast? = some last)
    (hhead : walk.history.head = some last.sha) (hcovers : walk.Covers last.tree) :
    Run.Ensures Conversation.IsQuiet (t.afterHistory r walk.history) fun list =>
      t.IsWorkList last.tree store list := by
  have hsilent := Reader.isSilent_isQuiet
  unfold afterHistory
  apply (Run.ensures_checkpoint _).bind
  intro _ _
  apply ((t.ensures_readSnapshot h hlast hhead hcovers).phase hsilent _).bind
  intro snapshot hsnapshot
  apply Reader.ensures_close.bind
  intro _ _
  apply (Run.ensures_ofFault _).bind
  intro maxFileSize hsize
  apply ((ensures_score maxFileSize snapshot).phase hsilent _).bind
  intro scores hscores
  refine (Run.ensures_checkpoint _).bind fun _ _ => Run.Ensures.phase hsilent ?_ _
  exact (Worklist.ensures_rank hsilent _ _ _).imp fun list hlist =>
    isWorkList_of_perm hcovers hsnapshot hsize hscores rfl hlist

/-- If a run returns, its work-list has exactly the regular files of the last tree of the history that are
supported, not excluded and have a finding, each of them once and with its finding; so whatever the settings,
the weights and the engine are. -/
theorem ranks_selected_files (t : Triage) {repository : Repository} {location name : String}
    {revisions : List (Revision f)} {store : ObjectStore f} (hshows : repository.Shows name revisions store)
    {c c' : Conversation} (hidle : c.helper = none) {list : List WorkItem}
    (h : (t.calculate repository location name).Returns c list c') :
    t.IsWorkList (Revision.lastTree .empty revisions) store list := by
  have hquiet : c.IsQuiet := by
    unfold Conversation.IsQuiet
    rw [hidle]
    rfl
  have hcalculate : Run.Ensures Conversation.IsQuiet (t.calculate repository location name) fun list =>
      t.IsWorkList (Revision.lastTree .empty revisions) store list := by
    apply Reader.ensures_openAt.bind
    rintro r rfl
    apply ((t.ensures_readHistory hshows).phase Reader.isSilent_isQuiet _).bind
    intro churn hchurn
    rcases hchurn with ⟨rfl, rfl⟩ | ⟨last, walk, hlast, rfl, hhead, hcovers⟩
    · refine Run.ensures_pure ⟨List.nodup_nil, fun path => ?_, fun item hitem => ?_⟩
      · refine iff_of_false List.not_mem_nil fun ⟨hselects, _⟩ => ?_
        exact absurd hselects.isFile List.not_mem_nil
      · exact absurd hitem List.not_mem_nil
    · rw [Revision.lastTree_eq hlast]
      exact ensures_afterHistory hshows hlast hhead hcovers
  exact (hcalculate c list c' hquiet h).1

/-! ## A history that is cut off -/

/-- The blob of a regular file. -/
def keptBlob : ObjectId .sha1 := .repeated .sha1 'a' (by decide) (by decide)

/-- A tree with a regular file, a symbolic link and a link to another repository. -/
def mixedTree : Tree .sha1 :=
  { entries := [("kept.py", .file false keptBlob),
      ("link.py", .symlink (.repeated .sha1 'b' (by decide) (by decide))),
      ("sub.py", .gitlink (.repeated .sha1 'c' (by decide) (by decide)))]
    nodup := by decide
    ne_empty := by decide }

/-- The name of the commit that repeats a digit. -/
def commitName (digit : Char) : String := String.ofList (List.replicate 40 digit)

/-- A revision that adds the tree, and one that changes nothing. -/
def quietHistory : List (Revision .sha1) :=
  [⟨commitName '1', [], 10, mixedTree, Revision.differing .empty mixedTree⟩,
   ⟨commitName '2', [commitName '1'], 20, mixedTree, Revision.differing mixedTree mixedTree⟩]

/-- A store that holds the regular file. -/
def keptStore : ObjectStore .sha1 := fun id =>
  if id = keptBlob then some (.blob, Utf8.encode "class A") else none

/-- A repository that shows the history and lists only its newest revision in the log. -/
def cutOff : Repository :=
  { locate := some
    answer := fun
      | .gitDir => .exited 0 [] []
      | .verify _ => .exited 0 (Utf8.encode (commitName '2' ++ "\n")) []
      | .log _ _ => .exited 0 (Utf8.encodeChars (Revision.log mixedTree (quietHistory.drop 1))) []
      | .listTree _ => .exited 0 mixedTree.listing []
    reply := fun line =>
      if line = Utf8.encode keptBlob.text then .printed (keptStore.shown keptBlob) else .exits }

/-- An analysis of the newest commit in which every file has its source as a finding. -/
def newestOnly : Triage :=
  { settings := fun
      | .gitMaxCommits => .int 1
      | .excludePatterns => .list []
      | .maxFileSizeMb => .int 1
      | field => field.default
    engine :=
      { supports := fun _ => true
        analyze := fun _ source => .ok [⟨"source", .ofInt 1, source, 1, []⟩] } }

/-- The repository shows the history. -/
theorem shows_cutOff : cutOff.Shows "HEAD" quietHistory keptStore where
  isHistory := ⟨Revision.follows_of_listed_eq rfl, Revision.follows_of_listed_eq rfl, trivial⟩
  isNamed := by
    have hname : ∀ digit, RawLog.isHexDigit digit = true → digit ≠ '0' →
        ∃ id : ObjectId .sha1, commitName digit = id.text := fun digit hhex hzero =>
      ⟨.repeated .sha1 digit hhex hzero, rfl⟩
    simp only [quietHistory, List.forall_mem_cons, List.not_mem_nil, false_imp_iff, implies_true, and_true]
    refine ⟨⟨hname '1' (by decide) (by decide), List.forall_mem_nil _, by decide⟩,
      ⟨hname '2' (by decide) (by decide), ?_, by decide⟩⟩
    rw [List.forall_mem_singleton]
    exact hname '1' (by decide) (by decide)
  hasParents := by simp [quietHistory]
  isPath := by
    have hpath : ∀ path ∈ mixedTree.entries.map Prod.fst, Char.ofNat 0 ∉ path.toList := by decide
    simp only [quietHistory, List.forall_mem_cons, List.not_mem_nil, false_imp_iff, implies_true, and_true]
    exact ⟨hpath, hpath⟩
  head := by
    rintro code printed complaint heq
    injection heq with hcode
    simp [← hcode, quietHistory]
  names := by
    rintro r hr n - printed complaint heq
    injection hr with hr
    injection heq with _ hprinted
    rw [← hprinted, ← hr]
    rfl
  log := by
    rintro r hr limit
    refine ⟨quietHistory.take 1, quietHistory.drop 1, rfl, by simp [quietHistory], ?_⟩
    rintro printed complaint heq
    injection heq with _ hprinted
    exact hprinted.symm
  listing := by
    rintro r hr printed complaint heq
    injection hr with hr
    injection heq with _ hprinted
    rw [← hprinted, ← hr]
    rfl
  objects := by
    intro id output hreply
    unfold cutOff at hreply
    dsimp only at hreply
    split at hreply
    · next hline =>
      injection hreply with hreply
      rw [← hreply, ObjectId.eq_of_text (Utf8.encode_injective hline)]
    · cases hreply

/-- Of a history that is cut off in the log the file that the newest revision leaves alone is ranked, and no
link is. -/
theorem ranks_selected_files_cutOff :
    cutOff.Shows "HEAD" quietHistory keptStore ∧ ∃ list c',
      (newestOnly.calculate cutOff "." "HEAD").Returns {} list c' ∧
        newestOnly.IsWorkList mixedTree keptStore list ∧ list.map (·.identity.path) = ["kept.py"] := by
  have hrun : (match Run.exec (newestOnly.calculate cutOff "." "HEAD") {} with
      | (.ok list, _) => list.map (fun i => i.identity.path) == ["kept.py"]
      | (.error _, _) => false) = true := by decide +kernel
  generalize hexec : Run.exec (newestOnly.calculate cutOff "." "HEAD") {} = outcome at hrun
  obtain ⟨ending, c'⟩ := outcome
  cases ending with
  | error e => cases hrun
  | ok list =>
    have hlist := ranks_selected_files newestOnly shows_cutOff rfl hexec
    exact ⟨shows_cutOff, list, c', hexec, hlist, beq_iff_eq.1 hrun⟩

end Triage

end Hotspots
