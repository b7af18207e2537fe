import Hotspots.Proofs.Git.RawPaths
import Hotspots.Proofs.History.EditedMoves

/-!
# A revision as the commands describe it

Of a revision the commands print the log of its history and the listing of its tree, in which every path is stored as
bytes. Reading the log and reading the listing turn a path into the same text (`log_and_tree_name_alike`), so that a
file that the history touched is found in the tree under the name that the history has for it.
-/

namespace Hotspots

variable {f : ObjectFormat}

namespace LoggedCommit

/-- The paths at which a commit changes a blob. -/
def changedPaths (c : LoggedCommit f) : List RawPath :=
  (c.differences.filter fun d => d.shown.change?.isSome).map RawDifference.path

/-- The changes of a commit touch the texts of the paths at which it changes a blob. -/
theorem flatMap_touched_changes (c : LoggedCommit f) :
    c.commit.changes.flatMap FileChange.touched = c.changedPaths.map RawPath.text := by
  have htouched : ∀ (d : Difference f) change, d.change? = some change → change.touched = [d.path] := by
    intro d change h
    unfold Difference.change? at h
    cases hold : TreeNode.blobOf d.old <;> cases hnew : TreeNode.blobOf d.new <;> rw [hold, hnew] at h <;> cases h <;>
      rfl
  rw [commit, changedPaths]
  dsimp only
  induction c.differences with
  | nil => rfl
  | cons d rest ih =>
    cases hchange : d.shown.change? with
    | none =>
      simp only [List.filterMap_cons, List.filter_cons, hchange, ih, Option.isSome_none, Bool.false_eq_true, if_false]
    | some change =>
      simp only [List.filterMap_cons, List.filter_cons, hchange, ih, Option.isSome_some, if_true, List.flatMap_cons,
        List.map_cons, htouched _ _ hchange, List.singleton_append]
      rfl

end LoggedCommit

/-- What the commands print of the revision of a name if they succeed: the commit at its head, the log of the newest
commits, and the listing of the tree. -/
structure Repository.Describes (repository : Repository) (name : String) (newest : Option Value) (head : ObjectId f)
    (log : List (LoggedCommit f)) (tree : List (RawPath × TreeNode f)) : Prop where
  hasCommits : ∀ code printed complaint, repository.answer (.verify "HEAD") = .exited code printed complaint → code = 0
  name : repository.Prints (.verify name) (Utf8.encode (head.text ++ "\n"))
  log : repository.Prints (.log newest head.text) (LoggedCommit.log log)
  listing : repository.Prints (.listTree head.text) (RawPath.listing tree)

/-- The commands that describe the revision of a name all succeed. -/
def Repository.Succeed (repository : Repository) (name : String) (newest : Option Value) (head : ObjectId f) : Prop :=
  ∀ c ∈ [.verify "HEAD", .verify name, .log newest head.text, .listTree head.text], repository.Succeeds c

/-- The helper serves a store that has every blob of the differences of a log, and does not end. -/
structure Repository.ServesBlobs (repository : Repository) (store : ObjectStore f) (log : List (LoggedCommit f)) :
    Prop where
  isServed : store.IsServedBy repository
  isRunning : ∀ time, repository.endsAt? time = none
  blobs : ∀ c ∈ log, ∀ d ∈ c.differences, ∀ id : ObjectId f,
    TreeNode.blobOf d.old = some id.text ∨ TreeNode.blobOf d.new = some id.text →
      ∃ content, store id = some (.blob, content) ∧ content.length < 2 ^ 63 ∧
        repository.reply (Utf8.encode id.text) = .printed (store.shown id)

/-- A repository with one revision whose helper shows a store. -/
def Repository.ofLog (head : ObjectId f) (log : List (LoggedCommit f)) (tree : List (RawPath × TreeNode f))
    (store : ObjectStore f) : Repository where
  locate := some
  answer
    | .gitDir => .exited 0 [] []
    | .verify _ => .exited 0 (Utf8.encode (head.text ++ "\n")) []
    | .log _ _ => .exited 0 (LoggedCommit.log log) []
    | .listTree _ => .exited 0 (RawPath.listing tree) []
  reply line :=
    match (ObjectId.ofText? (Utf8.decodeLossy line) : Option (ObjectId f)) with
    | some id => .printed (store.shown id)
    | none => .exits

/-- A command that comes to an end prints its output if it succeeds. -/
theorem Repository.prints_of_answer {repository : Repository} {c : GitCommand} {code : Int} {output complaint : Bytes}
    (h : repository.answer c = .exited code output complaint) : repository.Prints c output := by
  intro printed complaint' hprinted
  cases h.symm.trans hprinted
  rfl

section OfLog

variable {head : ObjectId f} {log : List (LoggedCommit f)} {tree : List (RawPath × TreeNode f)} {store : ObjectStore f}

/-- The commands of the repository describe its revision. -/
theorem Repository.describes_ofLog (name : String) (newest : Option Value) :
    (ofLog head log tree store).Describes name newest head log tree where
  hasCommits _ _ _ h := by
    injection h with hcode
    exact hcode.symm
  name := prints_of_answer rfl
  log := prints_of_answer rfl
  listing := prints_of_answer rfl

/-- The commands of the repository succeed. -/
theorem Repository.succeed_ofLog (name : String) (newest : Option Value) :
    (ofLog head log tree store).Succeed name newest head := by
  simp only [Succeed, List.forall_mem_cons, List.not_mem_nil, false_imp_iff, implies_true, and_true]
  exact ⟨⟨_, _, rfl⟩, ⟨_, _, rfl⟩, ⟨_, _, rfl⟩, ⟨_, _, rfl⟩⟩

/-- The helper serves the blobs that the store has. -/
theorem Repository.servesBlobs_ofLog
    (h : ∀ id, ∃ content, store id = some (.blob, content) ∧ content.length < 2 ^ 63) :
    (ofLog head log tree store).ServesBlobs store log where
  isServed id output hreply := by
    simp only [ofLog, Utf8.decodeLossy_encode, ObjectId.ofText?_text] at hreply
    injection hreply with hreply
    exact hreply.symm
  isRunning _ := rfl
  blobs _ _ _ _ id _ := by
    obtain ⟨content, hstore, hfits⟩ := h id
    refine ⟨content, hstore, hfits, ?_⟩
    simp only [ofLog, Utf8.decodeLossy_encode, ObjectId.ofText?_text]

end OfLog

namespace Reader

variable {r : Reader} {name revision : String} {limit : Value} {head : ObjectId f} {log : List (LoggedCommit f)}
  {tree : List (RawPath × TreeNode f)} {T : Prop} {P : Conversation → Prop}

/-! ## The commits of the log -/

/-- The head is a commit if asking for it does not fail. -/
theorem gives_hasCommits_true (hkeeps : r.repository.Keeps P)
    (hcode : ∀ code printed complaint, r.repository.answer (.verify "HEAD") = .exited code printed complaint → code = 0)
    (hT : T → r.repository.Succeeds (.verify "HEAD")) : Run.Gives T P r.hasCommits true := by
  refine gives_run_bind hkeeps (fun code output complaint hanswer => ?_) fun ht => ?_
  · rw [hcode code output complaint hanswer]
    exact Run.gives_pure _
  · obtain ⟨output, complaint, hsuccess⟩ := hT ht
    exact ⟨0, output, complaint, hsuccess⟩

/-- The log is read as the commits that it lists. -/
theorem gives_loggedCommits_describes (h : r.repository.Describes name (askedLimit limit) head log tree)
    (hkeeps : r.repository.Keeps P) (hP : Run.IsSilent P) (hT : T → r.repository.Succeed name (askedLimit limit) head)
    (hlimit : T → checkLimit limit = .ok ()) :
    Run.Gives T P (r.loggedCommits name limit) (some (log.map LoggedCommit.commit)) := by
  have hhead := gives_hasCommits_true hkeeps h.hasCommits fun ht => hT ht _ List.mem_cons_self
  exact gives_loggedCommits hhead (gives_resolve hkeeps h.name fun ht => hT ht _ (by simp)) hlimit
    (gives_output hkeeps h.log fun ht => hT ht _ (by simp)) (LoggedCommit.gives_commits hP r.location log)

/-- Finding the renames of commits leaves everything else of them alone. -/
theorem reconciled_of_returns_reconcileAll {listed commits : List Commit} {s s' : Conversation}
    (h : (r.reconcileAll listed).Returns s commits s') :
    List.Forall₂ (fun c l => c.sha = l.sha ∧ Renames.Reconciled l.changes c.changes) commits listed := by
  induction listed generalizing s commits s' with
  | nil =>
    obtain ⟨rfl, -⟩ := Run.returns_pure.1 h
    exact .nil
  | cons c rest ih =>
    obtain ⟨changes, s₁, hchanges, h⟩ := Run.returns_bind.1 h
    obtain ⟨more, s₂, hmore, h⟩ := Run.returns_bind.1 h
    obtain ⟨rfl, -⟩ := Run.returns_pure.1 h
    exact .cons ⟨rfl, Renames.reconciled_of_returns hchanges⟩ (ih hmore)

/-- The commits that are reported have the changes of the log, with renames found among them. -/
theorem ensures_reported (listed : List Commit) :
    Run.Ensures (fun _ => True) (r.reported limit (some listed)) fun commits =>
      List.Forall₂ (fun c l => c.sha = l.sha ∧ Renames.Reconciled l.changes c.changes) commits listed := by
  have hsilent : Run.IsSilent fun _ : Conversation => True := fun _ _ _ => trivial
  have hfound : Run.Ensures (fun _ => True) (r.reconcileAll listed) fun commits =>
      List.Forall₂ (fun c l => c.sha = l.sha ∧ Renames.Reconciled l.changes c.changes) commits listed :=
    fun _ _ _ _ h => ⟨reconciled_of_returns_reconcileAll h, trivial⟩
  refine hfound.bind fun commits hcommits => ?_
  have hend : Run.Ensures (fun _ => True) (do
      Run.log .info ("Read " ++ natText commits.length ++ " commits from " ++ r.location)
      return commits) fun commits =>
        List.Forall₂ (fun c l => c.sha = l.sha ∧ Renames.Reconciled l.changes c.changes) commits listed :=
    (Run.ensures_log hsilent _ _).bind fun _ _ => Run.ensures_pure hcommits
  split
  · exact (Run.ensures_log hsilent _ _).bind fun _ _ => hend
  · exact hend

/-- The changes that a commit reports touch the texts of the paths at which the log changes a blob. -/
theorem ensures_commits_touched (h : r.repository.Describes name (askedLimit limit) head log tree) :
    Run.Ensures (fun _ => True) (r.commits name limit) fun commits =>
      List.Forall₂ (fun (c : Commit) (l : LoggedCommit f) => c.sha = l.sha.text ∧
        (c.changes.flatMap FileChange.touched).Perm (l.changedPaths.map RawPath.text)) commits log := by
  rw [commits_eq]
  refine (gives_loggedCommits_describes (T := False) h (fun _ _ _ => trivial) (fun _ _ _ => trivial) False.elim
    False.elim).ensures.bind fun listed hlisted => ?_
  rw [hlisted]
  refine (ensures_reported _).imp fun commits hcommits => ?_
  rw [List.forall₂_map_right_iff] at hcommits
  refine hcommits.imp fun c l => ?_
  rintro ⟨hsha, hchanges⟩
  refine ⟨hsha, ?_⟩
  rw [← l.flatMap_touched_changes]
  exact hchanges.flatMap_perm Walk.conserved_touched

/-! ## The files of the tree -/

/-- The listing of a tree is read as its regular files with their blobs, under the texts of their paths. -/
theorem entriesOfListing_rawPaths (tree : List (RawPath × TreeNode f)) :
    entriesOfListing (Pieces.splitOn 0 (RawPath.listing tree)) = .ok (RawPath.fileBlobs tree) := by
  have hlisting : RawPath.listing tree = (tree.map fun e => (e.1.bytes, e.2)).flatMap
      fun e => (e.2.storedEntry e.1).line := by
    rw [RawPath.listing, List.flatMap_map]
  rw [hlisting, entriesOfListing_lines (List.forall_mem_map.2 fun e _ => e.1.not_null)]
  simp only [List.filter_map, List.map_map, RawPath.fileBlobs, Function.comp_def, RawPath.text]

/-- A listing that is printed is read as the regular files of the tree, under the texts of their paths. -/
theorem gives_treeEntries_listing (hname : r.repository.Prints (.verify name) (Utf8.encode (head.text ++ "\n")))
    (hlisting : r.repository.Prints (.listTree head.text) (RawPath.listing tree)) (hkeeps : r.repository.Keeps P)
    (hT : T → r.repository.Succeeds (.verify name) ∧ r.repository.Succeeds (.listTree head.text)) :
    Run.Gives T P (r.treeEntries name) (Record.putAll (RawPath.fileBlobs tree) []) := by
  have hread := entriesOfListing_rawPaths tree
  refine (gives_resolve hkeeps hname fun ht => (hT ht).1).bind ?_
  refine (gives_output hkeeps hlisting fun ht => (hT ht).2).bind ?_
  refine (Run.gives_ofFault (a := RawPath.fileBlobs tree) (fun entries hentries => ?_) fun _ => hread).bind ?_
  · exact Except.ok.inj (hentries.symm.trans hread)
  · exact Run.gives_pure _

/-- The listing is read as the regular files of the tree, under the texts of their paths. -/
theorem gives_treeEntries_describes (h : r.repository.Describes name (askedLimit limit) head log tree)
    (hkeeps : r.repository.Keeps P) (hT : T → r.repository.Succeed name (askedLimit limit) head) :
    Run.Gives T P (r.treeEntries name) (Record.putAll (RawPath.fileBlobs tree) []) :=
  gives_treeEntries_listing h.name h.listing hkeeps fun ht => ⟨hT ht _ (by simp), hT ht _ (by simp)⟩

/-- The keys of the files of a tree are the texts of their paths. -/
theorem has_putAll_fileBlobs (tree : List (RawPath × TreeNode f)) (text : String) :
    Record.has text (Record.putAll (RawPath.fileBlobs tree) []) = true ↔
      ∃ e ∈ tree, e.2.isFile = true ∧ e.1.text = text := by
  simp only [Record.has_putAll_nil, RawPath.fileBlobs, List.map_map, List.mem_map, List.mem_filter, Function.comp_apply,
    and_assoc]

/-! ## Blobs -/

/-- Commands leave nothing unread. -/
theorem keeps_isQuiet (repository : Repository) : repository.Keeps Conversation.IsQuiet := by
  intro c s hs
  rw [exec_execute]
  dsimp only
  split <;> exact hs

/-- The renames of logged commits are found if the blobs of the log are served. -/
theorem gives_reconcileAll_logged {store : ObjectStore f} (hserved : store.IsServedBy r.repository)
    (hT : T → r.repository.ServesBlobs store log) {commits : List (LoggedCommit f)} (hmem : ∀ c ∈ commits, c ∈ log) :
    Run.Gives T Conversation.IsQuiet (r.reconcileAll (commits.map LoggedCommit.commit)) (commits.map fun c =>
      { c.commit with changes := Renames.paired store.content r.limits c.commit.changes }) := by
  induction commits with
  | nil => exact Run.gives_pure []
  | cons c rest ih =>
    have hchanges : Run.Gives T Conversation.IsQuiet (Renames.reconcile r.blobContent r.limits c.commit.changes)
        (Renames.paired store.content r.limits c.commit.changes) := by
      refine Renames.gives_reconcile isSilent_isQuiet r.limits fun change hchange text hnamed => ?_
      obtain ⟨d, hd, hd'⟩ := List.mem_filterMap.1 hchange
      have hside := Difference.blobOf_of_change? hd' hnamed
      obtain ⟨id, rfl⟩ := hside.elim TreeNode.exists_id_of_blobOf TreeNode.exists_id_of_blobOf
      exact gives_blobContent_quiet hserved (fun ht => (hT ht).isRunning) fun ht =>
        (hT ht).blobs c (hmem c List.mem_cons_self) d hd id hside
    exact hchanges.bind ((ih fun d hd => hmem d (List.mem_cons_of_mem _ hd)).bind (Run.gives_pure _))

/-! ## Both readings -/

/-- The log and the tree name a file alike. Every change that is reported touches the text of a path at which the log
changes a blob, and every such path is touched once; every regular file that the tree lists is found under the text of
its path, and under distinct texts the files are exactly the regular files with their blobs. If the commands succeed
the tree is read, and the commits are read as well if the blobs of the log are served. -/
theorem log_and_tree_name_alike (h : r.repository.Describes name (askedLimit limit) head log tree) :
    (∀ s commits s', (r.commits name limit).Returns s commits s' →
      List.Forall₂ (fun (c : Commit) (l : LoggedCommit f) => c.sha = l.sha.text ∧
        (c.changes.flatMap FileChange.touched).Perm (l.changedPaths.map RawPath.text)) commits log) ∧
    (∀ s entries s', (r.treeEntries name).Returns s entries s' →
      (∀ text, Record.has text entries = true ↔ ∃ e ∈ tree, e.2.isFile = true ∧ e.1.text = text) ∧
      ((tree.map fun e => e.1.text).Nodup → entries = RawPath.fileBlobs tree)) ∧
    (r.repository.Succeed name (askedLimit limit) head →
      (∀ s, ∃ entries s', (r.treeEntries name).Returns s entries s') ∧
      ∀ store : ObjectStore f, checkLimit limit = .ok () → r.repository.ServesBlobs store log →
        ∀ s : Conversation, s.IsQuiet → ∃ commits s', (r.commits name limit).Returns s commits s') := by
  have htree : Run.Gives (r.repository.Succeed name (askedLimit limit) head) (fun _ => True) (r.treeEntries name)
      (Record.putAll (RawPath.fileBlobs tree) []) := gives_treeEntries_describes h (fun _ _ _ => trivial) id
  refine ⟨fun s commits s' hrun => (ensures_commits_touched h s commits s' trivial hrun).1,
    fun s entries s' hrun => ?_, fun hsucceed => ⟨fun s => ?_, fun store hlimit hserves s hquiet => ?_⟩⟩
  · obtain ⟨rfl, -⟩ := htree.ensures s entries s' trivial hrun
    refine ⟨has_putAll_fileBlobs tree, fun hdistinct => Record.putAll_nil ?_⟩
    rw [RawPath.fileBlobs, List.map_map]
    exact (List.filter_sublist.map _).nodup hdistinct
  · exact ⟨_, htree.returns hsucceed s trivial⟩
  · have hlogged := gives_loggedCommits_describes (T := True) h (keeps_isQuiet r.repository) isSilent_isQuiet
      (fun _ => hsucceed) fun _ => hlimit
    have hreported := gives_reported (T := True) isSilent_isQuiet limit
      (gives_reconcileAll_logged hserves.isServed (fun _ => hserves) fun _ hc => hc)
    rw [commits_eq]
    exact ⟨_, (hlogged.bind hreported).returns trivial s hquiet⟩

/-- A path with a cut character, a line end, a stray byte, a quote and a backslash, beside links. -/
theorem log_and_tree_name_alike_malformed :
    let path : RawPath := ⟨[0xE2, 0x82, 0x0A, 0xFF, 0x22, 0x5C], by decide, by decide⟩
    let link : RawPath := ⟨[0x61], by decide, by decide⟩
    let id : ObjectId .sha1 := .repeated .sha1 'd' (by decide) (by decide)
    let log : List (LoggedCommit .sha1) := [
      { sha := id, parents := [], time := 0, length_le := by decide, emptyLines := 1,
        differences := [⟨path, none, some (.file false id), nofun⟩] }]
    let tree : List (RawPath × TreeNode .sha1) := [(path, .file false id), (link, .gitlink id)]
    let r : Reader := { repository := .ofLog id log tree fun _ => some (.blob, []), location := "." }
    path.text = "\uFFFD\n\uFFFD\"\\" ∧ r.repository.Describes "HEAD" none id log tree ∧
      (∃ commits s', (r.commits "HEAD" (.int 0)).Returns {} commits s' ∧
        (commits.map fun c => c.changes.flatMap FileChange.touched) = [[path.text]]) ∧
      ∃ s', (r.treeEntries "HEAD").Returns {} [(path.text, id.text)] s' := by
  intro path link id log tree r
  have hdescribes : r.repository.Describes "HEAD" (askedLimit (.int 0)) id log tree :=
    Repository.describes_ofLog "HEAD" _
  obtain ⟨htouched, hfiles, hreturns⟩ := log_and_tree_name_alike hdescribes
  obtain ⟨htree, hcommits⟩ := hreturns (Repository.succeed_ofLog "HEAD" _)
  obtain ⟨entries, s₁, hentries⟩ := htree {}
  obtain ⟨commits, s₂, hlisted⟩ := hcommits (fun _ => some (.blob, [])) rfl
    (Repository.servesBlobs_ofLog fun _ => ⟨[], rfl, by decide⟩) {} rfl
  have hdistinct : (tree.map fun e => e.1.text).Nodup := by decide +kernel
  have hchanges := htouched {} commits s₂ hlisted
  obtain rfl := (hfiles {} entries s₁ hentries).2 hdistinct
  refine ⟨by decide +kernel, hdescribes, ⟨commits, s₂, hlisted, ?_⟩, s₁, hentries⟩
  obtain ⟨c, rest, ⟨-, hperm⟩, hrest, rfl⟩ := List.forall₂_cons_right_iff.1 hchanges
  obtain rfl := List.forall₂_nil_right_iff.1 hrest
  have htext : c.changes.flatMap FileChange.touched = [path.text] := List.perm_singleton.1 hperm
  rw [List.map_cons, List.map_nil, htext]

end Reader

end Hotspots
