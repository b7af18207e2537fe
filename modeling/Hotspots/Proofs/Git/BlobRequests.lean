import Hotspots.Proofs.Git.Calls
import Hotspots.Proofs.Git.Undisturbed
import Hotspots.Proofs.Git.WellFormed
import Hotspots.Proofs.Run.Projects

/-!
# Which blobs are asked for

Reading commits asks the helper for the contents of blobs, to find renames. A record of these requests can be kept
without influence on what is read (`projects_auditedCommits`). It shows that every request is for the blob of a file or
of a symbolic link that its commit removes or adds: links to commits of other repositories are on no side of a rename,
even where one of them takes the place of a file (`requests_only_moved_blobs`).
-/

namespace Hotspots

variable {f : ObjectFormat}

/-! ## Blobs and links of a log -/

/-- The commit of another repository that a node links to. -/
def TreeNode.link? : TreeNode f → Option (ObjectId f)
  | gitlink commit => some commit
  | _ => none

namespace RawDifference

/-- The blob that is removed from a path where no blob is left. -/
def removed? (d : RawDifference f) : Option (ObjectId f) :=
  match d.old.bind TreeNode.blob?, d.new.bind TreeNode.blob? with
  | some id, none => some id
  | _, _ => none

/-- The blob that is added at a path where there was no blob. -/
def added? (d : RawDifference f) : Option (ObjectId f) :=
  match d.old.bind TreeNode.blob?, d.new.bind TreeNode.blob? with
  | none, some id => some id
  | _, _ => none

/-- What there is at a path before and after. -/
def nodes (d : RawDifference f) : List (TreeNode f) := d.old.toList ++ d.new.toList

end RawDifference

namespace LoggedCommit

/-- The blobs that a commit removes, and those that it adds. -/
def moved (c : LoggedCommit f) : List (ObjectId f) :=
  c.differences.filterMap RawDifference.removed? ++ c.differences.filterMap RawDifference.added?

/-- The blobs on either side of the differences of a commit. -/
def blobs (c : LoggedCommit f) : List (ObjectId f) := (c.differences.flatMap RawDifference.nodes).filterMap TreeNode.blob?

/-- The commits of other repositories on either side of the differences of a commit. -/
def links (c : LoggedCommit f) : List (ObjectId f) := (c.differences.flatMap RawDifference.nodes).filterMap TreeNode.link?

/-- No object of a log is both a blob and a commit. -/
def AreApart (log : List (LoggedCommit f)) : Prop := ∀ c ∈ log, ∀ c' ∈ log, ∀ id ∈ c.blobs, id ∉ c'.links

end LoggedCommit

section Sides

variable {d : RawDifference f} {c : LoggedCommit f} {change : FileChange} {id : ObjectId f} {text : String}

/-- A deletion deletes the blob that its difference removes. -/
theorem RawDifference.removed?_of_isDeletion (hchange : d.shown.change? = some change)
    (hdeletion : Renames.isDeletion change = true) : ∃ id, d.removed? = some id ∧ change.oldBlob = some id.text := by
  unfold Difference.change? TreeNode.blobOf at hchange
  unfold removed?
  cases hold : d.old.bind TreeNode.blob? <;> cases hnew : d.new.bind TreeNode.blob? <;>
    simp only [shown, hold, hnew, Option.map_none, Option.map_some, Option.some.injEq, reduceCtorEq] at hchange <;>
    subst hchange
  · cases hdeletion
  · exact ⟨_, rfl, rfl⟩
  · cases hdeletion

/-- An addition adds the blob that its difference adds. -/
theorem RawDifference.added?_of_isAddition (hchange : d.shown.change? = some change)
    (haddition : Renames.isAddition change = true) : ∃ id, d.added? = some id ∧ change.newBlob = some id.text := by
  unfold Difference.change? TreeNode.blobOf at hchange
  unfold added?
  cases hold : d.old.bind TreeNode.blob? <;> cases hnew : d.new.bind TreeNode.blob? <;>
    simp only [shown, hold, hnew, Option.map_none, Option.map_some, Option.some.injEq, reduceCtorEq] at hchange <;>
    subst hchange
  · exact ⟨_, rfl, rfl⟩
  · cases haddition
  · cases haddition

/-- A blob on a side of a difference is one of the commit. -/
theorem LoggedCommit.exists_mem_blobs (hd : d ∈ c.differences)
    (h : TreeNode.blobOf d.old = some text ∨ TreeNode.blobOf d.new = some text) : ∃ id ∈ c.blobs, text = id.text := by
  have hside : ∀ side : Option (TreeNode f), (∀ node ∈ side, node ∈ d.nodes) → TreeNode.blobOf side = some text →
      ∃ id ∈ c.blobs, text = id.text := by
    intro side hnodes hblob
    obtain ⟨id, hid, rfl⟩ := Option.map_eq_some_iff.1 hblob
    obtain ⟨node, hnode, hid⟩ := Option.bind_eq_some_iff.1 hid
    exact ⟨id, List.mem_filterMap.2 ⟨node, List.mem_flatMap.2 ⟨d, hd, hnodes node hnode⟩, hid⟩, rfl⟩
  rcases h with hold | hnew
  · exact hside d.old (fun node hnode => List.mem_append_left _ (Option.mem_toList.2 hnode)) hold
  · exact hside d.new (fun node hnode => List.mem_append_right _ (Option.mem_toList.2 hnode)) hnew

/-- The blobs that a commit removes or adds are blobs of the commit. -/
theorem LoggedCommit.mem_blobs_of_mem_moved (h : id ∈ c.moved) : id ∈ c.blobs := by
  have hblob : ∃ d ∈ c.differences, TreeNode.blobOf d.old = some id.text ∨ TreeNode.blobOf d.new = some id.text := by
    rcases List.mem_append.1 h with h | h
    · obtain ⟨d, hd, hremoved⟩ := List.mem_filterMap.1 h
      unfold RawDifference.removed? at hremoved
      cases hold : d.old.bind TreeNode.blob? <;> cases hnew : d.new.bind TreeNode.blob? <;>
        rw [hold, hnew] at hremoved <;> cases hremoved
      exact ⟨d, hd, .inl (by rw [TreeNode.blobOf, hold, Option.map_some])⟩
    · obtain ⟨d, hd, hadded⟩ := List.mem_filterMap.1 h
      unfold RawDifference.added? at hadded
      cases hold : d.old.bind TreeNode.blob? <;> cases hnew : d.new.bind TreeNode.blob? <;>
        rw [hold, hnew] at hadded <;> cases hadded
      exact ⟨d, hd, .inr (by rw [TreeNode.blobOf, hnew, Option.map_some])⟩
  obtain ⟨d, hd, hside⟩ := hblob
  obtain ⟨_, hid, htext⟩ := exists_mem_blobs hd hside
  rw [ObjectId.eq_of_text htext]
  exact hid

end Sides

/-! ## The blobs of renames -/

namespace Renames

/-- A change that is reconciled is one of those that were listed, or the rename of two of them. -/
theorem Reconciled.mem_or_exists_pair {listed result : List FileChange} (h : Reconciled listed result)
    {change : FileChange} (hchange : change ∈ result) :
    change ∈ listed ∨ ∃ p : Pair, p.old ∈ listed ∧ p.new ∈ listed ∧ change = p.change := by
  obtain ⟨s, htakes, rfl⟩ := h
  have hsides : (∀ c ∈ s.added, c ∈ listed) ∧ (∀ c ∈ s.deleted, c ∈ listed) ∧ ∀ c ∈ s.settled,
      c ∈ listed ∨ ∃ p : Pair, p.old ∈ listed ∧ p.new ∈ listed ∧ c = p.change := by
    clear hchange
    induction htakes with
    | refl =>
      exact ⟨fun _ hc => (List.mem_filter.1 hc).1, fun _ hc => (List.mem_filter.1 hc).1,
        fun _ hc => .inl (List.mem_filter.1 hc).1⟩
    | tail _ hstep ih =>
      obtain ⟨p, hnew, hold, rfl⟩ := hstep
      obtain ⟨hadded, hdeleted, hsettled⟩ := ih
      refine ⟨fun c hc => hadded c (List.mem_of_mem_erase hc), fun c hc => hdeleted c (List.mem_of_mem_erase hc), ?_⟩
      refine List.forall_mem_append.2 ⟨hsettled, List.forall_mem_singleton.2 (.inr ?_)⟩
      exact ⟨p, hdeleted _ hold, hadded _ hnew, rfl⟩
  obtain ⟨hadded, hdeleted, hsettled⟩ := hsides
  rcases List.mem_append.1 (s.changes_perm_all.mem_iff.1 hchange) with h | h
  · exact (List.mem_append.1 h).elim (hsettled _) fun h => .inl (hadded _ h)
  · exact .inl (hdeleted _ h)

end Renames

/-- The blobs of the changes that are reconciled are blobs of the commit. -/
theorem LoggedCommit.exists_mem_blobs_of_reconciled {c : LoggedCommit f} {changes : List FileChange}
    (h : Renames.Reconciled c.commit.changes changes) {change : FileChange} (hchange : change ∈ changes) {text : String}
    (htext : change.oldBlob = some text ∨ change.newBlob = some text) : ∃ id ∈ c.blobs, text = id.text := by
  have hlisted : ∀ change ∈ c.commit.changes, change.oldBlob = some text ∨ change.newBlob = some text →
      ∃ id ∈ c.blobs, text = id.text := by
    intro change hchange htext
    obtain ⟨d, hd, hd'⟩ := List.mem_filterMap.1 hchange
    exact exists_mem_blobs hd (Difference.blobOf_of_change? hd' htext)
  rcases h.mem_or_exists_pair hchange with hmem | ⟨p, hold, hnew, rfl⟩
  · exact hlisted _ hmem htext
  · exact htext.elim (fun h => hlisted _ hold (.inl h)) fun h => hlisted _ hnew (.inr h)

/-! ## A record of the requests -/

section Generic

variable {σ τ : Type} [HasSession σ] [HasSession τ] {part : σ → τ}

/-- Finding renames projects to finding them on the part. -/
theorem Renames.projects_reconcile (hpart : ∀ entries s, part (Run.logged entries s) = Run.logged entries (part s))
    {load : String → Run σ Bytes} {load' : String → Run τ Bytes}
    (hload : ∀ oid, Run.Projects part (load oid) (load' oid)) (l : Limits) (changes : List FileChange) :
    Run.Projects part (reconcile load l changes) (reconcile load' l changes) := by
  have hloadAll : ∀ blob contents cs,
      Run.Projects part (loadAll load blob contents cs) (loadAll load' blob contents cs) := by
    intro blob contents cs
    induction cs generalizing contents with
    | nil => exact Run.projects_pure _
    | cons c rest ih => exact (hload _).bind fun _ => ih _
  have hsettle : ∀ s pairs, Run.Projects part (settle s pairs : Run σ Sides) (settle s pairs) := fun s pairs =>
    (Run.projects_logAll hpart _).bind fun _ => Run.projects_pure _
  have hcontents : ∀ s, Run.Projects part (reconcileContents load l s) (reconcileContents load' l s) := by
    intro s
    unfold reconcileContents
    split
    · exact (Run.projects_log hpart _ _).bind fun _ => Run.projects_pure _
    · exact (hloadAll _ _ _).bind fun _ => (hloadAll _ _ _).bind fun _ => hsettle _ _
  refine (hsettle _ _).bind fun left => ?_
  split
  · exact (hcontents left).bind fun _ => Run.projects_pure _
  · exact Run.projects_pure _

end Generic

/-- A conversation, with the blobs that were asked for and the commits that they were asked for. -/
structure Audit where
  conversation : Conversation
  asked : List (Commit × String) := []

namespace Audit

instance : HasSession Audit where
  session a := HasSession.session a.conversation
  withSession s a := { a with conversation := HasSession.withSession s a.conversation }

/-- Talks in the conversation. -/
def talk {α : Type} (t : Talk α) : Run Audit α := Run.within conversation (fun c a => { a with conversation := c }) t

/-- An audit of which every request is good, and that has a record of all requests since there were some number. -/
structure Holds (good : Commit × String → Prop) (n : Nat) (a : Audit) : Prop where
  good : ∀ q ∈ a.asked, good q
  requests : a.conversation.requests = n + a.asked.length

end Audit

namespace Reader

section By

variable {σ : Type} [HasSession σ]

/-- Finds the renames of commits, with contents that are loaded for them. -/
def reconcileAllBy (load : Commit → String → Run σ Bytes) (l : Renames.Limits) : List Commit → Run σ (List Commit)
  | [] => return []
  | c :: rest => do
    let changes ← Renames.reconcile (load c) l c.changes
    let more ← reconcileAllBy load l rest
    return { c with changes := changes } :: more

/-- The commits of a revision, once the log is read, with renames that are found in some way. -/
def reportedBy (r : Reader) (limit : Value) (find : List Commit → Run σ (List Commit)) :
    Option (List Commit) → Run σ (List Commit)
  | some listed => do
    let commits ← find listed
    if reachesLimit limit commits.length then
      Run.log .warning ("History truncated to the newest " ++ natText commits.length
        ++ " commits; older changes are not counted")
    Run.log .info ("Read " ++ natText commits.length ++ " commits from " ++ r.location)
    return commits
  | none => do
    Run.log .info ("Repository " ++ r.location ++ " has no commits")
    return []

end By

variable {r : Reader} {name revision : String} {limit : Value}

/-- The renames of commits are found with the contents of blobs. -/
theorem reconcileAll_eq (r : Reader) (commits : List Commit) :
    r.reconcileAll commits = reconcileAllBy (fun _ => r.blobContent) r.limits commits := by
  induction commits with
  | nil => rfl
  | cons c rest ih => rw [reconcileAll, reconcileAllBy, ih]

/-- The commits are reported with the renames that are found with the contents of blobs. -/
theorem reported_eq (r : Reader) (limit : Value) : r.reported limit = r.reportedBy limit r.reconcileAll := by
  funext listed?
  cases listed? <;> rfl

/-- The content of a blob that is asked for a commit, with a record of the request. -/
def auditedContent (r : Reader) (c : Commit) (oid : String) : Run Audit Bytes := do
  Run.update fun a => { a with asked := a.asked ++ [(c, oid)] }
  Audit.talk (r.blobContent oid)

/-- The first-parent history of a revision, with a record of the blobs that are asked for. -/
def auditedCommits (r : Reader) (revision : String) (limit : Value) : Run Audit (List Commit) := do
  let listed? ← Audit.talk (r.loggedCommits revision limit)
  r.reportedBy limit (reconcileAllBy r.auditedContent r.limits) listed?

/-- The record has no influence on what is read. -/
theorem projects_auditedCommits (r : Reader) (revision : String) (limit : Value) :
    Run.Projects Audit.conversation (r.auditedCommits revision limit) (r.commits revision limit) := by
  have hpart : ∀ entries (a : Audit), (Run.logged entries a).conversation = Run.logged entries a.conversation :=
    fun _ _ => rfl
  have htalk : ∀ {α : Type} (t : Talk α), Run.Projects Audit.conversation (Audit.talk t) t := fun t =>
    Run.projects_within (fun _ _ => rfl) t
  have hcontent : ∀ c oid, Run.Projects Audit.conversation (r.auditedContent c oid) (r.blobContent oid) :=
    fun c oid => (htalk _).update_bind fun _ => rfl
  have hfind : ∀ commits, Run.Projects Audit.conversation (reconcileAllBy r.auditedContent r.limits commits)
      (reconcileAllBy (fun _ => r.blobContent) r.limits commits) := by
    intro commits
    induction commits with
    | nil => exact Run.projects_pure _
    | cons c rest ih =>
      exact (Renames.projects_reconcile hpart (hcontent c) _ _).bind fun _ => ih.bind fun _ => Run.projects_pure _
  rw [commits_eq, reported_eq]
  refine (htalk _).bind fun listed? => ?_
  cases listed? with
  | none => exact (Run.projects_log hpart _ _).bind fun _ => Run.projects_pure _
  | some listed =>
    refine Run.Projects.bind (by rw [reconcileAll_eq]; exact hfind listed) fun commits => ?_
    dsimp only
    split
    · exact (Run.projects_log hpart _ _).bind fun _ => (Run.projects_log hpart _ _).bind fun _ => Run.projects_pure _
    · exact (Run.projects_log hpart _ _).bind fun _ => Run.projects_pure _

/-! ## What the record holds -/

/-- Reading a reply makes no request, however it ends. -/
theorem ends_readReply (r : Reader) (spec : String) (isRunning : Bool) (printed : Bytes) (n : Nat) :
    Run.Ends (fun c : Conversation => c.requests = n) (r.readReply spec isRunning printed) (fun _ => True)
      fun _ => True := by
  have hleave : ∀ unread, Run.Ends (fun c : Conversation => c.requests = n) (leave isRunning unread) (fun _ => True)
      fun _ => True := fun _ => Run.ends_update fun _ h => h
  have hfault : ∀ {α : Type} (x : Except Fault α), Run.Ends (fun c : Conversation => c.requests = n)
      (Run.ofFault x : Talk α) (fun _ => True) fun _ => True := fun _ => Run.ends_of_keeps fun _ h => h
  unfold readReply
  rcases readLine printed with ⟨header, rest⟩
  dsimp only
  refine (hleave _).bind fun _ _ => ?_
  split
  · exact Run.ends_fail trivial
  · split
    · exact Run.ends_fail trivial
    · refine (hfault _).bind fun ⟨kind, size⟩ _ => (hfault _).bind fun ⟨content, rest⟩ _ => ?_
      refine (hleave _).bind fun _ _ => ?_
      split
      · exact Run.ends_pure trivial
      · exact Run.ends_fail trivial

/-- A request is counted once, however it ends. -/
theorem requests_readObject (r : Reader) (spec : String) (c : Conversation) :
    (Run.exec (r.readObject spec) c).2.requests = c.requests + 1 := by
  unfold readObject
  rw [Run.exec_bind_of_ok (Run.exec_state c), Run.exec_bind_of_ok (Run.exec_update _ _)]
  cases send (r.repository.replyAt c.requests) (c.helper.getD []) (Pieces.splitOn 10 (Utf8.encode spec)) with
  | running printed => exact (ends_readReply r spec true printed _ _ rfl).1
  | ended printed => exact (ends_readReply r spec false printed _ _ rfl).1
  | broken kept => rfl

/-- What is apart from the helper makes no request. -/
theorem IsApart.ends {α : Type} {t : Talk α} (ht : IsApart t) (n : Nat) :
    Run.Ends (fun c : Conversation => c.requests = n) t (fun _ => True) fun _ => True := by
  refine Run.ends_of_keeps fun c hc => ?_
  obtain ⟨c', hexec, -, hpast⟩ := ht c
  rw [hexec]
  exact (congrArg Past.requests hpast).trans hc

section Logged

variable {head : ObjectId f} {log : List (LoggedCommit f)} {good : Commit × String → Prop} {n : Nat}

/-- Reading the log makes no request, and gives its commits if it is read. -/
theorem ends_loggedCommits_printed (hname : r.repository.Prints (.verify name) (Utf8.encode (head.text ++ "\n")))
    (hlog : r.repository.Prints (.log (askedLimit limit) head.text) (LoggedCommit.log log)) (n : Nat) :
    Run.Ends (fun c : Conversation => c.requests = n) (r.loggedCommits name limit)
      (fun listed? => ∀ listed ∈ listed?, listed = log.map LoggedCommit.commit) fun _ => True := by
  have hcourse : Run.IsCourse fun c c' : Conversation => c.requests = n → c'.requests = n :=
    Run.isCourse_of_invariant (fun _ _ h => h) fun _ h => h
  have hkept : Run.Ends (fun c : Conversation => c.requests = n) (r.loggedCommits name limit) (fun _ => True)
      fun _ => True := by
    refine ((isApart_hasCommits r).ends n).bind fun hasCommits _ => ?_
    split
    · refine ((isApart_resolve r name).ends n).bind fun sha _ => ?_
      refine ((isApart_ofFault _).ends n).bind fun _ _ => ((isApart_output r _).ends n).bind fun raw _ => ?_
      refine Run.Ends.bind (Run.ends_of_keeps fun c hc => ?_) fun _ _ => Run.ends_pure trivial
      exact (RawLog.follows_commits hcourse r.location (Utf8.decodeLossy raw) c).1 hc
    · exact Run.ends_pure trivial
  have hlisted : Run.Ensures (fun _ => True) (r.loggedCommits name limit)
      fun listed? => ∀ listed ∈ listed?, listed = log.map LoggedCommit.commit := by
    have hkeeps : r.repository.Keeps fun _ => True := fun _ _ _ => trivial
    refine Run.Ensures.bind (Q := fun _ => True) (fun _ _ _ _ _ => ⟨trivial, trivial⟩) fun hasCommits _ => ?_
    split
    · refine (gives_resolve (T := False) hkeeps hname False.elim).ensures.bind ?_
      rintro _ rfl
      refine (Run.ensures_ofFault _).bind fun _ _ => ?_
      refine (gives_output (T := False) hkeeps hlog False.elim).ensures.bind ?_
      rintro _ rfl
      refine (LoggedCommit.gives_commits (T := False) (fun _ _ _ => trivial) r.location log).ensures.bind ?_
      rintro _ rfl
      exact Run.ensures_pure fun _ h => (Option.mem_some.1 h).symm
    · exact Run.ensures_pure nofun
  exact (hkept.and hlisted fun _ _ => trivial).imp fun _ h => h.2

/-- A good request is recorded. -/
theorem ends_auditedContent (r : Reader) {c : Commit} {oid : String} (hgood : good (c, oid)) :
    Run.Ends (Audit.Holds good n) (r.auditedContent c oid) (fun _ => True) fun _ => True := by
  refine Run.ends_of_keeps fun a ha => ?_
  rw [auditedContent, Run.exec_bind_of_ok (Run.exec_update _ _), Audit.talk, Run.exec_within]
  refine ⟨List.forall_mem_append.2 ⟨ha.good, List.forall_mem_singleton.2 hgood⟩, ?_⟩
  dsimp only
  rw [blobContent, requests_readObject, ha.requests, List.length_append, List.length_singleton, Nat.add_assoc]

/-- Entries of the log are no requests. -/
theorem isSilent_holds : Run.IsSilent (Audit.Holds good n) := fun _ _ h => ⟨h.good, h.requests⟩

/-- Finding the renames of logged commits asks for blobs that they remove or add. -/
theorem ends_reconcileAllBy (r : Reader) {commits : List (LoggedCommit f)}
    (hgood : ∀ c ∈ commits, ∀ id ∈ c.moved, good (c.commit, id.text)) :
    Run.Ends (Audit.Holds good n) (reconcileAllBy r.auditedContent r.limits (commits.map LoggedCommit.commit))
      (fun _ => True) fun _ => True := by
  induction commits with
  | nil => exact Run.ends_pure trivial
  | cons c rest ih =>
    obtain ⟨hfirst, hrest⟩ := List.forall_mem_cons.1 hgood
    refine (Renames.ends_reconcile isSilent_holds r.limits fun change hchange => ?_).bind fun _ _ =>
      (ih hrest).bind fun _ _ => Run.ends_pure trivial
    obtain ⟨d, hd, hd'⟩ := List.mem_filterMap.1 hchange
    refine ⟨fun hdeletion => ?_, fun haddition => ?_⟩
    · obtain ⟨id, hid, hblob⟩ := d.removed?_of_isDeletion hd' hdeletion
      rw [hblob]
      exact ends_auditedContent r (hfirst id (List.mem_append_left _ (List.mem_filterMap.2 ⟨d, hd, hid⟩)))
    · obtain ⟨id, hid, hblob⟩ := d.added?_of_isAddition hd' haddition
      rw [hblob]
      exact ends_auditedContent r (hfirst id (List.mem_append_right _ (List.mem_filterMap.2 ⟨d, hd, hid⟩)))

/-- Reading commits asks for blobs that the commits remove or add. -/
theorem ends_auditedCommits (hname : r.repository.Prints (.verify name) (Utf8.encode (head.text ++ "\n")))
    (hlog : r.repository.Prints (.log (askedLimit limit) head.text) (LoggedCommit.log log))
    (hgood : ∀ c ∈ log, ∀ id ∈ c.moved, good (c.commit, id.text)) :
    Run.Ends (Audit.Holds good n) (r.auditedCommits name limit) (fun _ => True) fun _ => True := by
  have hlisted : Run.Ends (Audit.Holds good n) (Audit.talk (r.loggedCommits name limit))
      (fun listed? => ∀ listed ∈ listed?, listed = log.map LoggedCommit.commit) fun _ => True := by
    intro a ha
    have hend := ends_loggedCommits_printed hname hlog a.conversation.requests a.conversation rfl
    rw [Audit.talk, Run.exec_within]
    exact ⟨⟨ha.good, hend.1.trans ha.requests⟩, hend.2⟩
  have hlogged : ∀ level text, Run.Ends (Audit.Holds good n) (Run.log level text) (fun _ => True) fun _ => True :=
    Run.ends_log isSilent_holds
  refine hlisted.bind fun listed? hlisted? => ?_
  cases listed? with
  | none => exact (hlogged _ _).bind fun _ _ => Run.ends_pure trivial
  | some listed =>
    obtain rfl := hlisted? listed rfl
    refine (ends_reconcileAllBy r hgood).bind fun commits _ => ?_
    dsimp only
    split
    · exact (hlogged _ _).bind fun _ _ => (hlogged _ _).bind fun _ _ => Run.ends_pure trivial
    · exact (hlogged _ _).bind fun _ _ => Run.ends_pure trivial

end Logged

/-! ## The law -/

/-- The blobs of the changes of commits that are read are blobs of the commits of the log. -/
theorem exists_mem_blobs_of_returns {r : Reader} {name : String} {limit : Value} {head : ObjectId f}
    {log : List (LoggedCommit f)}
    (hname : r.repository.Prints (.verify name) (Utf8.encode (head.text ++ "\n")))
    (hlog : r.repository.Prints (.log (askedLimit limit) head.text) (LoggedCommit.log log)) {s s' : Conversation}
    {commits : List Commit} (hreturns : (r.commits name limit).Returns s commits s') {c : Commit} (hc : c ∈ commits) :
    ∃ l ∈ log, c.sha = l.sha.text ∧ ∀ change ∈ c.changes, ∀ text,
      change.oldBlob = some text ∨ change.newBlob = some text → ∃ id ∈ l.blobs, text = id.text := by
  rw [commits_eq] at hreturns
  obtain ⟨listed?, t, hlisted, hreported⟩ := Run.returns_bind.1 hreturns
  have hlisted? := ((ends_loggedCommits_printed hname hlog s.requests).of_returns rfl hlisted).1
  cases listed? with
  | none =>
    obtain ⟨_, _, -, hreported⟩ := Run.returns_bind.1 hreported
    obtain ⟨rfl, -⟩ := Run.returns_pure.1 hreported
    cases hc
  | some listed =>
    obtain rfl := hlisted? listed rfl
    have hall := List.forall₂_map_right_iff.1 (ensures_reported _ t commits s' trivial hreported).1
    obtain ⟨l, hl, hsha, hreconciled⟩ := exists_mem_of_forall₂ hall hc
    exact ⟨l, hl, hsha, fun change hchange text htext => l.exists_mem_blobs_of_reconciled hreconciled hchange htext⟩

/-- A record of the blobs that are asked for has no influence on the commits that are read, and it is complete. Every
request is for a blob that its commit removes or adds, and so never for no object, and the blobs of the changes that
are found are blobs of their commits. If no object is both a blob and a commit, links to commits of other repositories
are neither asked for nor taken for blobs of changes. -/
theorem requests_only_moved_blobs {r : Reader} {name : String} {limit : Value} {head : ObjectId f}
    {log : List (LoggedCommit f)}
    (hname : r.repository.Prints (.verify name) (Utf8.encode (head.text ++ "\n")))
    (hlog : r.repository.Prints (.log (askedLimit limit) head.text) (LoggedCommit.log log)) (s : Conversation) :
    ∃ asked : List (Commit × String),
      Run.exec (r.auditedCommits name limit) ⟨s, []⟩ =
        ((Run.exec (r.commits name limit) s).1, ⟨(Run.exec (r.commits name limit) s).2, asked⟩) ∧
      (Run.exec (r.commits name limit) s).2.requests = s.requests + asked.length ∧
      (∀ q ∈ asked, ∃ c ∈ log, q.1 = c.commit ∧ ∃ id ∈ c.moved, q.2 = id.text) ∧
      (∀ q ∈ asked, RawLog.isNull q.2 = false) ∧
      (∀ commits s', (r.commits name limit).Returns s commits s' → ∀ c ∈ commits, ∃ l ∈ log, c.sha = l.sha.text ∧
        ∀ change ∈ c.changes, ∀ text, change.oldBlob = some text ∨ change.newBlob = some text →
          ∃ id ∈ l.blobs, text = id.text) ∧
      (LoggedCommit.AreApart log → ∀ l ∈ log, ∀ link ∈ l.links, (∀ q ∈ asked, q.2 ≠ link.text) ∧
        ∀ commits s', (r.commits name limit).Returns s commits s' → ∀ c ∈ commits, ∀ change ∈ c.changes,
          change.oldBlob ≠ some link.text ∧ change.newBlob ≠ some link.text) := by
  have hproject := projects_auditedCommits r name limit ⟨s, []⟩
  have hends : Run.Ends (Audit.Holds (fun q => ∃ c ∈ log, q.1 = c.commit ∧ ∃ id ∈ c.moved, q.2 = id.text) s.requests)
      (r.auditedCommits name limit) (fun _ => True) fun _ => True :=
    ends_auditedCommits hname hlog fun c hc id hid => ⟨c, hc, rfl, id, hid, rfl⟩
  have hholds := (hends ⟨s, []⟩ ⟨List.forall_mem_nil _, rfl⟩).1
  refine ⟨(Run.exec (r.auditedCommits name limit) ⟨s, []⟩).2.asked, ?_, ?_, hholds.good, ?_,
    fun commits s' hreturns c hc => exists_mem_blobs_of_returns hname hlog hreturns hc, ?_⟩
  · rw [hproject]
  · rw [hproject]
    exact hholds.requests
  · intro q hq
    obtain ⟨-, -, -, id, -, htext⟩ := hholds.good q hq
    rw [htext]
    exact id.isNull_eq
  · intro hapart l hl link hlink
    have hne : ∀ c ∈ log, ∀ id ∈ c.blobs, id.text ≠ link.text := fun c hc id hid htext =>
      hapart c hc l hl id hid (ObjectId.eq_of_text htext ▸ hlink)
    refine ⟨fun q hq => ?_, fun commits s' hreturns c hc change hchange => ?_⟩
    · obtain ⟨c, hc, -, id, hid, htext⟩ := hholds.good q hq
      rw [htext]
      exact hne c hc id (LoggedCommit.mem_blobs_of_mem_moved hid)
    · obtain ⟨c', hc', -, hsides⟩ := exists_mem_blobs_of_returns hname hlog hreturns hc
      refine ⟨fun hold => ?_, fun hnew => ?_⟩
      · obtain ⟨id, hid, htext⟩ := hsides change hchange _ (.inl hold)
        exact hne c' hc' id hid htext.symm
      · obtain ⟨id, hid, htext⟩ := hsides change hchange _ (.inr hnew)
        exact hne c' hc' id hid htext.symm

/-- A file gives way to a link and another file is added: to find renames among the changes of the commit the blobs of
the two files are asked for, and reading the commits never asks for the link. -/
theorem requests_of_file_that_gives_way_to_link :
    let link : ObjectId .sha1 := .repeated .sha1 'a' (by decide) (by decide)
    let old : ObjectId .sha1 := .repeated .sha1 'd' (by decide) (by decide)
    let new : ObjectId .sha1 := .repeated .sha1 'e' (by decide) (by decide)
    let log : List (LoggedCommit .sha1) := [
      { sha := .repeated .sha1 'c' (by decide) (by decide), parents := [], time := 0, length_le := by decide
        emptyLines := 1
        differences := [⟨⟨[0x61], by decide, by decide⟩, some (.file false old), some (.gitlink link), nofun⟩,
          ⟨⟨[0x62], by decide, by decide⟩, none, some (.file false new), nofun⟩] }]
    let head : ObjectId .sha1 := .repeated .sha1 'c' (by decide) (by decide)
    let r : Reader := { repository := .ofLog head log [] fun _ => some (.blob, []), location := "." }
    r.repository.Prints (.verify "HEAD") (Utf8.encode (head.text ++ "\n")) ∧
      r.repository.Prints (.log (askedLimit (.int 0)) head.text) (LoggedCommit.log log) ∧
      LoggedCommit.AreApart log ∧
      (Run.exec (reconcileAllBy r.auditedContent r.limits (log.map LoggedCommit.commit)) ⟨{}, []⟩).2.asked.map Prod.snd =
        [old.text, new.text] ∧
      ∀ q ∈ (Run.exec (r.auditedCommits "HEAD" (.int 0)) ⟨{}, []⟩).2.asked, q.2 ≠ link.text := by
  intro link old new log head r
  have hname : r.repository.Prints (.verify "HEAD") (Utf8.encode (head.text ++ "\n")) := Repository.prints_of_answer rfl
  have hlog : r.repository.Prints (.log (askedLimit (.int 0)) head.text) (LoggedCommit.log log) :=
    Repository.prints_of_answer rfl
  have hapart : LoggedCommit.AreApart log := by
    unfold LoggedCommit.AreApart
    decide +kernel
  obtain ⟨asked, hexec, -, -, -, -, hlinks⟩ := requests_only_moved_blobs hname hlog {}
  refine ⟨hname, hlog, hapart, by decide +kernel, ?_⟩
  rw [hexec]
  exact (hlinks hapart _ List.mem_cons_self link (by decide +kernel)).1

end Reader

end Hotspots
