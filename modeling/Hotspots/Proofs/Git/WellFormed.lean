import Hotspots.Proofs.Git.Described
import Hotspots.Proofs.Git.Opening

/-!
# A repository that can be read

Every command of a well-formed repository that the system starts comes to an end, and what it prints if it succeeds is
what its readers expect: the name of a commit, a log, a listing of a tree. Whatever such a repository is asked for,
reading it gives a result or fails in a way that this tool reports as its own. Only a revision that the system does not
pass on to a command is in the way of that, and a limit on the number of commits that is too long to be written
(`Reader.ends_commits`).
-/

namespace Hotspots

variable {f : ObjectFormat}

/-- A failure that this tool reports as its own. -/
def Failure.IsTriage (e : Failure) : Prop := ∃ t, e = .triage t

/-- A failure tells whether it is one of this tool. -/
instance : DecidablePred Failure.IsTriage
  | .triage t => isTrue ⟨t, rfl⟩
  | .fault _ => isFalse nofun
  | .interrupted => isFalse nofun

/-- Faults are not reported as failures of this tool. -/
theorem Failure.not_isTriage_fault (fault : Fault) : ¬IsTriage (.fault fault) := nofun

/-- The text of an identifier has a byte for every digit. -/
theorem ObjectId.length_encode (id : ObjectId f) : (Utf8.encode id.text).length = f.width := by
  rw [Utf8.encode, Utf8.encodeChars_of_isAscii id.isAscii, List.length_map, id.length_eq]

/-- A command whose arguments are fixed, or names that the repository has printed. -/
def GitCommand.IsPlain (f : ObjectFormat) : GitCommand → Prop
  | gitDir => True
  | verify revision => revision = "HEAD" ∨ ∃ id : ObjectId f, revision = id.text
  | log _ sha => ∃ id : ObjectId f, sha = id.text
  | listTree sha => ∃ id : ObjectId f, sha = id.text

namespace Repository

/-- A command that the system starts. -/
def Starts (repository : Repository) (c : GitCommand) : Prop := ∀ fault, repository.answer c ≠ .refused fault

/-- A repository whose commands all come to an end if the system starts them, whether they succeed or not, and print
what they are asked for if they succeed. The system waits for them as it does and starts them unless they are asked for
a revision that it cannot pass on. Sizes of outputs fit in machine words, and the helper answers or ends, but leaves no
line unsent. -/
structure IsWellFormed (repository : Repository) (f : ObjectFormat) : Prop where
  waits : repository.waitFault? = Wait.fault?
  starts : ∀ c, c.IsPlain f → repository.Starts c
  exits : ∀ c, repository.Starts c →
    ∃ code output complaint, repository.answer c = .exited code output complaint ∧ output.length < 2 ^ 63
  verify : ∀ name, ∃ id : ObjectId f, repository.Prints (.verify name) (Utf8.encode (id.text ++ "\n"))
  log : ∀ newest sha, ∃ log : List (LoggedCommit f), repository.Prints (.log newest sha) (LoggedCommit.log log)
  listing : ∀ sha, ∃ tree : List (RawPath × TreeNode f), repository.Prints (.listTree sha) (RawPath.listing tree)
  speaks : ∃ answers, repository.Speaks answers ∧ ∀ time line, (answers time line).leavesUnsent = false

/-- There is a repository at a path, and it has commits. -/
structure HasCommits (repository : Repository) (path : String) : Prop where
  locate : (repository.locate path).isSome = true
  gitDir : repository.Succeeds .gitDir
  head : repository.Succeeds (.verify "HEAD")

/-- There is a repository at a path, and it has commits and knows a revision. -/
structure Knows (repository : Repository) (path revision : String) : Prop extends repository.HasCommits path where
  revision : repository.Succeeds (.verify revision)

/-- A command that succeeds was started. -/
theorem Succeeds.starts {repository : Repository} {c : GitCommand} (h : repository.Succeeds c) :
    repository.Starts c := by
  intro fault hrefused
  obtain ⟨output, complaint, hanswer⟩ := h
  cases hanswer.symm.trans hrefused

/-- A repository with one revision whose helper shows a blob for every identifier is well-formed. -/
theorem isWellFormed_ofLog {head : ObjectId f} {log : List (LoggedCommit f)} {tree : List (RawPath × TreeNode f)}
    {store : ObjectStore f} (hlog : (LoggedCommit.log log).length < 2 ^ 63)
    (hlisting : (RawPath.listing tree).length < 2 ^ 63)
    (hstore : ∀ id, ∃ content, store id = some (.blob, content) ∧ content.length < 2 ^ 63) :
    (ofLog head log tree store).IsWellFormed f where
  waits := rfl
  starts c _ := by cases c <;> nofun
  exits c _ := by
    cases c with
    | gitDir => exact ⟨0, [], [], rfl, Nat.two_pow_pos 63⟩
    | verify name =>
      refine ⟨0, _, [], rfl, ?_⟩
      rw [Utf8.encode_append, List.length_append, head.length_encode]
      cases f <;> decide
    | log newest sha => exact ⟨0, _, [], rfl, hlog⟩
    | listTree sha => exact ⟨0, _, [], rfl, hlisting⟩
  verify _ := ⟨head, prints_of_answer rfl⟩
  log _ _ := ⟨log, prints_of_answer rfl⟩
  listing _ := ⟨tree, prints_of_answer rfl⟩
  speaks := by
    choose content hblob hfits using hstore
    let shown (id : ObjectId f) : HelperAnswer := .object ⟨Utf8.encode id.text, Utf8.encode "blob", content id,
      Reader.isByteWord_text id, Reader.isByteWord_name .blob, hfits id⟩
    refine ⟨fun _ line => ((ObjectId.ofText? (Utf8.decodeLossy line)).map shown).getD .ends, fun time line _ => ?_,
      fun _ line => ?_⟩
    · unfold replyAt
      dsimp only [ofLog]
      cases (ObjectId.ofText? (Utf8.decodeLossy line) : Option (ObjectId f)) with
      | none => rfl
      | some id =>
        dsimp only
        rw [ObjectStore.shown, hblob]
        rfl
    · dsimp only
      cases ObjectId.ofText? (Utf8.decodeLossy line) <;> rfl

end Repository

/-! ## Few changes -/

/-- A list is no longer than what it is turned into if every element is turned into something. -/
theorem length_le_length_flatMap {α β : Type} {g : α → List β} (hg : ∀ a, 0 < (g a).length) (l : List α) :
    l.length ≤ (l.flatMap g).length := by
  induction l with
  | nil => exact Nat.le_refl 0
  | cons a rest ih =>
    have ha := hg a
    rw [List.flatMap_cons, List.length_append, List.length_cons]
    omega

/-- An element of one of two related lists is related to an element of the other. -/
theorem exists_mem_of_forall₂ {α β : Type} {R : α → β → Prop} {as : List α} {bs : List β} (h : List.Forall₂ R as bs)
    {a : α} (ha : a ∈ as) : ∃ b ∈ bs, R a b := by
  induction h with
  | nil => cases ha
  | cons hfirst _ ih =>
    rcases List.mem_cons.1 ha with rfl | hrest
    · exact ⟨_, List.mem_cons_self, hfirst⟩
    · exact (ih hrest).imp fun _ h => h.imp_left (List.mem_cons_of_mem _)

namespace LoggedCommit

/-- The output for a commit has a line for every difference. -/
theorem length_differences_le (c : LoggedCommit f) : c.differences.length ≤ c.output.length := by
  have hlines : c.printedLines.length ≤ (c.printedLines.flatMap (· ++ [10])).length :=
    length_le_length_flatMap (by simp) _
  simp only [printedLines, List.length_cons, List.length_append, List.length_map, List.length_replicate] at hlines
  simp only [output, printedLines, List.length_cons]
  omega

/-- Finding renames among the changes of a commit leaves no more of them than there are differences. -/
theorem length_le_of_reconciled (c : LoggedCommit f) {changes : List FileChange}
    (h : Renames.Reconciled c.commit.changes changes) : changes.length ≤ c.differences.length := by
  have htouched : changes.length ≤ (changes.flatMap FileChange.touched).length := by
    refine length_le_length_flatMap (fun change => ?_) changes
    unfold FileChange.touched
    split <;> simp
  rw [(h.flatMap_perm Walk.conserved_touched).length_eq, c.flatMap_touched_changes, changedPaths, List.length_map,
    List.length_map] at htouched
  exact htouched.trans (List.length_filter_le _ _)

/-- The commits of a log have no more changes together than the log has bytes. -/
theorem length_changes_le {log : List (LoggedCommit f)} {commits : List Commit}
    (h : List.Forall₂ (fun c l => c.sha = l.sha ∧ Renames.Reconciled l.changes c.changes) commits (log.map commit)) :
    (commits.flatMap Commit.changes).length ≤ (LoggedCommit.log log).length := by
  rw [List.forall₂_map_right_iff] at h
  induction h with
  | nil => exact Nat.zero_le _
  | @cons c l commits log hfirst _ ih =>
    have hchanges := (l.length_le_of_reconciled hfirst.2).trans l.length_differences_le
    simp only [LoggedCommit.log, List.flatMap_cons, List.length_append] at ih ⊢
    omega

end LoggedCommit

/-! ## Renames -/

namespace Renames

variable {σ : Type} {P : σ → Prop} {E : Failure → Prop} {load : String → Run σ Bytes}

/-- Contents are loaded unless one of them cannot be. -/
theorem ends_loadAll {blob : FileChange → Option String} {changes : List FileChange}
    (hload : ∀ c ∈ changes, Run.Ends P (load ((blob c).getD "")) (fun _ => True) E) (contents : Contents) :
    Run.Ends P (loadAll load blob contents changes) (fun _ => True) E := by
  induction changes generalizing contents with
  | nil => exact Run.ends_pure trivial
  | cons c rest ih =>
    exact (hload c List.mem_cons_self).bind fun _ _ => ih (fun d hd => hload d (List.mem_cons_of_mem _ hd)) _

/-- Renames are found unless a content that a deletion or an addition names cannot be loaded. -/
theorem ends_reconcile [HasSession σ] (hP : Run.IsSilent P) (l : Limits) {changes : List FileChange}
    (hload : ∀ c ∈ changes, (isDeletion c = true → Run.Ends P (load (c.oldBlob.getD "")) (fun _ => True) E) ∧
      (isAddition c = true → Run.Ends P (load (c.newBlob.getD "")) (fun _ => True) E)) :
    Run.Ends P (reconcile load l changes) (fun _ => True) E := by
  have hsettle : ∀ s pairs, Run.Ends P (settle s pairs) (· = s.takeAll pairs) E := fun s pairs =>
    (Run.ends_logAll hP _).bind fun _ _ => Run.ends_pure rfl
  have hold : ∀ c ∈ (leftOf changes).deleted, Run.Ends P (load (c.oldBlob.getD "")) (fun _ => True) E := by
    intro c hc
    obtain ⟨hlisted, hdeletion⟩ := List.mem_filter.1 ((Sides.deleted_takeAll_sublist _ _).subset hc)
    exact (hload c hlisted).1 hdeletion
  have hnew : ∀ c ∈ (leftOf changes).added, Run.Ends P (load (c.newBlob.getD "")) (fun _ => True) E := by
    intro c hc
    obtain ⟨hlisted, haddition⟩ := List.mem_filter.1 ((Sides.added_takeAll_sublist _ _).subset hc)
    exact (hload c hlisted).2 haddition
  have hcontents : Run.Ends P (reconcileContents load l (leftOf changes)) (fun _ => True) E := by
    unfold reconcileContents
    split
    · exact (Run.ends_log hP _ _).bind fun _ _ => Run.ends_pure trivial
    · refine (ends_loadAll hold []).bind fun _ _ => (ends_loadAll hnew []).bind fun _ _ => ?_
      exact (hsettle _ _).imp fun _ _ => trivial
  refine (hsettle _ _).bind fun left hleft => ?_
  subst hleft
  split
  · exact hcontents.bind fun _ _ => Run.ends_pure trivial
  · exact Run.ends_pure trivial

end Renames

/-! ## Reading -/

/-- An answer of the helper that gives no content leads to a failure of its own. -/
theorem HelperAnswer.isTriage_of_outcome {answer : HelperAnswer} {r : Reader} {noBlob e : Failure}
    (hnoBlob : noBlob.IsTriage) (h : answer.outcome r noBlob = .error e) : e.IsTriage := by
  cases answer with
  | object o =>
    rw [outcome] at h
    split at h
    · cases h
    · cases h
      exact hnoBlob
  | missing =>
    cases h
    exact hnoBlob
  | ambiguous =>
    cases h
    exact hnoBlob
  | ends =>
    cases h
    exact ⟨_, rfl⟩
  | broken kept =>
    cases h
    exact ⟨_, rfl⟩

namespace Reader

open Conversation (IsClear)
open Failure (IsTriage)

variable {r : Reader} {P : Conversation → Prop} {E : Failure → Prop} {revision : String} {limit : Value}

/-- A command is run to its end. -/
theorem ends_run (h : r.repository.IsWellFormed f) (hP : r.repository.Keeps P) {c : GitCommand}
    (hc : r.repository.Starts c) :
    Run.Ends P (r.run c) (fun ended => r.repository.answer c = .exited ended.1 ended.2.1 ended.2.2) E := by
  obtain ⟨code, output, complaint, hanswer, -⟩ := h.exits c hc
  refine (gives_execute (T := True) hP c).ends.bind fun ending hending => ?_
  rw [hending, hanswer]
  exact Run.ends_pure rfl

/-- A command that must succeed gives its output or fails. -/
theorem ends_output (h : r.repository.IsWellFormed f) (hP : r.repository.Keeps P) {c : GitCommand}
    (hc : r.repository.Starts c) :
    Run.Ends P (r.output c) (fun output => ∃ complaint, r.repository.answer c = .exited 0 output complaint)
      IsTriage := by
  refine (ends_run h hP hc).bind fun (code, output, complaint) hanswer => ?_
  dsimp only at hanswer ⊢
  split
  · next hcode => exact Run.ends_pure ⟨complaint, hcode ▸ hanswer⟩
  · exact Run.ends_fail ⟨_, rfl⟩

/-- There are commits only if the head is one. -/
theorem ends_hasCommits (h : r.repository.IsWellFormed f) (hP : r.repository.Keeps P) :
    Run.Ends P r.hasCommits (fun b => b = true → r.repository.Succeeds (.verify "HEAD")) E := by
  refine (ends_run h hP (h.starts (.verify "HEAD") (.inl rfl))).bind fun (code, output, complaint) hanswer =>
    Run.ends_pure fun hcode => ?_
  obtain rfl : code = 0 := of_decide_eq_true hcode
  exact ⟨output, complaint, hanswer⟩

/-- A revision that the system passes on is resolved to the name of a commit unless it is unknown. -/
theorem ends_resolve (h : r.repository.IsWellFormed f) (hP : r.repository.Keeps P)
    (hrevision : r.repository.Starts (.verify revision)) :
    Run.Ends P (r.resolve revision)
      (fun sha => r.repository.Succeeds (.verify revision) ∧ ∃ id : ObjectId f, sha = id.text) IsTriage := by
  by_cases hknown : r.repository.Succeeds (.verify revision)
  · obtain ⟨id, hprints⟩ := h.verify revision
    exact (gives_resolve (T := True) hP hprints fun _ => hknown).ends.imp fun _ hsha => ⟨hknown, id, hsha⟩
  · refine (ends_run h hP hrevision).bind fun (code, output, complaint) hanswer => ?_
    have hcode : code ≠ 0 := by
      rintro rfl
      exact hknown ⟨output, complaint, hanswer⟩
    dsimp only
    rw [if_neg hcode]
    exact Run.ends_fail ⟨_, rfl⟩

/-! ## Trees and contents -/

/-- The files of a revision are read with the identifiers of their blobs. -/
theorem ends_treeEntries (h : r.repository.IsWellFormed f) (hP : r.repository.Keeps P)
    (hrevision : r.repository.Starts (.verify revision)) :
    Run.Ends P (r.treeEntries revision)
      (fun entries => ∀ path oid, Record.get? path entries = some oid → ∃ id : ObjectId f, oid = id.text) IsTriage := by
  refine (ends_resolve h hP hrevision).bind fun sha ⟨_, hsha⟩ => ?_
  refine (ends_output h hP (h.starts (.listTree sha) hsha)).bind fun listing ⟨complaint, hanswer⟩ => ?_
  obtain ⟨tree, hprints⟩ := h.listing sha
  obtain rfl := hprints listing complaint hanswer
  refine (Run.ends_ofFault (Q := (· = RawPath.fileBlobs tree)) (entriesOfListing_rawPaths tree) rfl).bind ?_
  rintro entries rfl
  refine Run.ends_pure fun path oid hget => ?_
  obtain ⟨⟨_, node⟩, -, heq⟩ := List.mem_map.1 (Record.mem_of_get?_putAll hget)
  exact ⟨node.id, (Prod.mk.inj heq).2.symm⟩

/-- The files of a revision are listed. -/
theorem ends_listFiles (h : r.repository.IsWellFormed f) (hP : r.repository.Keeps P)
    (hrevision : r.repository.Starts (.verify revision)) :
    Run.Ends P (r.listFiles revision) (fun _ => True) IsTriage :=
  (ends_treeEntries h hP hrevision).bind fun _ _ => Run.ends_pure trivial

/-- A blob is read or is not there. -/
theorem ends_blobContent (h : r.repository.IsWellFormed f) {oid : String} (hoid : '\n' ∉ oid.toList) :
    Run.Ends IsClear (r.blobContent oid) (fun _ => True) IsTriage := by
  intro s hs
  obtain ⟨answers, hspeaks, hsent⟩ := h.speaks
  obtain ⟨s', hexec, hs', -, hunsent⟩ := exec_readObject hspeaks hoid hs.1
  rw [blobContent, hexec]
  refine ⟨⟨hs', hunsent.trans (hsent _ _)⟩, ?_⟩
  dsimp only
  cases houtcome : (answers s.requests (Utf8.encode oid)).outcome r (.notFound oid none) with
  | ok content => trivial
  | error e => exact HelperAnswer.isTriage_of_outcome ⟨_, rfl⟩ houtcome

/-- Files are read unless one of them is not there. -/
theorem ends_readAll (h : r.repository.IsWellFormed f) (revision : String) {entries : List (String × String)}
    (hentries : ∀ path oid, Record.get? path entries = some oid → ∃ id : ObjectId f, oid = id.text)
    (contents : List (String × Bytes)) (paths : List String) :
    Run.Ends IsClear (r.readAll revision entries contents paths) (fun _ => True) IsTriage := by
  induction paths generalizing contents with
  | nil => exact Run.ends_pure trivial
  | cons path rest ih =>
    rw [readAll]
    cases hget : Record.get? path entries with
    | none => exact Run.ends_fail ⟨_, rfl⟩
    | some oid =>
      obtain ⟨id, rfl⟩ := hentries path oid hget
      exact (ends_blobContent h (newline_not_mem_text id)).bind fun content _ => ih _

/-- The contents of files of a revision are read unless one of them is not there. -/
theorem ends_snapshot (h : r.repository.IsWellFormed f) (hrevision : r.repository.Starts (.verify revision))
    (paths : Option (List String)) : Run.Ends IsClear (r.snapshot revision paths) (fun _ => True) IsTriage :=
  (ends_treeEntries h (keeps_isClear _) hrevision).bind fun _ hentries => ends_readAll h revision hentries [] _

/-! ## Commits -/

/-- The renames of logged commits are found unless a content is not there. -/
theorem ends_reconcileAll (h : r.repository.IsWellFormed f) (log : List (LoggedCommit f)) :
    Run.Ends IsClear (r.reconcileAll (log.map LoggedCommit.commit)) (fun _ => True) IsTriage := by
  induction log with
  | nil => exact Run.ends_pure trivial
  | cons c rest ih =>
    refine (Renames.ends_reconcile isSilent_isClear r.limits fun change hchange => ?_).bind fun _ _ =>
      ih.bind fun _ _ => Run.ends_pure trivial
    obtain ⟨d, -, hd⟩ := List.mem_filterMap.1 hchange
    have hplain : ∀ blob, change.oldBlob = blob ∨ change.newBlob = blob → '\n' ∉ (blob.getD "").toList := by
      intro blob hblob
      cases blob with
      | none => exact List.not_mem_nil
      | some text =>
        have hside := Difference.blobOf_of_change? hd hblob
        obtain ⟨id, rfl⟩ := hside.elim TreeNode.exists_id_of_blobOf TreeNode.exists_id_of_blobOf
        exact newline_not_mem_text id
    exact ⟨fun _ => ends_blobContent h (hplain _ (.inl rfl)), fun _ => ends_blobContent h (hplain _ (.inr rfl))⟩

/-- The commits of the log are read, if the revision is passed on and the limit on their number can be written. -/
theorem ends_loggedCommits (h : r.repository.IsWellFormed f)
    (hrevision : r.repository.Succeeds (.verify "HEAD") → r.repository.Starts (.verify revision))
    (hlimit : r.repository.Succeeds (.verify "HEAD") → r.repository.Succeeds (.verify revision) →
      checkLimit limit = .ok ()) :
    Run.Ends IsClear (r.loggedCommits revision limit) (fun listed? => ∀ listed ∈ listed?,
      ∃ log : List (LoggedCommit f), listed = log.map LoggedCommit.commit ∧
        (LoggedCommit.log log).length < 2 ^ 63) IsTriage := by
  have hP := keeps_isClear r.repository
  refine (ends_hasCommits h hP).bind fun hasCommits hhead => ?_
  cases hasCommits with
  | false => exact Run.ends_pure nofun
  | true =>
    rw [if_pos rfl]
    refine (ends_resolve h hP (hrevision (hhead rfl))).bind fun sha ⟨hknown, hsha⟩ => ?_
    refine (Run.ends_ofFault (Q := fun _ => True) (hlimit (hhead rfl) hknown) trivial).bind fun _ _ => ?_
    have hstarts : r.repository.Starts (.log (askedLimit limit) sha) := h.starts _ hsha
    refine (ends_output h hP hstarts).bind fun raw ⟨complaint, hanswer⟩ => ?_
    obtain ⟨log, hprints⟩ := h.log (askedLimit limit) sha
    obtain ⟨code, output, complaint', hexits, hfits⟩ := h.exits _ hstarts
    rw [hanswer] at hexits
    injection hexits with _ houtput
    obtain rfl := hprints raw complaint hanswer
    refine (LoggedCommit.gives_commits (T := True) isSilent_isClear r.location log).ends.bind ?_
    rintro listed rfl
    exact Run.ends_pure fun _ hlisted => ⟨log, (Option.mem_some.1 hlisted).symm, houtput ▸ hfits⟩

/-- The commits of a revision are read, if it is passed on and the limit on their number can be written. They have the
names of commits, and their changes are no more than a machine word can count. -/
theorem ends_commits (h : r.repository.IsWellFormed f)
    (hrevision : r.repository.Succeeds (.verify "HEAD") → r.repository.Starts (.verify revision))
    (hlimit : r.repository.Succeeds (.verify "HEAD") → r.repository.Succeeds (.verify revision) →
      checkLimit limit = .ok ()) :
    Run.Ends IsClear (r.commits revision limit)
      (fun commits => (∀ c ∈ commits, ∃ id : ObjectId f, c.sha = id.text) ∧
        (commits.flatMap Commit.changes).length < 2 ^ 63) IsTriage := by
  rw [commits_eq]
  refine (ends_loggedCommits h hrevision hlimit).bind fun listed? hlisted? => ?_
  cases listed? with
  | none =>
    refine (Run.ends_log isSilent_isClear _ _).bind fun _ _ => Run.ends_pure ⟨?_, Nat.two_pow_pos 63⟩
    exact fun _ hc => absurd hc List.not_mem_nil
  | some listed =>
    obtain ⟨log, rfl, hfits⟩ := hlisted? listed rfl
    have hreported : Run.Ends IsClear (r.reported limit (some (log.map LoggedCommit.commit))) (fun _ => True)
        IsTriage := by
      refine (ends_reconcileAll h log).bind fun commits _ => ?_
      dsimp only
      have hend : Run.Ends IsClear (do
          Run.log .info ("Read " ++ natText commits.length ++ " commits from " ++ r.location)
          return commits) (fun _ => True) IsTriage :=
        (Run.ends_log isSilent_isClear _ _).bind fun _ _ => Run.ends_pure trivial
      split
      · exact (Run.ends_log isSilent_isClear _ _).bind fun _ _ => hend
      · exact hend
    -- Finding renames only joins changes, and each of them has a line in the log.
    refine (hreported.and (ensures_reported _) fun _ _ => trivial).imp fun commits hcommits => ⟨fun c hc => ?_, ?_⟩
    · obtain ⟨l, hl, hsha, -⟩ := exists_mem_of_forall₂ hcommits.2 hc
      obtain ⟨logged, -, rfl⟩ := List.mem_map.1 hl
      exact ⟨logged.sha, hsha⟩
    · exact Nat.lt_of_le_of_lt (LoggedCommit.length_changes_le hcommits.2) hfits

/-! ## Opening -/

/-- A well-formed repository is opened or there is none, unless the system does not tell whether it is there, or does
not wait for its commands. -/
theorem failsBeyond_openAt_iff {repository : Repository} {path : String} {timeout : Value} {limits : Renames.Limits}
    {s : Conversation} (h : repository.IsWellFormed f) :
    Run.FailsBeyond IsTriage (openAt repository path timeout limits) s ↔ repository.refuses? path ≠ none ∨
      (repository.locate path).isSome = true ∧ repository.waitFault? timeout ≠ none := by
  cases hrefuses : repository.refuses? path with
  | some fault =>
    refine iff_of_true ⟨.fault fault, ?_, Failure.not_isTriage_fault fault⟩ (.inl (by simp))
    rw [openAt, hrefuses]
    rfl
  | none =>
    cases hlocate : repository.locate path with
    | none =>
      refine iff_of_false ?_ (by simp)
      rintro ⟨e, he, hbeyond⟩
      simp only [openAt, hrefuses, hlocate] at he
      cases he
      exact hbeyond ⟨_, rfl⟩
    | some location =>
      obtain ⟨code, output, complaint, hanswer, -⟩ := h.exits .gitDir (h.starts .gitDir trivial)
      rw [Run.FailsBeyond, exec_openAt hrefuses hlocate, hanswer]
      cases hwait : repository.waitFault? timeout with
      | some fault => exact iff_of_true ⟨_, rfl, Failure.not_isTriage_fault fault⟩ (.inr ⟨rfl, by simp⟩)
      | none =>
        refine iff_of_false ?_ (by simp)
        rw [openingFailure?]
        split
        · next hfailure =>
          rintro ⟨_, ⟨⟩, hbeyond⟩
          split at hfailure
          · cases hfailure
          · cases hfailure
            exact hbeyond ⟨_, rfl⟩
        · rintro ⟨_, ⟨⟩, -⟩

/-! ## Commits that cannot be asked for -/

/-- Commits are found if the head is one. -/
theorem exists_returns_hasCommits (hhead : r.repository.Succeeds (.verify "HEAD")) (s : Conversation) :
    ∃ s', r.hasCommits.Returns s true s' := by
  have hkeeps : r.repository.Keeps fun _ => True := fun _ _ _ => trivial
  have hcode : ∀ code printed complaint,
      r.repository.answer (.verify "HEAD") = .exited code printed complaint → code = 0 := by
    intro code printed complaint hexits
    obtain ⟨output, complaint', hanswer⟩ := hhead
    cases hanswer.symm.trans hexits
    rfl
  exact (gives_hasCommits_true (T := True) hkeeps hcode fun _ => hhead).returns trivial s trivial

/-- The commits of a revision that the system does not pass on are not read. -/
theorem failsBeyond_commits_of_refused (hhead : r.repository.Succeeds (.verify "HEAD"))
    (hrevision : ¬r.repository.Starts (.verify revision)) (limit : Value) (s : Conversation) :
    Run.FailsBeyond IsTriage (r.commits revision limit) s := by
  obtain ⟨fault, hrefused⟩ : ∃ fault, r.repository.answer (.verify revision) = .refused fault := by
    simpa [Repository.Starts] using hrevision
  obtain ⟨s₁, hcommits⟩ := exists_returns_hasCommits hhead s
  have hrun : Run.FailsBeyond IsTriage (r.run (.verify revision)) s₁ := by
    refine Run.failsBeyond_bind.2 (.inr ⟨_, _, exec_execute r.repository (.verify revision) s₁, ?_⟩)
    rw [hrefused]
    exact ⟨_, rfl, Failure.not_isTriage_fault fault⟩
  have hresolve : Run.FailsBeyond IsTriage (r.resolve revision) s₁ := Run.failsBeyond_bind.2 (.inl hrun)
  exact Run.failsBeyond_bind.2 (.inr ⟨true, s₁, hcommits, Run.failsBeyond_bind.2 (.inl hresolve)⟩)

/-- The commits of a revision that is known are not read under a limit that cannot be written. -/
theorem failsBeyond_commits_of_limit (h : r.repository.IsWellFormed f)
    (hhead : r.repository.Succeeds (.verify "HEAD")) (hrevision : r.repository.Succeeds (.verify revision))
    (hlimit : checkLimit limit ≠ .ok ()) (s : Conversation) :
    Run.FailsBeyond IsTriage (r.commits revision limit) s := by
  have hkeeps : r.repository.Keeps fun _ => True := fun _ _ _ => trivial
  obtain ⟨id, hprints⟩ := h.verify revision
  obtain ⟨s₁, hcommits⟩ := exists_returns_hasCommits hhead s
  obtain ⟨s₂, hresolve⟩ := (gives_resolve (T := True) hkeeps hprints fun _ => hrevision).returns trivial s₁ trivial
  have hfault : Run.FailsBeyond IsTriage (Run.ofFault (checkLimit limit) : Talk Unit) s₂ :=
    (Run.failsBeyond_ofFault Failure.not_isTriage_fault).2 fun ⟨(), hok⟩ => hlimit hok
  refine Run.failsBeyond_bind.2 (.inr ⟨true, s₁, hcommits, ?_⟩)
  exact Run.failsBeyond_bind.2 (.inr ⟨_, s₂, hresolve, Run.failsBeyond_bind.2 (.inl hfault)⟩)

end Reader

end Hotspots
