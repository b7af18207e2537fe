import Hotspots.Proofs.Git.Calls
import Hotspots.Proofs.Git.Described

/-!
# The two ways to read a file

A file of a revision can be read through its path, which becomes a part of a line to the helper, or through its blob,
whose identifier the listing has. A path may be any bytes, and a line end in it makes two lines of the request. The
helper answers both of them: the file is then not found, or another one is read in its place, and the second answer is
left in the pipe, where the next call takes it for its own (`Reader.exec_readObject_of_left`). The two readings agree,
and every call after them gets its own object, exactly at the paths without a line end (`Reader.readsAgree_iff`).
-/

namespace Hotspots

variable {f : ObjectFormat}

/-- The file that a listing has at a path: of regular files with one text the last one counts. -/
def RawPath.fileAt? (tree : List (RawPath × TreeNode f)) (path : String) : Option (RawPath × TreeNode f) :=
  (tree.filter (·.2.isFile)).reverse.find? fun e => e.1.text = path

/-- A repository in which a revision names a commit with a tree. The helper answers every line: it knows the commit and
the blobs by their identifiers, and at the path of a regular file, unless a line end is in it, it finds the blob that
the tree has there. -/
structure Repository.ServesTree (repository : Repository) (revision : String) (head : ObjectId f)
    (tree : List (RawPath × TreeNode f)) (answer : Bytes → HelperAnswer) : Prop where
  name : repository.Prints (.verify revision) (Utf8.encode (head.text ++ "\n"))
  resolves : repository.Succeeds (.verify revision)
  listing : repository.Prints (.listTree head.text) (RawPath.listing tree)
  lists : repository.Succeeds (.listTree head.text)
  speaks : repository.Speaks fun _ => answer
  replies : ∀ line, 10 ∉ line → ∃ output, (answer line).reply line = .printed output
  commit : ∃ o, answer (Utf8.encode head.text) = .object o ∧ o.kind ≠ Utf8.encode "blob"
  blobs : ∀ e ∈ tree, e.2.isFile = true →
    ∃ o, answer (Utf8.encode e.2.id.text) = .object o ∧ o.kind = Utf8.encode "blob"
  files : ∀ e ∈ tree, e.2.isFile = true → 10 ∉ e.1.bytes →
    answer (Utf8.encode (head.text ++ ":") ++ e.1.bytes) = answer (Utf8.encode e.2.id.text)

namespace Reader

variable {r : Reader} {revision path spec : String} {head : ObjectId f} {tree : List (RawPath × TreeNode f)}
  {answer : Bytes → HelperAnswer} {c : Conversation} {e : RawPath × TreeNode f}

/-- The conversation after calls, whether they fail or not. -/
def after (r : Reader) (calls : List Call) (c : Conversation) : Conversation :=
  calls.foldl (fun c call => (Run.exec (call.perform r) c).2) c

/-- The two ways to read a file agree, after any calls whose requests are single lines: both return one content, and
every call that is made afterwards ends as the answers to its own requests say. -/
def ReadsAgree (r : Reader) (answer : Bytes → HelperAnswer) (revision path : String) : Prop :=
  ∀ start : Conversation, start.IsQuiet → ∀ earlier : List Call, (∀ call ∈ earlier, call.IsPlain r) →
    let c := r.after earlier start
    ∃ content, (Run.exec (r.contentAt revision path) c).1 = .ok content ∧
      (Run.exec (r.snapshot revision (some [path])) c).1 = .ok [(path, content)] ∧
      ∀ later : List Call, (∀ call ∈ later, call.IsPlain r) → ∀ call : Call, call.IsPlain r →
        let c' := r.after later (Run.exec (r.contentAt revision path) c).2
        (Run.exec (call.perform r) c').1 = (Run.exec (call.account r fun _ => answer) c'.past).1

/-! ## Calls with single lines -/

/-- Calls whose requests are single lines leave nothing unread. -/
theorem isQuiet_after (hspeaks : r.repository.Speaks fun _ => answer) {calls : List Call}
    (hplain : ∀ call ∈ calls, call.IsPlain r) (hquiet : c.IsQuiet) : (r.after calls c).IsQuiet := by
  induction calls generalizing c with
  | nil => exact hquiet
  | cons call rest ih =>
    obtain ⟨hcall, hrest⟩ := List.forall_mem_cons.1 hplain
    obtain ⟨c', hexec, hquiet', -⟩ := settles_perform hspeaks hcall c hquiet
    have hstep : (Run.exec (call.perform r) c).2.IsQuiet := by rwa [hexec]
    exact ih hrest hstep

/-- The revision is resolved to its commit. -/
theorem ending_resolve (h : r.repository.ServesTree revision head tree answer) :
    ending (r.resolve revision) = .ok head.text := by
  have hgives : Run.Gives True (fun _ => True) (r.resolve revision) head.text :=
    gives_resolve (fun _ _ _ => trivial) h.name fun _ => h.resolves
  obtain ⟨c', hexec⟩ := hgives.returns trivial {} trivial
  exact congrArg Prod.fst hexec

/-- The listing is read as the regular files of the tree. -/
theorem ending_treeEntries (h : r.repository.ServesTree revision head tree answer) :
    ending (r.treeEntries revision) = .ok (Record.putAll (RawPath.fileBlobs tree) []) := by
  have hgives : Run.Gives True (fun _ => True) (r.treeEntries revision) (Record.putAll (RawPath.fileBlobs tree) []) :=
    gives_treeEntries_listing h.name h.listing (fun _ _ _ => trivial) fun _ => ⟨h.resolves, h.lists⟩
  obtain ⟨c', hexec⟩ := hgives.returns trivial {} trivial
  exact congrArg Prod.fst hexec

/-- Among the files of a tree a path has the blob of the file that counts there. -/
theorem get?_fileBlobs (tree : List (RawPath × TreeNode f)) (path : String) :
    Record.get? path (Record.putAll (RawPath.fileBlobs tree) []) =
      (RawPath.fileAt? tree path).map fun e => e.2.id.text := by
  rw [Record.get?_putAll, RawPath.fileBlobs, ← List.map_reverse, List.find?_map, Option.map_map]
  exact Option.or_none

/-- The file at a path is a regular file of the tree. -/
theorem mem_of_fileAt? (h : RawPath.fileAt? tree path = some e) : e ∈ tree ∧ e.2.isFile = true :=
  List.mem_filter.1 (List.mem_reverse.1 (List.mem_of_find?_eq_some h))

/-- A listed file is read as the blob by which the request for it is answered. -/
theorem exec_listedFile {answers : Nat → Bytes → HelperAnswer} {entries : List (String × String)} {oid : String}
    {o : ShownObject} {p : Past} (hentry : Record.get? path entries = some oid)
    (hanswer : answers p.requests (Utf8.encode oid) = .object o) (hkind : o.kind = Utf8.encode "blob") :
    Run.exec (r.listedFile answers revision entries path) p = (.ok (path, o.content), ⟨p.requests + 1, false⟩) := by
  rw [listedFile, hentry]
  dsimp only
  rw [Run.exec_map, exec_requested, hanswer, HelperAnswer.outcome, if_pos hkind]
  rfl

/-- At a path without a line end both readings return the blob of the file, and nothing is left unread. -/
theorem readsAgree_of_single_line (h : r.repository.ServesTree revision head tree answer)
    (he : RawPath.fileAt? tree path = some e) (hutf8 : e.1.bytes = Utf8.encode path) (hpath : '\n' ∉ path.toList) :
    r.ReadsAgree answer revision path := by
  intro start hstart earlier hearlier
  have hquiet := isQuiet_after h.speaks hearlier hstart
  obtain ⟨hmem, hfile⟩ := mem_of_fileAt? he
  obtain ⟨o, hblob, hkind⟩ := h.blobs e hmem hfile
  have hplain : ∀ sha, ending (r.resolve revision) = .ok sha → '\n' ∉ (sha ++ ":" ++ path).toList := by
    intro sha hsha
    obtain rfl := Except.ok.inj ((ending_resolve h).symm.trans hsha)
    simp only [String.toList_append, List.mem_append, not_or]
    exact ⟨⟨newline_not_mem_text head, by decide⟩, hpath⟩
  have hasked : answer (Utf8.encode (head.text ++ ":" ++ path)) = .object o := by
    rw [Utf8.encode_append, ← hutf8, h.files e hmem hfile (hutf8 ▸ not_mem_encode hpath), hblob]
  have hlisted : Record.get? path (Record.putAll (RawPath.fileBlobs tree) []) = some e.2.id.text := by
    rw [get?_fileBlobs, he, Option.map_some]
  obtain ⟨c₁, hcontent, hquiet₁, -⟩ := settles_contentAt h.speaks hplain _ hquiet
  obtain ⟨c₂, hsnapshot, -⟩ := settles_snapshot h.speaks revision (some [path]) _ hquiet
  rw [ending_resolve h, Run.exec_bind_of_ok (Run.exec_ofExcept _ _), exec_requested, hasked, HelperAnswer.outcome,
    if_pos hkind] at hcontent
  rw [ending_treeEntries h, Run.exec_bind_of_ok (Run.exec_ofExcept _ _), Run.exec_map, Option.getD_some,
    List.mapM_cons, Run.exec_bind_of_ok (exec_listedFile hlisted hblob hkind)] at hsnapshot
  refine ⟨o.content, congrArg Prod.fst hcontent, ?_, fun later hlater call hcall => ?_⟩
  · rw [hsnapshot]
    rfl
  · have hquiet' : (r.after later c₁).IsQuiet := isQuiet_after h.speaks hlater hquiet₁
    rw [hcontent]
    obtain ⟨c', hend, -⟩ := settles_perform h.speaks hcall _ hquiet'
    exact congrArg Prod.fst hend

/-! ## A request of several lines -/

/-- Lines that are all answered are printed after what was unread. -/
theorem send_of_replies {reply : Bytes → Reply} {lines : List Bytes}
    (hreplies : ∀ line ∈ lines, ∃ output, reply line = .printed output) (unread : Bytes) :
    ∃ printed, send reply unread lines = .running (unread ++ printed) := by
  induction lines generalizing unread with
  | nil => exact ⟨[], by rw [send, List.append_nil]⟩
  | cons line rest ih =>
    obtain ⟨⟨output, houtput⟩, hrest⟩ := List.forall_mem_cons.1 hreplies
    obtain ⟨printed, hprinted⟩ := ih hrest (unread ++ output)
    exact ⟨output ++ printed, by rw [send, houtput]; simpa using hprinted⟩

/-- A request with a line end inside ends as the answer to its first line says, and leaves the answer to another line
unread. -/
theorem exec_readObject_of_lines (hspeaks : r.repository.Speaks fun _ => answer)
    (hreplies : ∀ line, 10 ∉ line → ∃ output, (answer line).reply line = .printed output)
    (hspec : '\n' ∈ spec.toList) (hquiet : c.IsQuiet) :
    ∃ first line output left c', 10 ∉ line ∧ (answer line).reply line = .printed output ∧
      Run.exec (r.readObject spec) c = ((answer first).outcome r (.notFound spec none), c') ∧
      c'.helper = some (output ++ left) := by
  have hbreak : 10 ∈ Utf8.encode spec := List.mem_flatMap.2 ⟨'\n', hspec, by decide⟩
  obtain ⟨first, rest, hcut, hfirst⟩ := List.eq_append_cons_of_mem hbreak
  obtain ⟨line, more, hrest⟩ := List.exists_cons_of_ne_nil (Pieces.splitOn_ne_nil 10 rest)
  have hlines : ∀ l ∈ line :: more, 10 ∉ l := fun l hl => Pieces.not_mem_of_mem_splitOn (hrest ▸ hl)
  obtain ⟨reply, hreply⟩ := hreplies first hfirst
  obtain ⟨output, houtput⟩ := hreplies line (hlines line List.mem_cons_self)
  have hanswered : ∀ l ∈ more, ∃ output, r.repository.replyAt c.requests l = .printed output := fun l hl => by
    have hl' := hlines l (List.mem_cons_of_mem _ hl)
    rw [hspeaks c.requests l hl']
    exact hreplies l hl'
  obtain ⟨left, hleft⟩ := send_of_replies hanswered (reply ++ output)
  have hsent : send (r.repository.replyAt c.requests) [] (Pieces.splitOn 10 (Utf8.encode spec)) =
      .running (reply ++ (output ++ left)) := by
    rw [hcut, Pieces.splitOn_append hfirst, hrest, send, hspeaks c.requests first hfirst, hreply]
    dsimp only
    rw [send, hspeaks c.requests line (hlines line List.mem_cons_self), houtput]
    dsimp only
    rw [List.nil_append, hleft, List.append_assoc]
  refine ⟨first, line, output, left,
    { c with requests := c.requests + 1, helper := some (output ++ left), unsent := false },
    hlines line List.mem_cons_self, houtput, ?_, rfl⟩
  unfold readObject
  rw [Run.exec_bind_of_ok (Run.exec_state c), Run.exec_bind_of_ok (Run.exec_update _ _),
    show c.helper.getD [] = [] from hquiet, hsent]
  exact exec_readReply_reply hfirst hreply (output ++ left)

/-- Where an answer is unread, the next request ends as that answer says. -/
theorem exec_readObject_of_left (hspeaks : r.repository.Speaks fun _ => answer)
    (hreplies : ∀ line, 10 ∉ line → ∃ output, (answer line).reply line = .printed output) {line output left : Bytes}
    (hline : 10 ∉ line) (houtput : (answer line).reply line = .printed output)
    (hleft : c.helper = some (output ++ left)) (hspec : '\n' ∉ spec.toList) :
    (Run.exec (r.readObject spec) c).1 = (answer line).outcome r (.notFound spec none) := by
  obtain ⟨own, hown⟩ := hreplies (Utf8.encode spec) (not_mem_encode hspec)
  unfold readObject
  rw [Run.exec_bind_of_ok (Run.exec_state c), Run.exec_bind_of_ok (Run.exec_update _ _), hleft, Option.getD_some,
    Pieces.splitOn_of_not_mem (not_mem_encode hspec), send, hspeaks c.requests _ (not_mem_encode hspec), hown]
  dsimp only
  rw [send]
  dsimp only
  rw [List.append_assoc, exec_readReply_reply hline houtput]

/-- Reading a file at a path with a line end leaves the answer to another line unread. -/
theorem helper_after_contentAt (h : r.repository.ServesTree revision head tree answer) (hpath : '\n' ∈ path.toList)
    (hquiet : c.IsQuiet) :
    ∃ line output left, 10 ∉ line ∧ (answer line).reply line = .printed output ∧
      (Run.exec (r.contentAt revision path) c).2.helper = some (output ++ left) := by
  obtain ⟨c₁, hresolve, hhelper, -⟩ := isApart_resolve r revision c
  rw [ending_resolve h] at hresolve
  have hquiet₁ : c₁.IsQuiet := by rwa [Conversation.IsQuiet, hhelper]
  have hspec : '\n' ∈ (head.text ++ ":" ++ path).toList := by
    rw [String.toList_append]
    exact List.mem_append_right _ hpath
  obtain ⟨first, line, output, left, c₂, hline, houtput, hread, hleft⟩ :=
    exec_readObject_of_lines h.speaks h.replies hspec hquiet₁
  refine ⟨line, output, left, hline, houtput, ?_⟩
  rw [contentAt, Run.exec_bind_of_ok hresolve, Run.exec_bind_of_ok (Run.exec_outcome _ _), hread, ← hleft]
  dsimp only
  split <;> rfl

/-- A result that is mapped is a result. -/
theorem isOk_map {α β : Type} (f : α → β) (result : Except Failure α) : (result.map f).isOk = result.isOk := by
  cases result <;> rfl

/-- Whether a request gives a content does not depend on how it would fail. -/
theorem isOk_outcome (r : Reader) (a : HelperAnswer) (noBlob noBlob' : Failure) :
    (a.outcome r noBlob).isOk = (a.outcome r noBlob').isOk := by
  cases a with
  | object o =>
    unfold HelperAnswer.outcome
    dsimp only
    split <;> rfl
  | missing => rfl
  | ambiguous => rfl
  | ends => rfl
  | broken kept => rfl

/-- At a path with a line end the answer to its second line is left in the pipe, where it cannot be right for both a
blob and a commit. -/
theorem not_readsAgree_of_lines (h : r.repository.ServesTree revision head tree answer)
    (he : RawPath.fileAt? tree path = some e) (hpath : '\n' ∈ path.toList) : ¬ r.ReadsAgree answer revision path := by
  intro hagree
  obtain ⟨content, -, -, hlater⟩ := hagree {} rfl [] (by simp)
  have hnew : ({} : Conversation).IsQuiet := rfl
  obtain ⟨line, output, left, hline, houtput, hleft⟩ := helper_after_contentAt h hpath hnew
  have hown (oid : String) (hoid : '\n' ∉ oid.toList) :
      ((answer line).outcome r (.notFound oid none)).isOk =
        ((answer (Utf8.encode oid)).outcome r (.notFound oid none)).isOk := by
    have hcall : (Run.exec (Yield.content <$> r.blobContent oid) (Run.exec (r.contentAt revision path) {}).2).1 =
        (Run.exec (Yield.content <$> r.requested (fun _ => answer) oid (.notFound oid none)) _).1 :=
      hlater [] (by simp) (.blob oid) hoid
    rw [Run.exec_map, Run.exec_map, exec_requested, blobContent,
      exec_readObject_of_left h.speaks h.replies hline houtput hleft hoid] at hcall
    simpa only [isOk_map] using congrArg Except.isOk hcall
  obtain ⟨hmem, hfile⟩ := mem_of_fileAt? he
  obtain ⟨o, hblob, hkind⟩ := h.blobs e hmem hfile
  obtain ⟨commit, hcommit, hnoblob⟩ := h.commit
  have hfound := hown e.2.id.text (newline_not_mem_text _)
  have hrefused := hown head.text (newline_not_mem_text _)
  rw [hblob, HelperAnswer.outcome, if_pos hkind] at hfound
  rw [hcommit, HelperAnswer.outcome, if_neg hnoblob, isOk_outcome r _ _ (.notFound e.2.id.text none),
    hfound] at hrefused
  cases hrefused

/-- The two ways to read a file agree, and every call afterwards gets its own object, exactly if the path has no line
end. This is true of every revision that resolves, of every file that the listing has at a path that is text, after
any calls whose requests are single lines, and of whatever is called later. -/
theorem readsAgree_iff (h : r.repository.ServesTree revision head tree answer)
    (he : RawPath.fileAt? tree path = some e) (hutf8 : e.1.bytes = Utf8.encode path) :
    r.ReadsAgree answer revision path ↔ '\n' ∉ path.toList :=
  ⟨fun hagree hpath => not_readsAgree_of_lines h he hpath hagree, readsAgree_of_single_line h he hutf8⟩

/-! ## A name of two lines -/

/-- The commit of a repository with a name of two lines. -/
def splitHead : ObjectId .sha1 := .repeated .sha1 '5' (by decide) (by decide)

/-- The blob of its files. -/
def splitBlob : ObjectId .sha1 := .repeated .sha1 'f' (by decide) (by decide)

/-- Its tree: two files with one blob, the second one under a name with a line end. -/
def splitTree : List (RawPath × TreeNode .sha1) :=
  [(⟨Utf8.encode "a.py", by decide, by decide⟩, .file false splitBlob),
    (⟨Utf8.encode "a\nb.py", by decide, by decide⟩, .file false splitBlob)]

/-- Its helper, which knows the commit, the blob and the path of the first file. It knows nothing by either half of the
second name. -/
def splitAnswer (line : Bytes) : HelperAnswer :=
  if line = Utf8.encode splitHead.text then
    .object
      { name := Utf8.encode splitHead.text, kind := Utf8.encode "commit", content := Utf8.encode "tree t1\n"
        isWord_name := isByteWord_text splitHead }
  else if line = Utf8.encode splitBlob.text ∨ line = Utf8.encode (splitHead.text ++ ":a.py") then
    .object
      { name := Utf8.encode splitBlob.text, kind := Utf8.encode "blob", content := Utf8.encode "x\n"
        isWord_name := isByteWord_text splitBlob }
  else .missing

/-- Its reader. -/
def splitReader : Reader where
  repository :=
    { locate := some
      answer := fun
        | .listTree _ => .exited 0 (RawPath.listing splitTree) []
        | _ => .exited 0 (Utf8.encode (splitHead.text ++ "\n")) []
      reply := fun line => (splitAnswer line).reply line }
  location := "/r"

/-- The repository serves its tree. -/
theorem servesTree_split : splitReader.repository.ServesTree "HEAD" splitHead splitTree splitAnswer where
  name := Repository.prints_of_answer rfl
  resolves := ⟨_, _, rfl⟩
  listing := Repository.prints_of_answer rfl
  lists := ⟨_, _, rfl⟩
  speaks _ _ _ := rfl
  replies line _ := by
    unfold splitAnswer
    split
    · exact ⟨_, rfl⟩
    · split <;> exact ⟨_, rfl⟩
  commit := ⟨_, if_pos rfl, by decide⟩
  blobs e he _ := by
    have hblob : e.2.id = splitBlob := by
      rcases List.mem_pair.1 he with rfl | rfl <;> rfl
    rw [hblob]
    exact ⟨_, (if_neg (by decide +kernel)).trans (if_pos (.inl rfl)), rfl⟩
  files e he _ hline := by
    rcases List.mem_pair.1 he with rfl | rfl
    · exact ((if_neg (by decide +kernel)).trans (if_pos (.inr rfl))).trans
        ((if_neg (by decide +kernel)).trans (if_pos (.inl rfl))).symm
    · exact absurd (by decide) hline

/-- In this repository the readings agree at the first name and not at the second one. -/
theorem readsAgree_iff_split :
    splitReader.ReadsAgree splitAnswer "HEAD" "a.py" ∧ ¬ splitReader.ReadsAgree splitAnswer "HEAD" "a\nb.py" := by
  have hplain : RawPath.fileAt? splitTree "a.py" = splitTree[0]? := rfl
  have hsplit : RawPath.fileAt? splitTree "a\nb.py" = splitTree[1]? := rfl
  exact ⟨(readsAgree_iff servesTree_split hplain rfl).2 (by decide),
    fun hagree => (readsAgree_iff servesTree_split hsplit rfl).1 hagree (by decide)⟩

/-- The file under the second name is not found by its path, though it is there, and afterwards its blob is not found
either. -/
theorem not_readsAgree_of_name_of_two_lines :
    let c := (Run.exec (splitReader.contentAt "HEAD" "a\nb.py") {}).2
    (Run.exec (splitReader.contentAt "HEAD" "a\nb.py") {}).1 = .error (.notFound "HEAD" (some "a\nb.py")) ∧
      (Run.exec (splitReader.snapshot "HEAD" (some ["a\nb.py"])) {}).1 = .ok [("a\nb.py", Utf8.encode "x\n")] ∧
      (Run.exec (splitReader.blobContent splitBlob.text) {}).1 = .ok (Utf8.encode "x\n") ∧
      (Run.exec (splitReader.blobContent splitBlob.text) c).1 = .error (.notFound splitBlob.text none) ∧
      ¬ splitReader.ReadsAgree splitAnswer "HEAD" "a\nb.py" := by
  intro c
  have hrefused : (Run.exec (splitReader.contentAt "HEAD" "a\nb.py") {}).1 =
      .error (.notFound "HEAD" (some "a\nb.py")) := rfl
  refine ⟨hrefused, rfl, rfl, rfl, fun hagree => ?_⟩
  obtain ⟨content, hcontent, -⟩ := hagree {} rfl [] (by simp)
  cases hrefused.symm.trans hcontent

end Reader

end Hotspots
