import Hotspots.Proofs.Git.Exchange

/-!
# Calls of a conversation

Whatever was asked before, every call gets the answers to its own requests. A call that starts when nothing is
unread ends as the answers to its own requests say, and leaves nothing unread (`Reader.settles_perform`), so
that the same is true of the calls after it, whichever of them fail (`Reader.converse_eq_outcomes`). Closing fails
after a request whose line could not be sent and was kept, and then, too, the calls after it are answered.
-/

namespace Hotspots

/-- A call that asks the helper, or ends it. -/
inductive Call where
  /-- The content of a blob. -/
  | blob (oid : String)
  /-- The content of a file of a revision. -/
  | file (revision path : String)
  /-- The contents of the files of a revision, or of some paths of it. -/
  | files (revision : String) (paths : Option (List String))
  | close

/-- What a call returns. -/
inductive Yield where
  | content (bytes : Bytes)
  | contents (files : List (String × Bytes))
  | nothing

/-- What an account of calls knows: how many requests were made before, and whether the line of the last one is kept
because it could not be sent. -/
structure Past where
  requests : Nat := 0
  unsent : Bool := false

/-- What an account of calls knows of a conversation. -/
def Conversation.past (c : Conversation) : Past := ⟨c.requests, c.unsent⟩

namespace Reader

variable {α β : Type}

/-! ## Computations that leave nothing unread -/

/-- A computation that ends, in every conversation in which nothing is unread, as an account of it says, and leaves
nothing unread. -/
def Settles (t : Talk α) (account : Run Past α) : Prop :=
  ∀ c, c.IsQuiet → ∃ c', Run.exec t c = ((Run.exec account c.past).1, c') ∧ c'.IsQuiet ∧
    c'.past = (Run.exec account c.past).2

/-- A plain result is settled. -/
theorem settles_pure (a : α) : Settles (pure a) (pure a) := fun c hc => ⟨c, rfl, hc, rfl⟩

/-- A failure is settled. -/
theorem settles_fail (e : Failure) : Settles (Run.fail e : Talk α) (Run.fail e) := fun c hc => ⟨c, rfl, hc, rfl⟩

/-- A sequence is settled if its parts are. -/
theorem Settles.bind {t : Talk α} {f : α → Talk β} {account : Run Past α} {g : α → Run Past β}
    (ht : Settles t account) (hf : ∀ a, (∃ p p', account.Returns p a p') → Settles (f a) (g a)) :
    Settles (t >>= f) (account >>= g) := by
  intro c hc
  obtain ⟨c', hend, hc', hpast⟩ := ht c hc
  cases haccount : Run.exec account c.past with
  | mk ending p =>
    rw [haccount] at hend hpast
    subst hpast
    cases ending with
    | error e =>
      rw [Run.exec_bind_of_error haccount]
      exact ⟨c', Run.exec_bind_of_error hend, hc', rfl⟩
    | ok a =>
      rw [Run.exec_bind_of_ok haccount, Run.exec_bind_of_ok hend]
      exact hf a ⟨_, _, haccount⟩ c' hc'

/-- A mapped computation is settled. -/
theorem Settles.map {t : Talk α} {account : Run Past α} (ht : Settles t account) (f : α → β) :
    Settles (f <$> t) (f <$> account) := by
  intro c hc
  obtain ⟨c', hend, hc', hpast⟩ := ht c hc
  rw [Run.exec_map, Run.exec_map, hend]
  exact ⟨c', rfl, hc', hpast⟩

/-- Looking at the end of a settled computation is settled. -/
theorem Settles.outcome {t : Talk α} {account : Run Past α} (ht : Settles t account) :
    Settles (Run.outcome t) (Run.outcome account) := by
  intro c hc
  obtain ⟨c', hend, hc', hpast⟩ := ht c hc
  rw [Run.exec_outcome, Run.exec_outcome, hend]
  exact ⟨c', rfl, hc', hpast⟩

/-- What a request gives by its own answer, and what it leaves behind. -/
def requested (r : Reader) (answers : Nat → Bytes → HelperAnswer) (spec : String) (noBlob : Failure) :
    Run Past Bytes := do
  let answer := answers (← Run.state).requests (Utf8.encode spec)
  Run.update fun p => { requests := p.requests + 1, unsent := answer.leavesUnsent }
  Run.ofExcept (answer.outcome r noBlob)

/-- What a request gives, step by step. -/
theorem exec_requested (r : Reader) (answers : Nat → Bytes → HelperAnswer) (spec : String) (noBlob : Failure)
    (p : Past) : Run.exec (r.requested answers spec noBlob) p =
      ((answers p.requests (Utf8.encode spec)).outcome r noBlob,
        ⟨p.requests + 1, (answers p.requests (Utf8.encode spec)).leavesUnsent⟩) := by
  rw [requested, Run.exec_bind_of_ok (Run.exec_state _)]
  dsimp only
  rw [Run.exec_bind_of_ok (Run.exec_update _ _), Run.exec_ofExcept]

/-- The request for an object ends as its own answer says. -/
theorem settles_readObject {r : Reader} {answers : Nat → Bytes → HelperAnswer}
    (hspeaks : r.repository.Speaks answers) {spec : String} (hspec : '\n' ∉ spec.toList) :
    Settles (r.readObject spec) (r.requested answers spec (.notFound spec none)) := by
  intro c hc
  obtain ⟨c', hexec, hquiet, hrequests, hunsent⟩ := exec_readObject hspeaks hspec hc
  rw [exec_requested]
  exact ⟨c', hexec, hquiet, by rw [Conversation.past, hrequests, hunsent]; rfl⟩

/-! ## Computations without the helper -/

/-- How a computation ends in a new conversation. -/
def ending (t : Talk α) : Except Failure α := (Run.exec t {}).1

/-- Two conversations in which the helper was asked the same and has printed the same. -/
def SameHelper (c c' : Conversation) : Prop := c'.helper = c.helper ∧ c'.past = c.past

/-- A computation in which the helper has no part: it ends in the same way in every conversation, and leaves
the helper alone. -/
def IsApart (t : Talk α) : Prop := ∀ c, ∃ c', Run.exec t c = (ending t, c') ∧ SameHelper c c'

/-- A computation that ends in one way and leaves the helper alone ends so in a new conversation, too. -/
theorem isApart_of_exec {t : Talk α} {e : Except Failure α}
    (h : ∀ c, ∃ c', Run.exec t c = (e, c') ∧ SameHelper c c') : IsApart t := by
  obtain ⟨_, hnew, -⟩ := h {}
  intro c
  obtain ⟨c', hend, hc'⟩ := h c
  exact ⟨c', by rw [hend, ending, hnew], hc'⟩

/-- A plain result is apart from the helper. -/
theorem isApart_pure (a : α) : IsApart (pure a : Talk α) := fun c => ⟨c, rfl, rfl, rfl⟩

/-- A failure is apart from the helper. -/
theorem isApart_fail (e : Failure) : IsApart (Run.fail e : Talk α) := fun c => ⟨c, rfl, rfl, rfl⟩

/-- A plain value is apart from the helper. -/
theorem isApart_ofFault (a : Except Fault α) : IsApart (Run.ofFault a : Talk α) := fun c => ⟨c, rfl, rfl, rfl⟩

/-- A sequence is apart from the helper if its parts are. -/
theorem IsApart.bind {t : Talk α} {f : α → Talk β} (ht : IsApart t) (hf : ∀ a, IsApart (f a)) :
    IsApart (t >>= f) := by
  cases hend : ending t with
  | error e =>
    refine isApart_of_exec (e := .error e) fun c => ?_
    obtain ⟨c', hc, hhelper⟩ := ht c
    exact ⟨c', Run.exec_bind_of_error (hend ▸ hc), hhelper⟩
  | ok a =>
    refine isApart_of_exec (e := ending (f a)) fun c => ?_
    obtain ⟨c', hc, hhelper⟩ := ht c
    obtain ⟨c'', hc', hhelper'⟩ := hf a c'
    exact ⟨c'', by rw [Run.exec_bind_of_ok (hend ▸ hc), hc'], hhelper'.1.trans hhelper.1,
      hhelper'.2.trans hhelper.2⟩

/-- A computation that is apart from the helper leaves nothing unread if nothing was. -/
theorem IsApart.settles {t : Talk α} (ht : IsApart t) : Settles t (Run.ofExcept (ending t)) := by
  intro c hc
  obtain ⟨c', hend, hhelper, hpast⟩ := ht c
  exact ⟨c', hend, by rw [Conversation.IsQuiet, hhelper]; exact hc, hpast⟩

/-- Commands are apart from the helper. -/
theorem isApart_execute (repository : Repository) (command : GitCommand) :
    IsApart (execute repository command) := by
  refine isApart_of_exec (e := .ok (repository.answer command)) fun c => ?_
  unfold execute
  rw [Run.exec_bind_of_ok (Run.exec_state c)]
  dsimp only
  rw [Run.exec_bind_of_ok (Run.exec_update _ _)]
  split
  · exact ⟨_, rfl, rfl, rfl⟩
  · exact ⟨_, rfl, rfl, rfl⟩

/-- Commands that are run to their end are apart from the helper. -/
theorem isApart_run (r : Reader) (command : GitCommand) : IsApart (r.run command) := by
  refine (isApart_execute r.repository command).bind fun ending => ?_
  cases ending with
  | exited code output complaint => exact isApart_pure _
  | timedOut => exact isApart_fail _
  | missing => exact isApart_fail _
  | refused fault => exact isApart_fail _
  | interrupted => exact isApart_fail _

/-- Commands that must succeed are apart from the helper. -/
theorem isApart_output (r : Reader) (command : GitCommand) : IsApart (r.output command) := by
  refine (isApart_run r command).bind fun (code, output, complaint) => ?_
  dsimp only
  split
  · exact isApart_pure _
  · exact isApart_fail _

/-- Asking for the head is apart from the helper. -/
theorem isApart_hasCommits (r : Reader) : IsApart r.hasCommits :=
  (isApart_run r _).bind fun _ => isApart_pure _

/-- Finding the commit of a revision is apart from the helper. -/
theorem isApart_resolve (r : Reader) (revision : String) : IsApart (r.resolve revision) := by
  refine (isApart_run r _).bind fun (code, output, _) => ?_
  dsimp only
  split
  · exact (isApart_ofFault _).bind fun _ => isApart_pure _
  · exact isApart_fail _

/-- Listing the files of a revision is apart from the helper. -/
theorem isApart_treeEntries (r : Reader) (revision : String) : IsApart (r.treeEntries revision) := by
  refine (isApart_resolve r revision).bind fun sha => ?_
  exact (isApart_output r _).bind fun listing => (isApart_ofFault _).bind fun _ => isApart_pure _

/-! ## Listed blobs -/

/-- The identifiers of a listing are words. -/
theorem isBlank_of_mem_entriesOfListing {items : List Bytes} {entries : List (String × String)}
    (h : entriesOfListing items = .ok entries) :
    ∀ e ∈ entries, ∀ ch ∈ e.2.toList, Blank.isBlank ch = false := by
  induction items generalizing entries with
  | nil =>
    cases h
    simp
  | cons item rest ih =>
    rw [entriesOfListing] at h
    split at h
    · exact ih h
    · dsimp only at h
      obtain ⟨columns, hcolumns, h⟩ := bind_eq_ok.1 h
      split at h
      · next mode kind oid hwords =>
        obtain ⟨more, hmore, h⟩ := bind_eq_ok.1 h
        have hoid : ∀ ch ∈ oid.toList, Blank.isBlank ch = false := by
          have hmem : oid ∈ Blank.words columns := by simp [hwords]
          rw [Blank.words, Blank.wordsFrom_eq] at hmem
          obtain ⟨w, hw, rfl⟩ := List.mem_map.1 hmem
          simpa using isBlank_of_mem_wordsBy (by simp) hw
        split at h
        · cases h
          exact ih hmore
        · cases h
          exact List.forall_mem_cons.2 ⟨hoid, ih hmore⟩
      · cases h

/-- The identifier of a listed file has no line end. -/
theorem not_mem_of_treeEntries {r : Reader} {revision path oid : String} {entries : List (String × String)}
    (h : ending (r.treeEntries revision) = .ok entries) (hpath : Record.get? path entries = some oid) :
    '\n' ∉ oid.toList := by
  obtain ⟨c', hexec, -⟩ := isApart_treeEntries r revision {}
  rw [h] at hexec
  obtain ⟨sha, c₁, -, hexec⟩ := Run.returns_bind.1 hexec
  obtain ⟨listing, c₂, -, hexec⟩ := Run.returns_bind.1 hexec
  obtain ⟨listed, c₃, hlisted, hexec⟩ := Run.returns_bind.1 hexec
  obtain ⟨rfl, -⟩ := Run.returns_pure.1 hexec
  intro hnewline
  have hblank := isBlank_of_mem_entriesOfListing (Run.returns_ofFault.1 hlisted).1 _
    (Record.mem_of_get?_putAll hpath) _ hnewline
  exact absurd hblank (by decide)

/-! ## One call -/

/-- The content that the request for a listed file gives, with its path. -/
def listedFile (r : Reader) (answers : Nat → Bytes → HelperAnswer) (revision : String)
    (entries : List (String × String)) (path : String) : Run Past (String × Bytes) :=
  match Record.get? path entries with
  | none => Run.fail (.notFound revision (some path))
  | some oid => (fun content => (path, content)) <$> r.requested answers oid (.notFound oid none)

/-- Files are read as the answers to their own requests say. -/
theorem settles_readAll {r : Reader} {answers : Nat → Bytes → HelperAnswer}
    (hspeaks : r.repository.Speaks answers) (revision : String) {entries : List (String × String)}
    (hplain : ∀ path oid, Record.get? path entries = some oid → '\n' ∉ oid.toList) (paths : List String)
    (contents : List (String × Bytes)) :
    Settles (r.readAll revision entries contents paths)
      ((Record.putAll · contents) <$> paths.mapM (r.listedFile answers revision entries)) := by
  induction paths generalizing contents with
  | nil => exact settles_pure contents
  | cons path rest ih =>
    rw [readAll, List.mapM_cons, listedFile]
    cases hpath : Record.get? path entries with
    | none => exact settles_fail _
    | some oid =>
      have hask := settles_readObject hspeaks (hplain path oid hpath)
      have hrest := hask.bind fun content _ => ih (Record.put path content contents)
      simp only [map_eq_pure_bind, bind_assoc, pure_bind] at hrest ⊢
      exact hrest

/-- A file is read as the answer to the request for it says. -/
theorem settles_contentAt {r : Reader} {answers : Nat → Bytes → HelperAnswer}
    (hspeaks : r.repository.Speaks answers) {revision path : String}
    (hplain : ∀ sha, ending (r.resolve revision) = .ok sha → '\n' ∉ (sha ++ ":" ++ path).toList) :
    Settles (r.contentAt revision path) (do
      let sha ← Run.ofExcept (ending (r.resolve revision))
      r.requested answers (sha ++ ":" ++ path) (.notFound revision (some path))) := by
  refine (isApart_resolve r revision).settles.bind fun sha hreturns c hc => ?_
  obtain ⟨_, _, hreturns⟩ := hreturns
  have hspec := hplain sha (Run.returns_ofExcept.1 hreturns).1
  obtain ⟨c', hend, hc'⟩ := (settles_readObject hspeaks hspec).outcome c hc
  rw [Run.exec_bind_of_ok hend]
  refine ⟨c', ?_, hc'⟩
  simp only [exec_requested]
  cases answers c.past.requests (Utf8.encode (sha ++ ":" ++ path)) with
  | object o =>
    by_cases hkind : o.kind = Utf8.encode "blob"
    · simp only [HelperAnswer.outcome, if_pos hkind]
      rfl
    · simp only [HelperAnswer.outcome, if_neg hkind]
      rfl
  | missing => rfl
  | ambiguous => rfl
  | ends => rfl
  | broken kept => rfl

/-- Files of a revision are read as the answers to the requests for their blobs say. -/
theorem settles_snapshot {r : Reader} {answers : Nat → Bytes → HelperAnswer}
    (hspeaks : r.repository.Speaks answers) (revision : String) (paths : Option (List String)) :
    Settles (r.snapshot revision paths) (do
      let entries ← Run.ofExcept (ending (r.treeEntries revision))
      (Record.putAll · []) <$>
        (paths.getD (sorted (entries.map Prod.fst))).mapM (r.listedFile answers revision entries)) := by
  refine (isApart_treeEntries r revision).settles.bind fun entries hreturns => ?_
  obtain ⟨_, _, hreturns⟩ := hreturns
  have hplain : ∀ path oid, Record.get? path entries = some oid → '\n' ∉ oid.toList :=
    fun _ _ => not_mem_of_treeEntries (Run.returns_ofExcept.1 hreturns).1
  exact settles_readAll hspeaks revision hplain (paths.getD (sorted (entries.map Prod.fst))) []

end Reader

namespace Call

/-- Makes a call. -/
def perform (r : Reader) : Call → Talk Yield
  | blob oid => .content <$> r.blobContent oid
  | file revision path => .content <$> r.contentAt revision path
  | files revision paths => .contents <$> r.snapshot revision paths
  | close => (fun _ => .nothing) <$> Reader.close

/-- What a call gives, by the answers to its own requests. Closing gives nothing, or fails if the line of the last
request is kept. -/
def account (r : Reader) (answers : Nat → Bytes → HelperAnswer) : Call → Run Past Yield
  | blob oid => .content <$> r.requested answers oid (.notFound oid none)
  | file revision path => do
    let sha ← Run.ofExcept (Reader.ending (r.resolve revision))
    .content <$> r.requested answers (sha ++ ":" ++ path) (.notFound revision (some path))
  | files revision paths => do
    let entries ← Run.ofExcept (Reader.ending (r.treeEntries revision))
    let wanted := paths.getD (Reader.sorted (entries.map Prod.fst))
    (fun files => .contents (Record.putAll files [])) <$> wanted.mapM (r.listedFile answers revision entries)
  | close => do
    let p ← Run.state
    Run.update fun p => { p with unsent := false }
    if p.unsent then Run.fail Reader.keptLineFailure else return .nothing

/-- A call whose requests have no line end inside. -/
def IsPlain (r : Reader) : Call → Prop
  | blob oid => '\n' ∉ oid.toList
  | file revision path =>
    ∀ sha, Reader.ending (r.resolve revision) = .ok sha → '\n' ∉ (sha ++ ":" ++ path).toList
  | files _ _ => True
  | close => True

end Call

namespace Reader

/-- A call that starts when nothing is unread ends as the answers to its own requests say, and leaves nothing
unread. -/
theorem settles_perform {r : Reader} {answers : Nat → Bytes → HelperAnswer}
    (hspeaks : r.repository.Speaks answers) {call : Call} (hplain : call.IsPlain r) :
    Settles (call.perform r) (call.account r answers) := by
  cases call with
  | blob oid => exact (settles_readObject hspeaks hplain).map _
  | file revision path =>
    have hfile := (settles_contentAt hspeaks hplain).map Yield.content
    rwa [map_bind] at hfile
  | files revision paths =>
    have hfiles := (settles_snapshot hspeaks revision paths).map Yield.contents
    simp only [map_bind, Functor.map_map] at hfiles
    exact hfiles
  | close =>
    rintro ⟨session, runs, helper, unsent, requests⟩ -
    cases unsent with
    | true => exact ⟨_, rfl, rfl, rfl⟩
    | false => exact ⟨_, rfl, rfl, rfl⟩

end Reader

/-! ## A sequence of calls -/

/-- A call, and the repository as it is at that time. Its helper may end at any request of the conversation. -/
structure Turn where
  repository : Repository
  answers : Nat → Bytes → HelperAnswer
  speaks : repository.Speaks answers
  call : Call

namespace Turn

/-- The reader at a turn. -/
def reader (r : Reader) (t : Turn) : Reader := { r with repository := t.repository }

/-- A turn whose requests have no line end inside. -/
def IsPlain (r : Reader) (t : Turn) : Prop := t.call.IsPlain (t.reader r)

/-- What a turn gives, by the answers to its own requests. -/
def account (r : Reader) (t : Turn) : Run Past Yield := t.call.account (t.reader r) t.answers

end Turn

namespace Reader

/-- Makes calls one after the other, whether they fail or not; gives how they end, and the conversation after
them. -/
def converse (r : Reader) : List Turn → Conversation → List (Except Failure Yield) × Conversation
  | [], c => ([], c)
  | t :: rest, c =>
    let (ending, c') := Run.exec (t.call.perform (t.reader r)) c
    let (endings, c'') := converse r rest c'
    (ending :: endings, c'')

/-- What calls give, each by the answers to its own requests. -/
def outcomes (r : Reader) : List Turn → Past → List (Except Failure Yield)
  | [], _ => []
  | t :: rest, p =>
    let (ending, p') := Run.exec (t.account r) p
    ending :: outcomes r rest p'

/-- The first of some calls gives what it gives, and the others what they give after it. -/
theorem outcomes_cons (r : Reader) {t : Turn} {rest : List Turn} {p : Past} {ending : Except Failure Yield}
    {endings : List (Except Failure Yield)} (after : Past) (hfirst : Run.exec (t.account r) p = (ending, after))
    (hrest : r.outcomes rest after = endings) : r.outcomes (t :: rest) p = ending :: endings := by
  rw [outcomes, hfirst, ← hrest]

/-- Every call of a conversation ends as the answers to its own requests say, whatever was asked before and
whatever failed, and nothing is left unread. Closing ends the helper; it fails exactly if the last request since it was
closed before could not be sent and its line is kept. -/
theorem converse_eq_outcomes (r : Reader) {turns : List Turn} (hplain : ∀ t ∈ turns, t.IsPlain r)
    {c : Conversation} (hquiet : c.IsQuiet) :
    (r.converse turns c).1 = r.outcomes turns c.past ∧ (r.converse turns c).2.IsQuiet := by
  induction turns generalizing c with
  | nil => exact ⟨rfl, hquiet⟩
  | cons t rest ih =>
    obtain ⟨c', hend, hc', hpast⟩ := settles_perform t.speaks (hplain t List.mem_cons_self) c hquiet
    obtain ⟨hendings, hlast⟩ := ih (fun u hu => hplain u (List.mem_cons_of_mem _ hu)) hc'
    rw [converse, outcomes, hend]
    dsimp only
    rw [hendings, hpast]
    exact ⟨rfl, hlast⟩

/-- Reading files gives what their listed blobs give. -/
theorem exec_account_files {r : Reader} {revision : String} {entries : List (String × String)}
    (h : ending (r.treeEntries revision) = .ok entries) (answers : Nat → Bytes → HelperAnswer) (paths : List String)
    (p : Past) : Run.exec (Call.account r answers (.files revision (some paths))) p =
      Run.exec ((fun files => Yield.contents (Record.putAll files [])) <$>
        paths.mapM (r.listedFile answers revision entries)) p := by
  rw [Call.account, h]
  rfl

/-- A turn in a repository of one commit and two files `a.py` and `b.py` with one blob `b1`. -/
def turnAt (call : Call) (answer : HelperAnswer) (endsAt? : Nat → Option HelperEnd := fun _ => none) : Turn where
  repository :=
    { locate := fun _ => none
      answer := fun
        | .listTree _ =>
          .exited 0 (Utf8.encode "100644 blob b1\ta.py" ++ 0 :: Utf8.encode "100644 blob b1\tb.py" ++ [0]) []
        | _ => .exited 0 (Utf8.encode "c1\n") []
      reply := fun line => answer.reply line
      endsAt? := endsAt? }
  answers := fun time _ =>
    match endsAt? time with
    | some .exits => .ends
    | some (.broken kept) => .broken kept
    | none => answer
  speaks := fun time line _ => by
    unfold Repository.replyAt
    dsimp only
    rcases endsAt? time with _ | _ | _ <;> rfl
  call := call

/-- A content that looks like a reply is returned as it is, and after every refusal, other object, end of the
helper and closing, also one that fails, the next call gets its own object. -/
theorem converse_eq_outcomes_mixed :
    let r : Reader := { repository := (turnAt .close .missing).repository, location := "/r" }
    let blob : HelperAnswer := .object
      { name := Utf8.encode "b1", kind := Utf8.encode "blob", content := Utf8.encode "b2 blob 2\n\nb2 missing\n" }
    let tree : HelperAnswer := .object
      { name := Utf8.encode "t1", kind := Utf8.encode "tree", content := Utf8.encode "\n" }
    let content := Utf8.encode "b2 blob 2\n\nb2 missing\n"
    (r.converse [turnAt (.blob "b1") blob, turnAt (.blob "b9") .missing, turnAt (.file "HEAD" "a.py") .ambiguous,
        turnAt (.file "HEAD" "lib") tree, turnAt (.blob "b1") .ends, turnAt (.blob "b1") blob,
        turnAt (.files "HEAD" (some ["a.py", "b.py"])) blob fun time => if time = 7 then some .broken else none,
        turnAt .close .missing, turnAt (.blob "b1") (.broken true), turnAt .close .missing, turnAt .close .missing,
        turnAt (.files "HEAD" (some ["b.py"])) blob] {}).1 =
      [.ok (.content content), .error (.notFound "b9" none), .error (.notFound "HEAD" (some "a.py")),
        .error (.notFound "HEAD" (some "lib")), .error (r.helperFailure "helper exited"), .ok (.content content),
        .error (r.helperFailure "[Errno 32] Broken pipe"), .ok .nothing,
        .error (r.helperFailure "[Errno 32] Broken pipe"),
        .error (.fault (.other "BrokenPipeError" "[Errno 32] Broken pipe")), .ok .nothing,
        .ok (.contents [("b.py", content)])] := by
  intro r blob tree content
  have hsha : ∀ call answer, ending (((turnAt call answer).reader r).resolve "HEAD") = .ok "c1" := by
    intro call answer
    rfl
  have hentries : ∀ call answer endsAt?, ending (((turnAt call answer endsAt?).reader r).treeEntries "HEAD") =
      .ok [("a.py", "b1"), ("b.py", "b1")] := by
    intro call answer endsAt?
    rfl
  have hfile : ∀ call answer path, '\n' ∉ ("c1" ++ ":" ++ path).toList →
      (Call.file "HEAD" path).IsPlain ((turnAt call answer).reader r) := by
    intro call answer path hpath sha hend
    cases (hsha call answer).symm.trans hend
    exact hpath
  refine (converse_eq_outcomes r (c := {}) (fun t ht => ?_) rfl).1.trans ?_
  · simp only [List.mem_cons, List.not_mem_nil, or_false] at ht
    rcases ht with rfl | rfl | rfl | rfl | rfl | rfl | rfl | rfl | rfl | rfl | rfl | rfl
    · exact show '\n' ∉ "b1".toList by decide
    · exact show '\n' ∉ "b9".toList by decide
    · exact hfile _ _ "a.py" (by decide)
    · exact hfile _ _ "lib" (by decide)
    · exact show '\n' ∉ "b1".toList by decide
    · exact show '\n' ∉ "b1".toList by decide
    · trivial
    · trivial
    · exact show '\n' ∉ "b1".toList by decide
    · trivial
    · trivial
    · trivial
  · refine outcomes_cons r ⟨1, false⟩ rfl (outcomes_cons r ⟨2, false⟩ rfl (outcomes_cons r ⟨3, false⟩ rfl ?_))
    refine outcomes_cons r ⟨4, false⟩ rfl (outcomes_cons r ⟨5, false⟩ rfl (outcomes_cons r ⟨6, false⟩ rfl ?_))
    refine outcomes_cons r ⟨8, false⟩ ((exec_account_files (hentries _ _ _) _ _ _).trans rfl) ?_
    refine outcomes_cons r ⟨8, false⟩ rfl (outcomes_cons r ⟨9, true⟩ rfl (outcomes_cons r ⟨9, false⟩ rfl ?_))
    refine outcomes_cons r ⟨9, false⟩ rfl ?_
    exact outcomes_cons r ⟨10, false⟩ ((exec_account_files (hentries _ _ _) _ _ _).trans rfl) rfl

end Reader

end Hotspots
