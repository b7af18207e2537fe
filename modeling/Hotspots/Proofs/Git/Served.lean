import Hotspots.Proofs.Git.Header
import Hotspots.Proofs.History.Tree
import Hotspots.Proofs.Run.Ensures

/-!
# Contents that the helper serves

A helper serves the objects of a store: the line with an identifier is answered by one line, and by the
content if there is an object. Reading a blob takes its answer as a whole, so that nothing is left unread
for the next request, and the content that is returned is the one in the store.
-/

namespace Hotspots

variable {f : ObjectFormat}

/-- The kinds of objects. -/
inductive ObjectKind where
  | blob
  | tree
  | commit
  | tag
  deriving DecidableEq, Repr

/-- The name of a kind of object. -/
def ObjectKind.name : ObjectKind → String
  | blob => "blob"
  | tree => "tree"
  | commit => "commit"
  | tag => "tag"

/-- The objects of a repository. -/
abbrev ObjectStore (f : ObjectFormat) := ObjectId f → Option (ObjectKind × Bytes)

/-- An identifier is ASCII. -/
theorem ObjectId.isAscii (id : ObjectId f) : Utf8.IsAscii id.text.toList := by
  intro c hc
  have hcode := RawLog.toNat_of_isHexDigit (List.all_eq_true.1 id.isHex c hc)
  omega

namespace ObjectStore

/-- The first line of the answer for an object, without its end. -/
def head (id : ObjectId f) (kind : ObjectKind) (content : Bytes) : Bytes :=
  [32].intercalate [Utf8.encode id.text, Utf8.encode kind.name, Utf8.encode (natText content.length)]

/-- What the helper prints for an identifier. -/
def shown (store : ObjectStore f) (id : ObjectId f) : Bytes :=
  match store id with
  | some (kind, content) => head id kind content ++ 10 :: (content ++ [10])
  | none => Utf8.encode id.text ++ Utf8.encode " missing" ++ [10]

/-- The content of the blob with a text as its identifier; nothing for other texts. -/
def content (store : ObjectStore f) (text : String) : Bytes :=
  match (ObjectId.ofText? text).bind store with
  | some (.blob, content) => content
  | _ => []

/-- The content of a blob is found by the text of its identifier. -/
theorem content_text {store : ObjectStore f} {id : ObjectId f} {bytes : Bytes} (h : store id = some (.blob, bytes)) :
    store.content id.text = bytes := by
  rw [content, ObjectId.ofText?_text, Option.bind_some, h]

/-- A repository serves a store: whatever is printed for an identifier is what the store shows. -/
def IsServedBy (store : ObjectStore f) (repository : Repository) : Prop :=
  ∀ id output, repository.reply (Utf8.encode id.text) = .printed output → output = store.shown id

end ObjectStore

/-- What the helper prints at a request is its reply to the line. -/
theorem Repository.reply_eq_of_replyAt {repository : Repository} {time : Nat} {line output : Bytes}
    (h : repository.replyAt time line = .printed output) : repository.reply line = .printed output := by
  unfold replyAt at h
  split at h
  · cases h
  · cases h
  · exact h

/-- Nothing that the helper has printed is unread. -/
def Conversation.IsQuiet (c : Conversation) : Prop := c.helper.getD [] = []

namespace Reader

/-- The log does not touch the helper. -/
theorem isSilent_isQuiet : Run.IsSilent Conversation.IsQuiet := fun _ _ h => h

/-! ## The line of an identifier -/

/-- An identifier is a word of bytes. -/
theorem isByteWord_text (id : ObjectId f) : IsByteWord (Utf8.encode id.text) := by
  refine isByteWord_encode (fun hnil => ?_) fun c hc => ?_
  · have hlength := id.length_eq
    rw [hnil] at hlength
    cases f <;> cases hlength
  · have hcode := RawLog.toNat_of_isHexDigit (List.all_eq_true.1 id.isHex c hc)
    omega

/-- The name of a kind of object is a word of bytes. -/
theorem isByteWord_name (kind : ObjectKind) : IsByteWord (Utf8.encode kind.name) := by
  refine isByteWord_encode ?_ ?_ <;> cases kind <;> simp [ObjectKind.name]

/-- The kind and the size of an object are read from its line. -/
theorem eq_of_kindAndSize_head {id : ObjectId f} {kind : ObjectKind} {content : Bytes} {k : Bytes} {size : Int}
    (h : kindAndSize (ObjectStore.head id kind content ++ [10]) = .ok (k, size)) :
    k = Utf8.encode kind.name ∧ size = content.length := by
  have hread := (kindAndSize_objectLine (isByteWord_text id) (isByteWord_name kind) content.length).symm.trans h
  cases hn : Reading.whole (Quoted.bytes (Utf8.encode (natText content.length)))
      (natText content.length).toList with
  | error e =>
    rw [hn] at hread
    cases hread
  | ok n =>
    rw [hn] at hread
    injection hread with hread
    injection hread with hk hsize
    exact ⟨hk.symm, hsize ▸ Reading.eq_of_whole_natText hn⟩

/-- The line for no object has no end inside. -/
theorem not_mem_missing (id : ObjectId f) : 10 ∉ Utf8.encode id.text ++ Utf8.encode " missing" := by
  rw [List.mem_append, not_or]
  exact ⟨(isByteWord_text id).not_mem, by decide⟩

/-! ## The answer for an identifier -/

/-- The answer for an identifier is read as the content of its blob, and nothing is left unread. -/
theorem eq_of_returns_readReply {r : Reader} {store : ObjectStore f} {id : ObjectId f} {spec : String}
    {content : Bytes} {s s' : Conversation}
    (h : (r.readReply spec true (store.shown id)).Returns s content s') :
    store id = some (.blob, content) ∧ s'.IsQuiet := by
  unfold readReply at h
  cases hstore : store id with
  | none =>
    rw [ObjectStore.shown, hstore] at h
    dsimp only at h
    rw [readLine_append (not_mem_missing id) []] at h
    obtain ⟨_, s₁, -, h⟩ := Run.returns_bind.1 h
    rw [if_neg (by simp), if_pos (isRefusal_missing _)] at h
    exact (Run.returns_fail.1 h).elim
  | some object =>
    obtain ⟨kind, bytes⟩ := object
    rw [ObjectStore.shown, hstore] at h
    dsimp only at h
    have hnone : 10 ∉ ObjectStore.head id kind bytes :=
      not_mem_objectLine (isByteWord_text id) (isByteWord_name kind) bytes.length
    have hobject : isRefusal (ObjectStore.head id kind bytes ++ [10]) = false :=
      isRefusal_objectLine (Utf8.encode id.text) (Utf8.encode kind.name) bytes.length
    rw [readLine_append hnone] at h
    obtain ⟨_, s₁, -, h⟩ := Run.returns_bind.1 h
    rw [if_neg (by simp), if_neg (by simp [hobject])] at h
    obtain ⟨⟨kind', size⟩, s₂, hsize, h⟩ := Run.returns_bind.1 h
    obtain ⟨⟨content', rest⟩, s₃, hbytes, h⟩ := Run.returns_bind.1 h
    obtain ⟨_, s₄, hleave, h⟩ := Run.returns_bind.1 h
    obtain ⟨rfl, rfl⟩ := eq_of_kindAndSize_head (Run.returns_ofFault.1 hsize).1
    obtain ⟨rfl, rfl⟩ := eq_of_readBytes (Run.returns_ofFault.1 hbytes).1
    have hquiet : s₄.IsQuiet := by
      rw [← Run.returns_update.1 hleave]
      rfl
    by_cases hkind : Utf8.encode kind.name = Utf8.encode "blob"
    · rw [if_pos hkind] at h
      obtain ⟨rfl, rfl⟩ := Run.returns_pure.1 h
      have hblob : kind = .blob := by
        revert hkind
        cases kind <;> decide
      exact ⟨by rw [hblob], hquiet⟩
    · rw [if_neg hkind] at h
      exact (Run.returns_fail.1 h).elim

/-- A blob that is read has the content of the store, and nothing is left unread. -/
theorem ensures_blobContent {r : Reader} {store : ObjectStore f} (hserved : store.IsServedBy r.repository)
    (id : ObjectId f) :
    Run.Ensures Conversation.IsQuiet (r.blobContent id.text) fun content =>
      store id = some (.blob, content) := by
  intro s content s' hquiet h
  have hline : Pieces.splitOn 10 (Utf8.encode id.text) = [Utf8.encode id.text] :=
    Pieces.splitOn_of_not_mem (isByteWord_text id).not_mem
  obtain ⟨t, s₁, hstate, h⟩ := Run.returns_bind.1 h
  obtain ⟨rfl, rfl⟩ := Run.returns_state.1 hstate
  obtain ⟨_, s₂, -, h⟩ := Run.returns_bind.1 h
  rw [show s.helper.getD [] = [] from hquiet, hline] at h
  simp only [send] at h
  cases hreply : r.repository.replyAt s.requests (Utf8.encode id.text) with
  | printed output =>
    rw [hreply] at h
    dsimp only at h
    rw [hserved id output (Repository.reply_eq_of_replyAt hreply), List.nil_append] at h
    exact eq_of_returns_readReply h
  | exits =>
    rw [hreply] at h
    obtain ⟨_, s₃, -, h⟩ := Run.returns_bind.1 h
    exact (Run.returns_fail.1 h).elim
  | broken =>
    rw [hreply] at h
    obtain ⟨_, s₃, -, h⟩ := Run.returns_bind.1 h
    exact (Run.returns_fail.1 h).elim

end Reader

end Hotspots
