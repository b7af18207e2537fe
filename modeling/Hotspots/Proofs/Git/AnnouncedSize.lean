import Hotspots.Proofs.Git.Exchange

/-!
# Contents and their announced sizes

The first line of a reply announces how many bytes follow. A helper may end before it has printed them all:
what is there is returned then, without a failure. A content that is returned has its announced size exactly
when the output was not cut in this way (`Reader.hasAnnouncedSize_iff`), and one that was cut has not
(`Reader.not_hasAnnouncedSize_of_cut`).
-/

namespace Hotspots.Reader

variable {r : Reader} {spec : String} {c : Conversation} {printed content : Bytes}

/-- What the helper has printed, if it took every line. -/
def Sent.printed? : Sent → Option Bytes
  | running printed => some printed
  | ended printed => some printed
  | broken _ => none

/-- What stands in the pipe after a request, from the first byte that nobody has read. -/
def stream? (r : Reader) (spec : String) (c : Conversation) : Option Bytes :=
  (send (r.repository.replyAt c.requests) (c.helper.getD []) (Pieces.splitOn 10 (Utf8.encode spec))).printed?

/-- The size that the first line of an output announces. -/
def announced? (printed : Bytes) : Option Int :=
  match kindAndSize (readLine printed).1 with
  | .ok (_, size) => some size
  | .error _ => none

/-- An output that announces a blob of more bytes than follow, or of all that follow. -/
def IsCut (printed : Bytes) : Prop :=
  isRefusal (readLine printed).1 = false ∧
    ∃ size, kindAndSize (readLine printed).1 = .ok (Utf8.encode "blob", size) ∧
      (size = -1 ∨ ((readLine printed).2.length : Int) < size ∧ size < 2 ^ 63)

/-- A request whose content, if it is returned, has the announced size. -/
def HasAnnouncedSize (r : Reader) (spec : String) (c : Conversation) : Prop :=
  ∀ content c', (r.blobContent spec).Returns c content c' →
    ∃ printed, r.stream? spec c = some printed ∧ announced? printed = some (content.length : Int)

/-- A request ends as the reading of its reply. -/
theorem exec_blobContent_of_stream? (h : r.stream? spec c = some printed) :
    ∃ isRunning, Run.exec (r.blobContent spec) c =
      Run.exec (r.readReply spec isRunning printed) { c with requests := c.requests + 1 } := by
  unfold blobContent readObject
  rw [Run.exec_bind_of_ok (Run.exec_state c), Run.exec_bind_of_ok (Run.exec_update _ _)]
  rw [stream?] at h
  cases hsent : send (r.repository.replyAt c.requests) (c.helper.getD [])
      (Pieces.splitOn 10 (Utf8.encode spec)) with
  | running printed' =>
    rw [hsent] at h
    cases h
    exact ⟨true, rfl⟩
  | ended printed' =>
    rw [hsent] at h
    cases h
    exact ⟨false, rfl⟩
  | broken kept =>
    rw [hsent] at h
    cases h

/-- A request that returns has a reply. -/
theorem exists_stream? {c' : Conversation} (h : (r.blobContent spec).Returns c content c') :
    ∃ printed, r.stream? spec c = some printed := by
  unfold blobContent readObject at h
  obtain ⟨_, c₁, hstate, h⟩ := Run.returns_bind.1 h
  obtain ⟨rfl, rfl⟩ := Run.returns_state.1 hstate
  obtain ⟨_, c₂, -, h⟩ := Run.returns_bind.1 h
  rw [stream?]
  cases hsent : send (r.repository.replyAt c.requests) (c.helper.getD [])
      (Pieces.splitOn 10 (Utf8.encode spec)) with
  | running printed => exact ⟨printed, rfl⟩
  | ended printed => exact ⟨printed, rfl⟩
  | broken kept =>
    rw [hsent] at h
    obtain ⟨_, c₃, -, h⟩ := Run.returns_bind.1 h
    exact (Run.returns_fail.1 h).elim

/-- A reply is returned if its first line announces a blob and as many bytes as announced are read. -/
theorem returns_readReply_iff {isRunning : Bool} :
    (∃ c', (r.readReply spec isRunning printed).Returns c content c') ↔
      isRefusal (readLine printed).1 = false ∧
        ∃ size left, kindAndSize (readLine printed).1 = .ok (Utf8.encode "blob", size) ∧
          readBytes size (readLine printed).2 = .ok (content, left) := by
  unfold readReply
  dsimp only
  constructor
  · rintro ⟨c', h⟩
    obtain ⟨_, c₁, -, h⟩ := Run.returns_bind.1 h
    split at h
    · exact (Run.returns_fail.1 h).elim
    split at h
    · exact (Run.returns_fail.1 h).elim
    next hrefusal =>
      obtain ⟨⟨kind, size⟩, c₂, hsize, h⟩ := Run.returns_bind.1 h
      obtain ⟨⟨content', left⟩, c₃, hbytes, h⟩ := Run.returns_bind.1 h
      obtain ⟨_, c₄, -, h⟩ := Run.returns_bind.1 h
      split at h
      · next hkind =>
        obtain ⟨rfl, -⟩ := Run.returns_pure.1 h
        subst hkind
        exact ⟨by simpa using hrefusal, size, left, (Run.returns_ofFault.1 hsize).1,
          (Run.returns_ofFault.1 hbytes).1⟩
      · exact (Run.returns_fail.1 h).elim
  · rintro ⟨hrefusal, size, left, hsize, hbytes⟩
    have hheader : (readLine printed).1.isEmpty = false := by
      cases hempty : (readLine printed).1 with
      | nil =>
        rw [hempty] at hsize
        cases hsize
      | cons b rest => rfl
    rw [hheader, hrefusal, if_neg Bool.false_ne_true, if_neg Bool.false_ne_true]
    refine ⟨{ c with helper := if isRunning then some (left.drop 1) else none, unsent := false }, ?_⟩
    unfold Run.Returns
    rw [Run.exec_bind_of_ok (exec_leave _ _ _), hsize, Run.exec_bind_of_ok (Run.exec_ofFault _ _), hbytes,
      Run.exec_bind_of_ok (Run.exec_ofFault _ _), Run.exec_bind_of_ok (exec_leave _ _ _), if_pos rfl,
      Run.exec_pure]

/-- Bytes are as many as asked for unless there are fewer. -/
theorem length_eq_of_readBytes_iff {size : Int} {bytes left : Bytes}
    (h : readBytes size bytes = .ok (content, left)) :
    (content.length : Int) = size ↔ ¬(size = -1 ∨ (bytes.length : Int) < size ∧ size < 2 ^ 63) := by
  unfold readBytes at h
  split at h
  · cases h
  split at h
  · cases h
    omega
  split at h
  · cases h
  cases h
  rw [List.length_take]
  omega

/-- Bytes are read if the number of them is one that can be asked for. -/
theorem exists_readBytes {size : Int} {bytes : Bytes}
    (h : size = -1 ∨ (bytes.length : Int) < size ∧ size < 2 ^ 63) :
    ∃ content left, readBytes size bytes = .ok (content, left) := by
  unfold readBytes
  rw [if_neg (by omega)]
  rcases h with rfl | h
  · exact ⟨bytes, [], rfl⟩
  · rw [if_neg (by omega), if_neg (by omega)]
    exact ⟨_, _, rfl⟩

/-- A content that is returned has its announced size exactly if the output of the helper is not cut. -/
theorem hasAnnouncedSize_iff (r : Reader) (spec : String) (c : Conversation) :
    r.HasAnnouncedSize spec c ↔ ∀ printed, r.stream? spec c = some printed → ¬IsCut printed := by
  constructor
  · rintro h printed hstream ⟨hrefusal, size, hsize, hcut⟩
    obtain ⟨isRunning, hexec⟩ := exec_blobContent_of_stream? hstream
    obtain ⟨content, left, hbytes⟩ := exists_readBytes hcut
    obtain ⟨c', hc'⟩ := returns_readReply_iff.2 ⟨hrefusal, size, left, hsize, hbytes⟩
    obtain ⟨printed', hstream', hannounced⟩ := h content c' (hexec.trans hc')
    cases hstream.symm.trans hstream'
    rw [announced?, hsize, Option.some.injEq] at hannounced
    exact (length_eq_of_readBytes_iff hbytes).1 hannounced.symm hcut
  · intro h content c' hreturns
    obtain ⟨printed, hstream⟩ := exists_stream? hreturns
    obtain ⟨isRunning, hexec⟩ := exec_blobContent_of_stream? hstream
    obtain ⟨hrefusal, size, left, hsize, hbytes⟩ := returns_readReply_iff.1 ⟨c', hexec.symm.trans hreturns⟩
    refine ⟨printed, hstream, ?_⟩
    rw [announced?, hsize, Option.some.injEq, eq_comm, length_eq_of_readBytes_iff hbytes]
    exact fun hcut => h printed hstream ⟨hrefusal, size, hsize, hcut⟩

/-- A helper that ends after two of three bytes makes a content of two bytes. -/
theorem not_hasAnnouncedSize_of_cut :
    let reply := Utf8.encode "b1 blob 3\nab"
    let r : Reader :=
      { repository := { locate := fun _ => none, answer := fun _ => .missing, reply := fun _ => .printed reply }
        location := "/r" }
    Run.exec (r.blobContent "b1") {} = (.ok (Utf8.encode "ab"), { helper := some [], requests := 1 }) ∧
      announced? reply = some 3 ∧ ¬r.HasAnnouncedSize "b1" {} := by
  intro reply r
  have hreturns : Run.exec (r.blobContent "b1") {} =
      (.ok (Utf8.encode "ab"), { helper := some [], requests := 1 }) := rfl
  refine ⟨hreturns, rfl, fun h => ?_⟩
  obtain ⟨printed, hstream, hannounced⟩ := h _ _ hreturns
  cases hstream
  cases hannounced

end Hotspots.Reader
