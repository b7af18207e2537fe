import Hotspots.Proofs.Git.Served
import Hotspots.Proofs.Run.Exec

/-!
# One request and its answer

The helper answers the line of a request by an object, by a refusal, or by its own end. Whichever it is, a
request that is made when nothing is unread ends as its own answer says, and leaves nothing unread
(`Reader.exec_readObject`): a content is taken up to its size and the line end behind it, a refusal is one
line, and the output of a helper that has ended is dropped.
-/

namespace Hotspots

/-- An object as the helper shows it. The size of its content fits in a machine word. -/
structure ShownObject where
  name : Bytes
  kind : Bytes
  content : Bytes
  isWord_name : Reader.IsByteWord name := by decide
  isWord_kind : Reader.IsByteWord kind := by decide
  fits : content.length < 2 ^ 63 := by decide

/-- What the helper makes of a request. -/
inductive HelperAnswer where
  | object (o : ShownObject)
  | missing
  | ambiguous
  /-- The helper ends without a reply. -/
  | ends
  /-- The line cannot be sent. It may be kept to be sent once more. -/
  | broken (kept : Bool := false)

namespace HelperAnswer

/-- What the helper does with the line of a request. -/
def reply (line : Bytes) : HelperAnswer → Reply
  | object o => .printed (Reader.objectLine o.name o.kind o.content.length ++ 10 :: (o.content ++ [10]))
  | missing => .printed (line ++ Utf8.encode " missing" ++ [10])
  | ambiguous => .printed (line ++ Utf8.encode " ambiguous" ++ [10])
  | ends => .exits
  | broken kept => .broken kept

/-- What a request gives: the content of a blob, or a failure. Whatever is not a blob fails in one way. -/
def outcome (r : Reader) (noBlob : Failure) : HelperAnswer → Except Failure Bytes
  | object o => if o.kind = Utf8.encode "blob" then .ok o.content else .error noBlob
  | missing => .error noBlob
  | ambiguous => .error noBlob
  | ends => .error (r.helperFailure "helper exited")
  | broken _ => .error (r.helperFailure Reader.brokenPipe)

/-- Whether a request with this answer leaves a line that is sent once more. -/
def leavesUnsent : HelperAnswer → Bool
  | broken kept => kept
  | _ => false

end HelperAnswer

/-- The helper of a repository answers the line of every request of a conversation as it is said. -/
def Repository.Speaks (repository : Repository) (answers : Nat → Bytes → HelperAnswer) : Prop :=
  ∀ time line, 10 ∉ line → repository.replyAt time line = (answers time line).reply line

namespace Reader

variable {r : Reader} {spec : String} {c : Conversation}

/-! ## The reply of a request -/

/-- What is left of the output of a helper that goes on. -/
theorem exec_leave (isRunning : Bool) (unread : Bytes) (c : Conversation) :
    Run.exec (leave isRunning unread) c =
      (.ok (), { c with helper := if isRunning then some unread else none, unsent := false }) := rfl

/-- The size of an object that is shown is read from its line. -/
theorem exec_kindAndSize (o : ShownObject) (c : Conversation) :
    Run.exec (Run.ofFault (kindAndSize (objectLine o.name o.kind o.content.length ++ [10])) : Talk _) c =
      (.ok (o.kind, (o.content.length : Int)), c) := by
  have hdigits : (natText o.content.length).toList.length ≤ Reading.maxDigits :=
    Nat.le_trans (Reading.length_natText_le (k := 19) (by decide) (by have := o.fits; omega)) (by decide)
  rw [kindAndSize_objectLine o.isWord_name o.isWord_kind, Reading.whole_natText hdigits]
  rfl

/-- The reply for an object is read up to its end; what follows stays unread. -/
theorem exec_readReply_object (o : ShownObject) (left : Bytes) :
    Run.exec (r.readReply spec true
        (objectLine o.name o.kind o.content.length ++ 10 :: (o.content ++ 10 :: left))) c =
      ((HelperAnswer.object o).outcome r (.notFound spec none), { c with helper := some left, unsent := false }) := by
  unfold readReply
  rw [readLine_append (not_mem_objectLine o.isWord_name o.isWord_kind _)]
  dsimp only
  rw [Run.exec_bind_of_ok (exec_leave _ _ _), if_neg (by simp), if_neg (by simp [isRefusal_objectLine]),
    Run.exec_bind_of_ok (exec_kindAndSize o _)]
  dsimp only
  rw [Run.exec_bind_of_ok (by rw [readBytes_append o.fits]; rfl)]
  dsimp only
  rw [Run.exec_bind_of_ok (exec_leave _ _ _), HelperAnswer.outcome]
  split <;> rfl

/-- The reply for a refused name is one line; what follows stays unread. -/
theorem exec_readReply_refusal {line : Bytes} (hline : 10 ∉ line) (hrefusal : isRefusal (line ++ [10]) = true)
    (left : Bytes) :
    Run.exec (r.readReply spec true (line ++ 10 :: left)) c =
      (.error (.notFound spec none), { c with helper := some left, unsent := false }) := by
  unfold readReply
  rw [readLine_append hline left]
  dsimp only
  rw [Run.exec_bind_of_ok (exec_leave _ _ _), if_neg (by simp), if_pos hrefusal]
  rfl

/-- The reply to a line is read up to its end and ends as the answer says; what follows stays unread. -/
theorem exec_readReply_reply {answer : HelperAnswer} {line output : Bytes} (hline : 10 ∉ line)
    (hreply : answer.reply line = .printed output) (left : Bytes) :
    Run.exec (r.readReply spec true (output ++ left)) c =
      (answer.outcome r (.notFound spec none), { c with helper := some left, unsent := false }) := by
  have hrefused {refusal : Bytes} (hrefusal : 10 ∉ refusal) : 10 ∉ line ++ refusal := by
    rw [List.mem_append, not_or]
    exact ⟨hline, hrefusal⟩
  cases answer with
  | object o =>
    cases hreply
    rw [List.append_assoc, List.cons_append, List.append_assoc]
    exact exec_readReply_object o left
  | missing =>
    cases hreply
    rw [List.append_assoc _ [10]]
    exact exec_readReply_refusal (hrefused (by decide)) (isRefusal_missing line) left
  | ambiguous =>
    cases hreply
    rw [List.append_assoc _ [10]]
    exact exec_readReply_refusal (hrefused (by decide)) (isRefusal_ambiguous line) left
  | ends => cases hreply
  | broken kept => cases hreply

/-- A helper that ends without a reply leaves nothing to read. -/
theorem exec_readReply_nothing :
    Run.exec (r.readReply spec false []) c =
      (.error (r.helperFailure "helper exited"), { c with helper := none, unsent := false }) := rfl

/-! ## The request -/

/-- A text without a line end has no byte of a line end. -/
theorem not_mem_encode {s : String} (h : '\n' ∉ s.toList) : 10 ∉ Utf8.encode s := by
  intro hmem
  obtain ⟨c, hc, hcode⟩ := Utf8.exists_of_mem_encodeChars hmem (by decide)
  have hchar : c = '\n' := by rw [← Char.ofNat_toNat c, ← hcode]; rfl
  exact h (hchar ▸ hc)

/-- A request that is made when nothing is unread ends as the answer to its line says, leaves nothing unread and a line
unsent only if the answer says so, and does not touch the session. -/
theorem exec_readObject_of_reply {answer : HelperAnswer} (hspec : '\n' ∉ spec.toList)
    (hreply : r.repository.replyAt c.requests (Utf8.encode spec) = answer.reply (Utf8.encode spec))
    (hquiet : c.IsQuiet) :
    ∃ c', Run.exec (r.readObject spec) c = (answer.outcome r (.notFound spec none), c') ∧
      c'.IsQuiet ∧ c'.requests = c.requests + 1 ∧ c'.unsent = answer.leavesUnsent ∧ c'.session = c.session := by
  have hline := not_mem_encode hspec
  unfold readObject
  rw [Run.exec_bind_of_ok (Run.exec_state c), Run.exec_bind_of_ok (Run.exec_update _ _),
    show c.helper.getD [] = [] from hquiet, Pieces.splitOn_of_not_mem hline]
  simp only [send, hreply, List.nil_append]
  have hprinted (output : Bytes) (houtput : answer.reply (Utf8.encode spec) = .printed output) :
      ∃ c', Run.exec (r.readReply spec true output) { c with requests := c.requests + 1 } =
          (answer.outcome r (.notFound spec none), c') ∧
        c'.IsQuiet ∧ c'.requests = c.requests + 1 ∧ c'.unsent = false ∧ c'.session = c.session := by
    refine ⟨{ c with requests := c.requests + 1, helper := some [], unsent := false }, ?_, rfl, rfl, rfl, rfl⟩
    rw [← List.append_nil output]
    exact exec_readReply_reply hline houtput []
  cases answer with
  | object o => exact hprinted _ rfl
  | missing => exact hprinted _ rfl
  | ambiguous => exact hprinted _ rfl
  | ends => exact ⟨_, exec_readReply_nothing, rfl, rfl, rfl, rfl⟩
  | broken kept => exact ⟨_, rfl, rfl, rfl, rfl, rfl⟩

/-- A request that is made when nothing is unread ends as its own answer says, and leaves nothing unread. -/
theorem exec_readObject {answers : Nat → Bytes → HelperAnswer} (hspeaks : r.repository.Speaks answers)
    (hspec : '\n' ∉ spec.toList) (hquiet : c.IsQuiet) :
    ∃ c', Run.exec (r.readObject spec) c =
        ((answers c.requests (Utf8.encode spec)).outcome r (.notFound spec none), c') ∧
      c'.IsQuiet ∧ c'.requests = c.requests + 1 ∧
      c'.unsent = (answers c.requests (Utf8.encode spec)).leavesUnsent := by
  have hreply := hspeaks c.requests _ (not_mem_encode hspec)
  obtain ⟨c', hexec, hquiet', hrequests, hunsent, -⟩ := exec_readObject_of_reply hspec hreply hquiet
  exact ⟨c', hexec, hquiet', hrequests, hunsent⟩

end Reader

end Hotspots
