import Hotspots.Proofs.Git.Exchange
import Hotspots.Proofs.Git.Shown
import Hotspots.Proofs.Git.Undisturbed
import Hotspots.Proofs.Run.Gives

/-!
# Commands that were answered

A command that is run leaves the helper alone, and its output is what the repository prints. The name of a
revision is resolved to the commit that is printed for it, and a blob is read with the content that the store has.
Under a condition `T` that rules out failures and cancellations all of this succeeds.
-/

namespace Hotspots

/-- A conversation in which nothing is unread and which is not cancelled, if there is a condition against it. -/
def Conversation.IsReady (T : Prop) (c : Conversation) : Prop := c.IsQuiet ∧ (T → c.session.cancelled = false)

/-- Running a command keeps an invariant of conversations. -/
def Repository.Keeps (repository : Repository) (P : Conversation → Prop) : Prop :=
  ∀ c s, P s → P (Run.exec (Reader.execute repository c) s).2

namespace Reader

open Conversation (IsReady)

variable {f : ObjectFormat} {r : Reader} {T : Prop} {P : Conversation → Prop} {α : Type} {a : α}

/-- The log does not touch the helper or the mark of a cancellation. -/
theorem isSilent_isReady : Run.IsSilent (IsReady T) := fun _ _ h => h

/-- What is given without a condition is ensured in every conversation in which nothing is unread. -/
theorem ensures_of_gives {t : Talk α} (h : Run.Gives False (IsReady False) t a) :
    Run.Ensures Conversation.IsQuiet t fun a' => a' = a := by
  intro s a' s' hs hreturns
  obtain ⟨ha, hs', -⟩ := h.ensures s a' s' ⟨hs, False.elim⟩ hreturns
  exact ⟨ha, hs'⟩

/-! ## Commands -/

/-- Commands keep a conversation ready if none of them cancels the run. -/
theorem keeps_isReady {repository : Repository}
    (hcalm : T → ∀ command time, repository.cancels command time = false) : repository.Keeps (IsReady T) := by
  intro c s hs
  rw [exec_execute]
  refine ⟨?_, fun hT => ?_⟩
  · dsimp only
    split <;> exact hs.1
  · rw [hcalm hT, if_neg Bool.false_ne_true]
    exact hs.2 hT

/-- Running a command gives the answer of the repository. -/
theorem gives_execute {repository : Repository} (hP : repository.Keeps P) (c : GitCommand) :
    Run.Gives T P (execute repository c) (repository.answer c) where
  ensures s a s' hs h := by
    have hexec := (exec_execute repository c s).symm.trans h
    have hkept := hP c s hs
    rw [exec_execute] at hkept
    injection hexec with ha hs'
    injection ha with ha
    exact ⟨ha.symm, hs' ▸ hkept⟩
  returns _ s _ := ⟨_, exec_execute repository c s⟩

/-- What follows a command gives its result if it does so after every answer, and the command comes to its end. -/
theorem gives_run_bind (hP : r.repository.Keeps P) {c : GitCommand}
    {g : Int × Bytes × Bytes → Talk α}
    (hg : ∀ code output complaint, r.repository.answer c = .exited code output complaint →
      Run.Gives T P (g (code, output, complaint)) a)
    (hends : T → ∃ code output complaint, r.repository.answer c = .exited code output complaint) :
    Run.Gives T P (r.run c >>= g) a := by
  have hfailure : ∀ ending, r.repository.answer c = ending →
      (∀ code output complaint, ending ≠ .exited code output complaint) → ¬T := by
    intro ending hanswer hne hT
    obtain ⟨code, output, complaint, hexited⟩ := hends hT
    exact hne code output complaint (hanswer.symm.trans hexited)
  rw [run, bind_assoc]
  refine (gives_execute hP c).bind ?_
  cases hanswer : r.repository.answer c with
  | exited code output complaint => exact (Run.gives_pure _).bind (hg code output complaint hanswer)
  | timedOut => exact Run.gives_fail (hfailure _ hanswer nofun)
  | missing => exact Run.gives_fail (hfailure _ hanswer nofun)
  | refused fault => exact Run.gives_fail (hfailure _ hanswer nofun)
  | interrupted => exact Run.gives_fail (hfailure _ hanswer nofun)

/-- What follows a command that must succeed gives its result if it does so after what the repository prints. -/
theorem gives_run_success (hP : r.repository.Keeps P) {c : GitCommand}
    {printed : Bytes} (hprints : r.repository.Prints c printed) (hsucceeds : T → r.repository.Succeeds c)
    {g : Bytes → Talk α} (hg : Run.Gives T P (g printed) a) (e : Int × Bytes × Bytes → Failure) :
    Run.Gives T P
      (r.run c >>= fun ended => if ended.1 = 0 then g ended.2.1 else Run.fail (e ended)) a := by
  refine gives_run_bind hP (fun code output complaint hanswer => ?_) fun hT => ?_
  · dsimp only
    split
    · next hcode =>
      obtain rfl := hprints output complaint (hcode ▸ hanswer)
      exact hg
    · next hcode =>
      refine Run.gives_fail fun hT => hcode ?_
      obtain ⟨output', complaint', hsuccess⟩ := hsucceeds hT
      rw [hanswer] at hsuccess
      injection hsuccess
  · obtain ⟨output, complaint, hsuccess⟩ := hsucceeds hT
    exact ⟨0, output, complaint, hsuccess⟩

/-- A command that must succeed prints what the repository prints. -/
theorem gives_output (hP : r.repository.Keeps P) {c : GitCommand}
    {printed : Bytes} (hprints : r.repository.Prints c printed) (hsucceeds : T → r.repository.Succeeds c) :
    Run.Gives T P (r.output c) printed :=
  gives_run_success hP hprints hsucceeds (Run.gives_pure printed) fun ended =>
    commandFailure r.location c.arguments ended.1 (Utf8.decodeLossy ended.2.2)

/-! ## Names of revisions -/

/-- ASCII bytes are read as the text that they encode. -/
theorem asciiText_encode {s : String} (h : Utf8.IsAscii s.toList) : asciiText (Utf8.encode s) = .ok s := by
  have hnone : (Utf8.encode s).findIdx? (128 ≤ ·) = none := by
    rw [List.findIdx?_eq_none_iff]
    intro b hb
    have hsmall := Utf8.toNat_lt_of_mem_encodeChars h hb
    simpa [UInt8.le_iff_toNat_le] using hsmall
  have hchars : (Utf8.encode s).map (fun b => Char.ofNat b.toNat) = s.toList := Utf8.map_ofNat_encodeChars h
  rw [asciiText, hnone]
  dsimp only
  rw [hchars, String.ofList_toList]

/-- The line of a commit is read as its name. -/
theorem trimText_text (id : ObjectId f) : Blank.trimText (id.text ++ "\n") = id.text := by
  obtain ⟨hne, hword⟩ := id.isWord
  rw [Blank.trimText, String.toList_append, Blank.trim_append hne, String.ofList_toList]
  · exact fun c hc => hword c (List.mem_of_head? hc)
  · exact fun c hc => hword c (List.mem_of_getLast? hc)
  · have hend : Blank.isBlank '\n' = true := by decide
    simp [hend]

/-- A name for which a commit is printed is resolved to that commit. -/
theorem gives_resolve (hP : r.repository.Keeps P) {name : String}
    {id : ObjectId f} (hprints : r.repository.Prints (.verify name) (Utf8.encode (id.text ++ "\n")))
    (hsucceeds : T → r.repository.Succeeds (.verify name)) :
    Run.Gives T P (r.resolve name) id.text := by
  have hascii : Utf8.IsAscii (id.text ++ "\n").toList := by
    rw [String.toList_append, Utf8.isAscii_append]
    exact ⟨id.isAscii, by decide⟩
  refine gives_run_success hP hprints hsucceeds
    (g := fun output => do return Blank.trimText (← Run.ofFault (asciiText output))) ?_ fun _ => .notFound name none
  rw [asciiText_encode hascii]
  refine (Run.gives_ofFault (a := id.text ++ "\n") (fun _ h => (Except.ok.inj h).symm) fun _ => rfl).bind ?_
  rw [trimText_text]
  exact Run.gives_pure _

/-! ## Blobs -/

/-- The text of an identifier is one line. -/
theorem newline_not_mem_text (id : ObjectId f) : '\n' ∉ id.text.toList := fun hmem =>
  absurd (RawLog.toNat_of_isHexDigit (List.all_eq_true.1 id.isHex _ hmem)) (by decide)

/-- A blob that is served is read, and the session is left alone. -/
theorem exec_blobContent {store : ObjectStore f} {id : ObjectId f} {content : Bytes} {s : Conversation}
    (hrunning : r.repository.endsAt? s.requests = none) (hstore : store id = some (.blob, content))
    (hfits : content.length < 2 ^ 63) (hreply : r.repository.reply (Utf8.encode id.text) = .printed (store.shown id))
    (hquiet : s.IsQuiet) :
    ∃ s', Run.exec (r.blobContent id.text) s = (.ok content, s') ∧ s'.session = s.session := by
  let shown : ShownObject :=
    { name := Utf8.encode id.text, kind := Utf8.encode "blob", content := content,
      isWord_name := isByteWord_text id, fits := hfits }
  have hanswer : r.repository.replyAt s.requests (Utf8.encode id.text) =
      (HelperAnswer.object shown).reply (Utf8.encode id.text) := by
    rw [Repository.replyAt, hrunning]
    dsimp only
    rw [hreply, ObjectStore.shown, hstore]
    rfl
  obtain ⟨s', hexec, -, -, -, hsession⟩ := exec_readObject_of_reply (newline_not_mem_text id) hanswer hquiet
  rw [HelperAnswer.outcome, if_pos rfl] at hexec
  exact ⟨s', hexec, hsession⟩

/-- A blob is read with the content that the store has, and nothing is left unread. -/
theorem gives_blobContent_quiet {store : ObjectStore f} (hserved : store.IsServedBy r.repository) {id : ObjectId f}
    (hrunning : T → ∀ time, r.repository.endsAt? time = none)
    (hblob : T → ∃ content, store id = some (.blob, content) ∧ content.length < 2 ^ 63 ∧
      r.repository.reply (Utf8.encode id.text) = .printed (store.shown id)) :
    Run.Gives T Conversation.IsQuiet (r.blobContent id.text) (store.content id.text) where
  ensures s content s' hs h := by
    obtain ⟨hstore, hquiet⟩ := ensures_blobContent hserved id s content s' hs h
    exact ⟨(ObjectStore.content_text hstore).symm, hquiet⟩
  returns hT s hs := by
    obtain ⟨bytes, hbytes, hfits, hreply⟩ := hblob hT
    obtain ⟨s', hexec, -⟩ := exec_blobContent (hrunning hT _) hbytes hfits hreply hs
    exact ⟨s', by rw [ObjectStore.content_text hbytes]; exact hexec⟩

/-- A blob is read with the content that the store has, and the run is not cancelled by that. -/
theorem gives_blobContent {store : ObjectStore f} (hserved : store.IsServedBy r.repository) {id : ObjectId f}
    (hrunning : T → ∀ time, r.repository.endsAt? time = none)
    (hblob : T → ∃ content, store id = some (.blob, content) ∧ content.length < 2 ^ 63 ∧
      r.repository.reply (Utf8.encode id.text) = .printed (store.shown id)) :
    Run.Gives T (IsReady T) (r.blobContent id.text) (store.content id.text) where
  ensures s content s' hs h := by
    obtain ⟨hcontent, hquiet⟩ := (gives_blobContent_quiet hserved hrunning hblob).ensures s content s' hs.1 h
    refine ⟨hcontent, hquiet, fun hT => ?_⟩
    obtain ⟨bytes, hbytes, hfits, hreply⟩ := hblob hT
    obtain ⟨s'', hexec, hsession⟩ := exec_blobContent (hrunning hT _) hbytes hfits hreply hs.1
    obtain rfl : s' = s'' := congrArg Prod.snd (h.symm.trans hexec)
    rw [hsession]
    exact hs.2 hT
  returns hT s hs := (gives_blobContent_quiet hserved hrunning hblob).returns hT s hs.1

end Reader

end Hotspots
