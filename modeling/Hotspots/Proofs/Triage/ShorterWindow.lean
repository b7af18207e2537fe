import Hotspots.Proofs.Git.CoveringWalk
import Hotspots.Proofs.Git.HistoryRepository
import Hotspots.Proofs.History.LaterWalk

/-!
# A shorter window never inflates churn

Two runs that read windows of different lengths of one history know different things of its files, but the shorter
window never counts more. The commits of the shorter window are the last ones of the longer, so that its walk is one
that began later (`Walk.isPartOf_ofWindow`), and what either window left untouched is filled up with one change.
-/

namespace Hotspots

variable {f : ObjectFormat}

namespace Walk

/-! ## The walks of two windows -/

/-- The walk of a run is the one along its commits, filled up or not. -/
theorem ofWindow_cases (commits : List Commit) (files : List String) :
    ofWindow commits files = commits.foldl feed {} ∨
      ∃ time, ofWindow commits files = (commits.foldl feed {}).backfill (Reader.sorted files) time := by
  unfold ofWindow ofCommits
  cases commits with
  | nil => exact .inl rfl
  | cons first rest =>
    rw [List.head?_cons, Option.any_some]
    cases first.isRoot with
    | true => exact .inl rfl
    | false => exact .inr ⟨first.timestamp, rfl⟩

/-- The walk of a run is sound. -/
theorem sound_ofWindow (commits : List Commit) (files : List String) : (ofWindow commits files).Sound := by
  have hwalked : (commits.foldl feed {}).Sound := sound_empty.foldl_feed commits
  rcases ofWindow_cases commits files with h | ⟨time, h⟩
  · rw [h]
    exact hwalked
  · rw [h]
    exact hwalked.backfill _ time

/-- Every record of a run counts a change. -/
theorem isCounted_ofWindow (commits : List Commit) (files : List String) : (ofWindow commits files).IsCounted := by
  have hwalked : (commits.foldl feed {}).IsCounted := IsCounted.empty.grow (growsBy_foldl_feed {} commits)
  rcases ofWindow_cases commits files with h | ⟨time, h⟩
  · rw [h]
    exact hwalked
  · rw [h]
    exact hwalked.grow (growsBy_backfill _ _ time)

/-- The walk of the newer commits is part of the walk of all of them, if that one has every file open. -/
theorem isPartOf_ofWindow (earlier newer : List Commit) {files : List String}
    (hopen : ∀ path ∈ files, (ofWindow (earlier ++ newer) files).isOpen path = true) :
    (ofWindow newer files).IsPartOf (ofWindow (earlier ++ newer) files) := by
  have hearlier : (earlier.foldl feed {}).Sound := sound_empty.foldl_feed earlier
  have hwalked : (newer.foldl feed {}).IsPartOf ((earlier ++ newer).foldl feed {}) := by
    rw [List.foldl_append]
    exact (IsPartOf.of_empty _).foldl_feed sound_empty hearlier (IsCounted.empty.grow (growsBy_foldl_feed {} earlier))
      newer
  -- The greater walk is filled up first: the paths that the part is then filled up with have to be open in it.
  have hfilled : (newer.foldl feed {}).IsPartOf (ofWindow (earlier ++ newer) files) := by
    rcases ofWindow_cases (earlier ++ newer) files with h | ⟨time, h⟩
    · rw [h]
      exact hwalked
    · rw [h]
      exact hwalked.backfill_right (sound_empty.foldl_feed _) _ time
  rcases ofWindow_cases newer files with h | ⟨time, h⟩
  · rw [h]
    exact hfilled
  · rw [h]
    refine hfilled.backfill_left (sound_empty.foldl_feed newer) (sound_ofWindow _ _) (isCounted_ofWindow _ _)
      (fun path hpath => hopen path ?_) time
    exact (List.mergeSort_perm _ _).mem_iff.1 hpath

/-- A walk that covers a tree has one live record at each of its files, which is the open one. -/
theorem Covers.liveAt_eq {w : Walk} {t : Tree f} (h : w.Covers t) {path : String} (hpath : path ∈ t.files) :
    ∃ r, w.history.liveAt path = [r] ∧ w.recordAt? path = some r := by
  obtain ⟨place, hat⟩ := Option.isSome_iff_exists.1 (h.isOpen path hpath)
  obtain ⟨r, hr, hlive⟩ := h.tracks.accounted.liveAt_eq h.tracks.sound hat
  refine ⟨r, hlive, ?_⟩
  rw [recordAt?, hat]
  exact hr

/-- If one walk is part of another and both cover a tree, the live record of the one at a file is part of that of the
other. -/
theorem IsPartOf.liveAt {w v : Walk} (h : w.IsPartOf v) {t : Tree f} (hw : w.Covers t) (hv : v.Covers t)
    {path : String} (hpath : path ∈ t.files) :
    ∃ a b, w.history.liveAt path = [a] ∧ v.history.liveAt path = [b] ∧ a.IsPartOf b := by
  obtain ⟨a, hlivea, ha⟩ := hw.liveAt_eq hpath
  obtain ⟨b, hliveb, hb⟩ := hv.liveAt_eq hpath
  obtain ⟨b', hb', hab⟩ := h path a ha
  obtain rfl : b = b' := Option.some.inj (hb.symm.trans hb')
  exact ⟨a, b, hlivea, hliveb, hab⟩

end Walk

namespace Revision

variable {content : String → Bytes} {l : Renames.Limits} {revisions : List (Revision f)}

/-! ## Windows of different lengths -/

/-- The commits of a history that are read with a limit on their number, for given contents. -/
def newestCommits (content : String → Bytes) (l : Renames.Limits) (limit : Int) (revisions : List (Revision f)) :
    List Commit :=
  replayed content l (lastTree .empty (revisions.take (leftOut limit revisions)))
    (revisions.drop (leftOut limit revisions))

/-- The commits that are read replay a window of the history. -/
theorem isWindow_newestCommits (h : IsHistory .empty revisions) (hne : revisions ≠ []) (limit : Int) :
    IsWindow revisions (newestCommits content l limit revisions) :=
  isWindow_replayed h (List.take_append_drop _ _).symm (drop_leftOut_ne_nil limit hne) content l

/-- A greater limit leaves out no more revisions. -/
theorem leftOut_le (revisions : List (Revision f)) {k m : Int} (hkm : 0 < m → 0 < k ∧ k ≤ m) :
    leftOut m revisions ≤ leftOut k revisions := by
  unfold leftOut
  split
  · next hm =>
    obtain ⟨hk, hle⟩ := hkm hm
    rw [if_pos hk]
    omega
  · exact Nat.zero_le _

/-- The commits that are read with a limit are the last ones of those that are read with a greater limit. -/
theorem exists_newestCommits_append (content : String → Bytes) (l : Renames.Limits) (revisions : List (Revision f))
    {k m : Int} (hkm : 0 < m → 0 < k ∧ k ≤ m) :
    ∃ earlier, newestCommits content l m revisions = earlier ++ newestCommits content l k revisions := by
  unfold newestCommits
  obtain ⟨extra, hextra⟩ := Nat.exists_eq_add_of_le (leftOut_le revisions hkm)
  generalize leftOut m revisions = fewer at hextra ⊢
  refine ⟨replayed content l (lastTree .empty (revisions.take fewer)) ((revisions.drop fewer).take extra), ?_⟩
  calc replayed content l (lastTree .empty (revisions.take fewer)) (revisions.drop fewer)
      = replayed content l (lastTree .empty (revisions.take fewer))
          ((revisions.drop fewer).take extra ++ revisions.drop (fewer + extra)) := by
        rw [← List.drop_drop, List.take_append_drop]
    _ = _ := by rw [replayed_append, ← lastTree_append, ← List.take_add, ← hextra]

end Revision

namespace Triage

variable {r : Reader} {name : String} {revisions : List (Revision f)} {store : ObjectStore f} {last : Revision f}

/-- A run with a limit reads the churn of the newest commits. -/
theorem gives_readHistory_newestCommits {T : Prop} {t : Triage} (h : r.repository.Shows name revisions store)
    (hlimits : r.repository.KeepsLimits revisions) (hT : T → r.repository.Answers name revisions store)
    (hlast : revisions.getLast? = some last) {limit : Int} (ht : t.settings .gitMaxCommits = .int limit)
    (hlimit : T → Reader.checkLimit (.int limit) = .ok ()) :
    Run.Gives T (Conversation.IsReady T) (t.readHistory r name)
      (some (Walk.ofWindow (Revision.newestCommits store.content r.limits limit revisions)
        last.tree.files).history) := by
  have hne : revisions ≠ [] := List.ne_nil_of_mem (List.mem_of_getLast? hlast)
  have hparts := (List.take_append_drop (Revision.leftOut limit revisions) revisions).symm
  refine t.gives_readHistory h hT hlast hparts (Revision.drop_leftOut_ne_nil limit hne) ?_ ?_ ?_
  · rw [ht]
    exact hlimits last hlast limit
  · rw [ht]
    exact fun ht => (hT ht).log last hlast limit
  · rw [ht]
    exact hlimit

/-- Of two runs that read the same history in windows of different lengths, each comes to one churn, whatever
contents are loaded for renames: in both of them every regular file of the last tree has one live record, and that of
the shorter window counts no more changes and has the last of the earlier paths. The runs do come to their churn if
the repository answers, they are not cancelled, and their limits can be written. -/
theorem churn_of_shorter_window (h : r.repository.Shows name revisions store)
    (hlimits : r.repository.KeepsLimits revisions) (hlast : revisions.getLast? = some last)
    {t u : Triage} {k m : Int} (ht : t.settings .gitMaxCommits = .int k) (hu : u.settings .gitMaxCommits = .int m)
    (hkm : 0 < m → 0 < k ∧ k ≤ m) {c d : Conversation} (hc : c.IsQuiet) (hd : d.IsQuiet) :
    ∃ short long : ChurnHistory,
      (∀ churn c', (t.readHistory r name).Returns c churn c' → churn = some short) ∧
      (∀ churn d', (u.readHistory r name).Returns d churn d' → churn = some long) ∧
      (r.repository.Answers name revisions store → c.session.cancelled = false → d.session.cancelled = false →
        (Reader.checkLimit (.int k) = .ok () → ∃ c', (t.readHistory r name).Returns c (some short) c') ∧
          (Reader.checkLimit (.int m) = .ok () → ∃ d', (u.readHistory r name).Returns d (some long) d')) ∧
      ∀ path ∈ last.tree.files, ∃ a b, short.liveAt path = [a] ∧ long.liveAt path = [b] ∧
        a.changeCount ≤ b.changeCount ∧ a.identity.previousPaths <:+ b.identity.previousPaths := by
  -- What a run with a limit needs so as not to fail; without it the run only has no other result.
  let T (limit : Int) (e : Conversation) := r.repository.Answers name revisions store ∧ e.session.cancelled = false ∧
    Reader.checkLimit (.int limit) = .ok ()
  have hshort := gives_readHistory_newestCommits (T := T k c) h hlimits And.left hlast ht fun hT => hT.2.2
  have hlong := gives_readHistory_newestCommits (T := T m d) h hlimits And.left hlast hu fun hT => hT.2.2
  have hreadyc : c.IsReady (T k c) := ⟨hc, fun hT => hT.2.1⟩
  have hreadyd : d.IsReady (T m d) := ⟨hd, fun hT => hT.2.1⟩
  have hne : revisions ≠ [] := List.ne_nil_of_mem (List.mem_of_getLast? hlast)
  have hcovers : ∀ limit, (Walk.ofWindow (Revision.newestCommits store.content r.limits limit revisions)
      last.tree.files).Covers last.tree := fun limit =>
    (Walk.covers_ofWindow h.hasParents hlast (Revision.isWindow_newestCommits h.isHistory hne limit)).1
  have hpart : (Walk.ofWindow (Revision.newestCommits store.content r.limits k revisions) last.tree.files).IsPartOf
      (Walk.ofWindow (Revision.newestCommits store.content r.limits m revisions) last.tree.files) := by
    obtain ⟨earlier, hcommits⟩ := Revision.exists_newestCommits_append store.content r.limits revisions hkm
    have hopen := (hcovers m).isOpen
    rw [hcommits] at hopen ⊢
    exact Walk.isPartOf_ofWindow earlier _ hopen
  refine ⟨_, _, fun churn c' hrun => (hshort.ensures c churn c' hreadyc hrun).1,
    fun churn d' hrun => (hlong.ensures d churn d' hreadyd hrun).1,
    fun hanswers hcalmc hcalmd => ?_, fun path hpath => ?_⟩
  · exact ⟨fun hk => hshort.returns ⟨hanswers, hcalmc, hk⟩ c hreadyc,
      fun hm => hlong.returns ⟨hanswers, hcalmd, hm⟩ d hreadyd⟩
  · obtain ⟨a, b, ha, hb, hab⟩ := hpart.liveAt (hcovers k) (hcovers m) hpath
    exact ⟨a, b, ha, hb, hab.changeCount_le, hab.previousPaths_suffix⟩

/-! ## A file that is moved and edited -/

/-- The identifier that repeats a digit. -/
def idOf (digit : Char) (hhex : RawLog.isHexDigit digit = true := by decide) (hzero : digit ≠ '0' := by decide) :
    ObjectId .sha1 := .repeated .sha1 digit hhex hzero

/-- A file, a symbolic link and a link to another repository, with one more file. -/
def treeWith (entry : String × TreeNode .sha1)
    (hpath : entry.1 ∉ ["", "kept.py", "link.py", "sub.py"] := by decide) : Tree .sha1 where
  entries := [entry, ("kept.py", .file false (idOf '7')), ("link.py", .symlink (idOf '8')),
    ("sub.py", .gitlink (idOf '9'))]
  nodup := by
    simp only [List.mem_cons, not_or] at hpath
    simp [hpath]
  ne_empty := by
    simp only [List.mem_cons, not_or] at hpath
    simp [Ne.symm hpath.1]

/-- A history in which a file is added, moved and edited. -/
def movedHistory : List (Revision .sha1) :=
  let added := treeWith ("a.py", .file false (idOf 'd'))
  let moved := treeWith ("b.py", .file false (idOf 'd'))
  let edited := treeWith ("b.py", .file false (idOf 'e'))
  [⟨(idOf '1').text, [], 10, added, Revision.differing .empty added⟩,
   ⟨(idOf '2').text, [(idOf '1').text], 20, moved, Revision.differing added moved⟩,
   ⟨(idOf '3').text, [(idOf '2').text], 30, edited, Revision.differing moved edited⟩]

/-- A store in which the content of every blob is its name. -/
def namedStore : ObjectStore .sha1 := fun id => some (.blob, Utf8.encode id.text)

/-- An analysis of the newest commits. -/
def limitedTo (limit : Int) : Triage :=
  .ofSettings fun
    | .gitMaxCommits => .int limit
    | field => field.default

/-- The newest commit of the history says nothing of the file that stays, and not that the other one was moved. -/
theorem churn_of_shorter_window_moved :
    let r : Reader := { repository := .ofHistory movedHistory namedStore, location := "." }
    r.repository.Shows "HEAD" movedHistory namedStore ∧ r.repository.KeepsLimits movedHistory ∧
      r.repository.Answers "HEAD" movedHistory namedStore ∧ ∃ short long : ChurnHistory,
        (∃ c, ((limitedTo 1).readHistory r "HEAD").Returns {} (some short) c) ∧
        (∃ d, ((limitedTo 0).readHistory r "HEAD").Returns {} (some long) d) ∧
        ∀ path ∈ ["b.py", "kept.py"], ∃ a b, short.liveAt path = [a] ∧ long.liveAt path = [b] ∧
          a.changeCount ≤ b.changeCount ∧ a.identity.previousPaths <:+ b.identity.previousPaths := by
  intro r
  have hhistory : Revision.IsHistory .empty movedHistory :=
    ⟨Revision.follows_of_listed_eq rfl, Revision.follows_of_listed_eq rfl, Revision.follows_of_listed_eq rfl, trivial⟩
  have hnamed : ∀ r ∈ movedHistory, r.IsNamed := by
    simp only [movedHistory, List.forall_mem_cons, List.not_mem_nil, false_imp_iff, implies_true, and_true]
    exact ⟨⟨⟨idOf '1', rfl⟩, List.forall_mem_nil _, by decide⟩,
      ⟨⟨idOf '2', rfl⟩, List.forall_mem_singleton.2 ⟨idOf '1', rfl⟩, by decide⟩,
      ⟨⟨idOf '3', rfl⟩, List.forall_mem_singleton.2 ⟨idOf '2', rfl⟩, by decide⟩⟩
  have hparents : ∀ r ∈ movedHistory.tail, r.parents ≠ [] := by simp [movedHistory]
  have hpath : ∀ r ∈ movedHistory, ∀ path ∈ r.tree.entries.map Prod.fst, Char.ofNat 0 ∉ path.toList := by decide
  have hblobs : ∀ r ∈ movedHistory, ∀ path (id : ObjectId .sha1),
      TreeNode.blobOf (r.tree.node? path) = some id.text →
        ∃ content, namedStore id = some (.blob, content) ∧ content.length < 2 ^ 63 := by
    intro r _ path id _
    refine ⟨_, rfl, ?_⟩
    rw [Utf8.encode, Utf8.encodeChars_of_isAscii id.isAscii, List.length_map, id.length_eq]
    decide
  have htime : ∀ r ∈ movedHistory, (natText r.timestamp.toNat).toList.length ≤ Reading.maxDigits := by decide
  have hshows : r.repository.Shows "HEAD" movedHistory namedStore :=
    Repository.shows_ofHistory "HEAD" hhistory hnamed hparents hpath
  have hanswers : r.repository.Answers "HEAD" movedHistory namedStore :=
    Repository.answers_ofHistory "HEAD" hblobs htime
  obtain ⟨short, long, -, -, hreturns, hchurn⟩ := churn_of_shorter_window (r := r) (c := {}) (d := {})
    (t := limitedTo 1) (u := limitedTo 0) hshows Repository.keepsLimits_ofHistory rfl rfl rfl (by decide) rfl rfl
  obtain ⟨hshort, hlong⟩ := hreturns hanswers rfl rfl
  exact ⟨hshows, Repository.keepsLimits_ofHistory, hanswers, short, long, hshort rfl, hlong rfl, hchurn⟩

end Triage

end Hotspots
