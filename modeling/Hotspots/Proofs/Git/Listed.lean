import Hotspots.Proofs.Git.Answered

/-!
# Files that a listing names

The listing of a tree is read as its regular files with their blobs; symbolic links and links to other
repositories are left out.
-/

namespace Hotspots

variable {f : ObjectFormat}

namespace Tree

/-- The regular files of a tree with their blobs. -/
def fileBlobs (t : Tree f) : List (String × String) :=
  (t.entries.filter (·.2.isFile)).map fun (path, node) => (path, node.id.text)

/-- The files with blobs are the regular files. -/
theorem map_fst_fileBlobs (t : Tree f) : t.fileBlobs.map Prod.fst = t.files := by
  rw [fileBlobs, List.map_map]
  rfl

/-- No regular file is listed twice. -/
theorem nodup_files (t : Tree f) : t.files.Nodup := (List.filter_sublist.map _).nodup t.nodup

end Tree

namespace TreeNode

/-- The columns of an entry of a listing. -/
def listedColumns (node : TreeNode f) : String := node.mode ++ " " ++ node.kind.name ++ " " ++ node.id.text

/-- The columns of an entry are words with blanks between them. -/
theorem toList_listedColumns (node : TreeNode f) : node.listedColumns.toList =
    [' '].intercalate [node.mode.toList, node.kind.name.toList, node.id.text.toList] := by
  simp [listedColumns, String.toList_append, List.intercalate]

/-- The columns of an entry are words. -/
theorem isWord_of_mem_listedColumns (node : TreeNode f) :
    ∀ w ∈ [node.mode.toList, node.kind.name.toList, node.id.text.toList], Difference.IsWord w := by
  have hmode : Difference.IsWord node.mode.toList := Difference.isWord_modeOf (some node)
  have hkinds : ∀ k : ObjectKind, Difference.IsWord k.name.toList := by
    intro k
    cases k <;> decide
  simp only [List.forall_mem_cons, List.not_mem_nil, false_imp_iff, implies_true, and_true]
  exact ⟨hmode, hkinds node.kind, node.id.isWord⟩

/-- The columns of an entry are read back. -/
theorem words_listedColumns (node : TreeNode f) :
    Blank.words node.listedColumns = [node.mode, node.kind.name, node.id.text] := by
  rw [Blank.words, Blank.wordsFrom_eq, toList_listedColumns,
    wordsBy_intercalate (by decide) node.isWord_of_mem_listedColumns]
  simp

/-- The characters of the columns of an entry. -/
theorem toNat_of_mem_listedColumns {node : TreeNode f} {c : Char} (h : c ∈ node.listedColumns.toList) :
    32 ≤ c.toNat ∧ c.toNat < 128 := by
  have hmodes : ∀ m ∈ ["100644", "100755", "120000", RawLog.linkMode],
      ∀ c ∈ m.toList, 32 ≤ c.toNat ∧ c.toNat < 128 := by simp [RawLog.linkMode]
  have hmode : node.mode ∈ ["100644", "100755", "120000", RawLog.linkMode] := by
    rcases node with (_ | _) | _ | _ <;> simp [mode]
  have hkinds : ∀ k : ObjectKind, ∀ c ∈ k.name.toList, 32 ≤ c.toNat ∧ c.toNat < 128 := by
    intro k
    cases k <;> simp [ObjectKind.name]
  have hblank : ∀ c ∈ " ".toList, 32 ≤ c.toNat ∧ c.toNat < 128 := by simp
  simp only [listedColumns, String.toList_append, List.mem_append] at h
  rcases h with (((h | h) | h) | h) | h
  · exact hmodes node.mode hmode c h
  · exact hblank c h
  · exact hkinds node.kind c h
  · exact hblank c h
  · have hcode := RawLog.toNat_of_isHexDigit (List.all_eq_true.1 node.id.isHex c h)
    omega

/-- The columns of an entry are ASCII. -/
theorem isAscii_listedColumns (node : TreeNode f) : Utf8.IsAscii node.listedColumns.toList :=
  fun _ hc => (toNat_of_mem_listedColumns hc).2

/-- No byte below the blank is in the columns of an entry. -/
theorem not_mem_listedColumns (node : TreeNode f) {b : UInt8} (hb : b.toNat < 32) :
    b ∉ Utf8.encode node.listedColumns := by
  intro hmem
  obtain ⟨c, hc, hcode⟩ := Utf8.exists_of_mem_encodeChars hmem (by omega)
  have hlow := (toNat_of_mem_listedColumns hc).1
  omega

/-- A path as it is stored, with its node, as a file listing has it. -/
def storedEntry (path : Bytes) (node : TreeNode f) : TreeEntry :=
  { mode := node.mode, kind := node.kind.name, oid := node.id.text, path := path }

/-- An entry of a listing is its columns, a tab and its path. -/
theorem line_storedEntry (path : Bytes) (node : TreeNode f) :
    (node.storedEntry path).line = (Utf8.encode node.listedColumns ++ 9 :: path) ++ [0] := by
  have htab : Utf8.encode "\t" = [9] := by decide
  rw [TreeEntry.line, storedEntry]
  dsimp only
  rw [Utf8.encode_append, htab, ← listedColumns]
  simp

end TreeNode

namespace Reader

/-- The entries of a listing are read as the files with their blobs, under the texts of their paths. -/
theorem entriesOfListing_map (entries : List (Bytes × TreeNode f)) :
    entriesOfListing ((entries.map fun (path, node) => Utf8.encode node.listedColumns ++ 9 :: path) ++ [[]]) =
      .ok ((entries.filter (·.2.isFile)).map fun (path, node) => (Utf8.decodeLossy path, node.id.text)) := by
  induction entries with
  | nil => rfl
  | cons entry rest ih =>
    obtain ⟨path, node⟩ := entry
    rw [List.map_cons, List.cons_append, entriesOfListing, if_neg (by simp)]
    dsimp only
    rw [Pieces.partition_append (node.not_mem_listedColumns (by decide)), asciiText_encode node.isAscii_listedColumns]
    dsimp only [bind, Except.bind]
    rw [node.words_listedColumns, ih]
    dsimp only
    have hkept : (node.kind.name ≠ "blob" ∨ node.mode = "120000") ↔ ¬node.isFile = true := by
      rcases node with (_ | _) | _ | _ <;> simp [TreeNode.kind, ObjectKind.name, TreeNode.mode,
        TreeNode.isFile, RawLog.linkMode]
    by_cases hfile : node.isFile = true
    · rw [if_neg (by rw [hkept]; exact not_not.2 hfile)]
      simp [hfile, pure, Except.pure]
    · rw [if_pos (hkept.2 hfile)]
      simp [hfile, pure, Except.pure]

/-- A listing of paths without null bytes is read as its files with their blobs. -/
theorem entriesOfListing_lines {entries : List (Bytes × TreeNode f)} (hpath : ∀ e ∈ entries, 0 ∉ e.1) :
    entriesOfListing (Pieces.splitOn 0 (entries.flatMap fun (path, node) => (node.storedEntry path).line)) =
      .ok ((entries.filter (·.2.isFile)).map fun (path, node) => (Utf8.decodeLossy path, node.id.text)) := by
  have hlisting : (entries.flatMap fun (path, node) => (node.storedEntry path).line) = (entries.map fun (path, node) =>
      Utf8.encode node.listedColumns ++ 9 :: path).flatMap (· ++ [0]) := by
    rw [List.flatMap_map]
    exact congrArg (entries.flatMap ·) (funext fun (path, node) => TreeNode.line_storedEntry path node)
  rw [hlisting, Pieces.splitOn_flatMap, entriesOfListing_map]
  intro item hitem
  obtain ⟨⟨path, node⟩, hentry, rfl⟩ := List.mem_map.1 hitem
  have hcolumns : 0 ∉ Utf8.encode node.listedColumns := node.not_mem_listedColumns (by decide)
  have hbytes : 0 ∉ path := hpath _ hentry
  simp [hcolumns, hbytes]

/-- The listing of a tree without null characters is read as its files with their blobs. -/
theorem entriesOfListing_listing {t : Tree f}
    (hpath : ∀ path ∈ t.entries.map Prod.fst, Char.ofNat 0 ∉ path.toList) :
    entriesOfListing (Pieces.splitOn 0 t.listing) = .ok t.fileBlobs := by
  let stored := t.entries.map fun (path, node) => (Utf8.encode path, node)
  have hlisting : t.listing = stored.flatMap fun (path, node) => (node.storedEntry path).line := by
    rw [Tree.listing, List.flatMap_map]
    rfl
  have hread : ((stored.filter (·.2.isFile)).map fun (path, node) => (Utf8.decodeLossy path, node.id.text)) =
      t.fileBlobs := by
    simp only [stored, List.filter_map, List.map_map, Tree.fileBlobs, Function.comp_def, Utf8.decodeLossy_encode]
  rw [hlisting, entriesOfListing_lines, hread]
  intro e he hmem
  obtain ⟨⟨path, node⟩, hentry, rfl⟩ := List.mem_map.1 he
  obtain ⟨c, hc, hcode⟩ := Utf8.exists_of_mem_encodeChars hmem (by decide)
  obtain rfl : c = Char.ofNat 0 := Char.ext (UInt32.toNat_inj.1 hcode.symm)
  exact hpath path (List.mem_map.2 ⟨_, hentry, rfl⟩) hc

open Conversation (IsReady)

variable {r : Reader} {name : String} {revisions : List (Revision f)} {store : ObjectStore f}
  {last : Revision f} {T : Prop}

/-- The last revision is resolved by its name and by its commit. -/
theorem gives_resolve_last (h : r.repository.Shows name revisions store)
    (hT : T → r.repository.Answers name revisions store) (hlast : revisions.getLast? = some last) {n : String}
    (hn : n ∈ [name, last.sha]) : Run.Gives T (IsReady T) (r.resolve n) last.sha := by
  obtain ⟨id, hid⟩ := (h.isNamed last (List.mem_of_getLast? hlast)).sha
  have hprints := h.names last hlast n hn
  have hsucceeds : T → r.repository.Succeeds (.verify n) := fun ht =>
    (hT ht).verify last hlast n (List.mem_cons_of_mem _ hn)
  rw [hid] at hprints ⊢
  exact gives_resolve (keeps_isReady fun ht => (hT ht).isCalm) hprints hsucceeds

/-- The regular files of the last revision are read with their blobs. -/
theorem gives_treeEntries (h : r.repository.Shows name revisions store)
    (hT : T → r.repository.Answers name revisions store) (hlast : revisions.getLast? = some last) :
    Run.Gives T (IsReady T) (r.treeEntries last.sha) last.tree.fileBlobs := by
  have hread := entriesOfListing_listing (h.isPath last (List.mem_of_getLast? hlast))
  have hnodup : (last.tree.fileBlobs.map Prod.fst).Nodup := by
    rw [Tree.map_fst_fileBlobs]
    exact last.tree.nodup_files
  refine (gives_resolve_last h hT hlast (by simp)).bind ?_
  have hkeeps : r.repository.Keeps (IsReady T) := keeps_isReady fun ht => (hT ht).isCalm
  refine (gives_output hkeeps (h.listing last hlast) fun ht => (hT ht).listing last hlast).bind ?_
  refine (Run.gives_ofFault (a := last.tree.fileBlobs) (fun entries hentries => ?_) fun _ => hread).bind ?_
  · exact Except.ok.inj (hentries.symm.trans hread)
  · rw [Record.putAll_nil hnodup]
    exact Run.gives_pure _

/-- The regular files of the last revision are listed. -/
theorem gives_listFiles (h : r.repository.Shows name revisions store)
    (hT : T → r.repository.Answers name revisions store) (hlast : revisions.getLast? = some last) :
    Run.Gives T (IsReady T) (r.listFiles last.sha) (sorted last.tree.files) := by
  rw [← Tree.map_fst_fileBlobs]
  exact (gives_treeEntries h hT hlast).bind (Run.gives_pure _)

end Reader

end Hotspots
