import CrossRef.Proofs.Commit
import CrossRef.Proofs.Reach
import CrossRef.Proofs.Selection

namespace CrossRef

open Text

theorem EntryMode.isFile_eq_false_iff {mode : EntryMode} :
    mode.isFile = false ↔ mode = .link ∨ mode = .submodule := by
  cases mode <;> decide

namespace Repository

theorem mem_of_mem_dedupFrom {p q : Path} {ps : List Path} (h : q ∈ dedupFrom p ps) : q ∈ p :: ps := by
  fun_induction dedupFrom p ps <;> grind

theorem exists_mem_dedupFrom {p q : Path} {ps : List Path} (h : q ∈ p :: ps) :
    ∃ r ∈ dedupFrom p ps, r.same q = true := by
  induction ps generalizing p q
  case nil =>
    obtain rfl := List.mem_singleton.mp h
    exact ⟨q, List.mem_singleton_self q, Path.same_iff.mpr rfl⟩
  case cons r rest ih =>
    rw [dedupFrom]
    split
    case isTrue hs =>
      obtain rfl | h := List.mem_cons.mp h
      · exact ih (List.mem_cons_self ..)
      · obtain rfl | h := List.mem_cons.mp h
        · obtain ⟨x, hx, hxp⟩ := ih (List.mem_cons_self (a := p))
          exact ⟨x, hx, Path.same_iff.mpr ((Path.same_iff.mp hxp).trans (Path.same_iff.mp hs))⟩
        · exact ih (List.mem_cons_of_mem _ h)
    case isFalse =>
      obtain rfl | h := List.mem_cons.mp h
      · exact ⟨q, List.mem_cons_self .., Path.same_iff.mpr rfl⟩
      · have ⟨x, hx, hxq⟩ := ih h
        exact ⟨x, List.mem_cons_of_mem _ hx, hxq⟩

theorem mem_dedup_iff {ps : List Path} (h : ∀ p ∈ ps, ∀ q ∈ ps, p.same q = true → p = q) {p : Path} :
    p ∈ dedup ps ↔ p ∈ ps := by
  cases ps
  case nil => rfl
  case cons first rest =>
    refine ⟨mem_of_mem_dedupFrom, fun hp => ?_⟩
    have ⟨q, hq, hs⟩ := exists_mem_dedupFrom hp
    exact h q (mem_of_mem_dedupFrom hq) p hp hs ▸ hq

theorem pairwise_lt_dedupFrom {p : Path} {ps : List Path}
    (h : (p :: ps).Pairwise fun p q => p.rank ≤ q.rank) : (dedupFrom p ps).Pairwise (·.lt ·) := by
  induction ps generalizing p
  case nil => exact List.pairwise_singleton ..
  case cons q rest ih =>
    obtain ⟨hp, hq⟩ := List.pairwise_cons.mp h
    obtain ⟨hpq, hrest⟩ := List.forall_mem_cons.mp hp
    rw [dedupFrom]
    split
    case isTrue => exact ih (List.pairwise_cons.mpr ⟨hrest, hq.of_cons⟩)
    case isFalse hs =>
      have hlt : p.rank < q.rank := lt_of_le_of_ne hpq fun he => hs (Path.same_iff_rank_eq.mpr he)
      refine List.pairwise_cons.mpr ⟨fun r hr => Path.lt_iff_rank_lt.mpr ?_, ih hq⟩
      obtain rfl | hr := List.mem_cons.mp (mem_of_mem_dedupFrom hr)
      · exact hlt
      · exact lt_of_lt_of_le hlt ((List.pairwise_cons.mp hq).1 r hr)

theorem pairwise_lt_dedup {ps : List Path} (h : ps.Pairwise fun p q => p.rank ≤ q.rank) :
    (dedup ps).Pairwise (·.lt ·) := by
  cases ps
  case nil             => exact .nil
  case cons first rest => exact pairwise_lt_dedupFrom h

section

variable {repo : Repository} {index : List IndexEntry}

-- In an index of normal paths, what is staged is the list of all changed entries that are files.
theorem exists_staged (tree : FileTree) (hi : repo.index = some index)
    (hn : ∀ e ∈ index, e.path.asRead.IsNormal) :
    ∃ staged, repo.staged tree = .ok staged ∧ staged.Pairwise (·.lt ·) ∧ ∀ p, p ∈ staged ↔
      ∃ e ∈ index, repo.workingDir.join e.path.asRead = p ∧ repo.isCommitted e = false ∧
        tree.isFile p = true := by
  let changed := ((index.filter (!repo.isCommitted ·)).map (repo.workingDir.join ·.path.asRead)).filter
    tree.isFile
  have hmem (p : Path) : p ∈ changed ↔ ∃ e ∈ index, repo.workingDir.join e.path.asRead = p ∧
      repo.isCommitted e = false ∧ tree.isFile p = true := by
    simp only [changed, List.mem_filter, List.mem_map, Bool.not_eq_true']
    grind
  have hsame : ∀ p ∈ changed.mergeSort Path.le, ∀ q ∈ changed.mergeSort Path.le,
      p.same q = true → p = q := by
    intro p hp q hq hs
    have ⟨e, he, hpe, _⟩ := (hmem p).mp (List.mem_mergeSort.mp hp)
    have ⟨f, hf, hqf, _⟩ := (hmem q).mp (List.mem_mergeSort.mp hq)
    subst hpe hqf
    rw [(hn e he).eq_of_same_join (hn f hf) hs]
  refine ⟨dedup (changed.mergeSort Path.le), by rw [Repository.staged, hi], ?sorted, ?mem⟩
  case sorted => exact pairwise_lt_dedup (Path.pairwise_rank_mergeSort changed)
  case mem => exact fun p => (mem_dedup_iff hsame).trans <| List.mem_mergeSort.trans (hmem p)

theorem isCommitted_iff (hc : repo.lastCommit.Proper) {e : IndexEntry} (hn : e.path.asRead.IsNormal) :
    repo.isCommitted e = true ↔ ∃ names, repo.lastCommit.fileId? names = some e.id ∧
      names.map readName = Path.split e.path.asRead.bytes := by
  rw [isCommitted, beq_iff_eq, committedId?_eq_some_iff hc, hn.components]
  simp only [Path.map_name_injective.eq_iff, eq_comm]

section

variable {names : List FileName} {mode : EntryMode} {id : ObjectId}

theorem split_readPath (hc : repo.lastCommit.Proper)
    (hget : repo.lastCommit.get? names = some (.entry mode id)) :
    Path.split (readPath names).bytes = names.map readName := by
  refine Path.split_joinPieces ?_ (hc.isName_map_readName (by simp [hget]))
  intro hnil
  simp [List.map_eq_nil_iff.mp hnil, lastCommit, CommitNode.get?] at hget

theorem isNormal_readPath (hc : repo.lastCommit.Proper)
    (hget : repo.lastCommit.get? names = some (.entry mode id)) : (readPath names).IsNormal := by
  rw [Path.IsNormal, split_readPath hc hget]
  exact hc.isName_map_readName (by simp [hget])

-- Only regular and executable files are looked up in the last commit.
theorem isCommitted_eq_isFile (hc : repo.lastCommit.Proper)
    (hget : repo.lastCommit.get? names = some (.entry mode id)) {e : IndexEntry}
    (hp : e.path.asRead = readPath names) (hid : e.id = id) : repo.isCommitted e = mode.isFile := by
  rw [Bool.eq_iff_iff, isCommitted_iff hc (hp ▸ isNormal_readPath hc hget), hp, split_readPath hc hget, hid]
  constructor
  · rintro ⟨names', hid', hread⟩
    obtain rfl := hc.eq_of_map_readName_eq (isSome_get?_of_fileId? hid') (by simp [hget]) hread
    have ⟨mode', hget', hf⟩ := CommitNode.fileId?_eq_some_iff.mp hid'
    obtain ⟨rfl, _⟩ := CommitNode.entry.inj (Option.some.inj (hget.symm.trans hget'))
    exact hf
  · intro hf
    exact ⟨names, CommitNode.fileId?_eq_some_iff.mpr ⟨mode, hget, hf⟩, rfl⟩

-- A path whose entries in the index are as in the last commit is taken to be staged exactly if it is recorded
-- as a link or submodule and leads to a file.
theorem mem_staged_of_unchanged (tree : FileTree) (hi : repo.index = some index)
    (hn : ∀ e ∈ index, e.path.asRead.IsNormal) (hc : repo.lastCommit.Proper)
    (hget : repo.lastCommit.get? names = some (.entry mode id))
    (hu : ∀ e ∈ index, e.path.asRead = readPath names → e.mode = mode ∧ e.id = id) :
    ∃ staged, repo.staged tree = .ok staged ∧
      (repo.workingDir.join (readPath names) ∈ staged ↔ (∃ e ∈ index, e.path.asRead = readPath names) ∧
        (mode = .link ∨ mode = .submodule) ∧
        tree.isFile (repo.workingDir.join (readPath names)) = true) := by
  have ⟨staged, hs, _, hmem⟩ := exists_staged tree hi hn
  refine ⟨staged, hs, (hmem _).trans ?_⟩
  rw [← EntryMode.isFile_eq_false_iff]
  constructor
  · rintro ⟨e, he, hjoin, hnot, hfile⟩
    have hsame := Path.same_iff.mpr (congrArg Path.components hjoin)
    have hp := (hn e he).eq_of_same_join (isNormal_readPath hc hget) hsame
    exact ⟨⟨e, he, hp⟩, isCommitted_eq_isFile hc hget hp (hu e he hp).2 ▸ hnot, hfile⟩
  · rintro ⟨⟨e, he, hp⟩, hlink, hfile⟩
    exact ⟨e, he, by rw [hp], (isCommitted_eq_isFile hc hget hp (hu e he hp).2).trans hlink, hfile⟩

end

end

-- A link to a file, which is in the index as it is in the last commit.
def linkEntry : IndexEntry := ⟨⟨[0x62]⟩, .link, .blob [0x61]⟩

def linkRepository : Repository where
  home := []
  head := some [([0x62], .entry .link (.blob [0x61]))]
  index := some [linkEntry]

def linkTree : FileTree where
  top := .dir [([0x61], .file []), ([0x62], .link ⟨[0x61]⟩)]

theorem mem_staged_linkRepository : ∃ staged, linkRepository.staged linkTree = .ok staged ∧
    linkRepository.workingDir.join ⟨[0x62]⟩ ∈ staged := by
  have hread : readName [0x62] = [0x62] := by decide +kernel
  have hpath : linkEntry.path.asRead = ⟨[0x62]⟩ := by decide +kernel
  have hnormal : ∀ e ∈ [linkEntry], e.path.asRead.IsNormal := by
    rw [List.forall_mem_singleton, hpath]
    exact List.forall_mem_singleton.mpr (by decide)
  have hproper : linkRepository.lastCommit.Proper := by
    refine .ofTree (by simp [linkRepository]) ?_
    simpa [linkRepository, hread] using ⟨by decide, .ofEntry ..⟩
  have ⟨staged, hs, hmem⟩ := @mem_staged_of_unchanged linkRepository [linkEntry] [[0x62]] .link
    (.blob [0x61]) linkTree rfl hnormal hproper rfl (by simp [linkEntry])
  have hjoin : readPath [[0x62]] = ⟨[0x62]⟩ := by simp [readPath, hread, Path.joinPieces]
  rw [hjoin] at hmem
  exact ⟨staged, hs, hmem.mpr ⟨⟨linkEntry, by simp, hpath⟩, .inl rfl, by rfl⟩⟩

theorem staged_linkRepository : linkRepository.staged linkTree = .ok [⟨[0x2f, 0x62]⟩] := by
  have hchanged : (([linkEntry].filter (!linkRepository.isCommitted ·)).map
      (linkRepository.workingDir.join ·.path.asRead)).filter linkTree.isFile = [⟨[0x2f, 0x62]⟩] := by
    decide +kernel
  simp [Repository.staged, show linkRepository.index = some [linkEntry] from rfl, hchanged, dedup, dedupFrom]

theorem staged_unchanged_link : ∃ (repo : Repository) (tree : FileTree) (e : IndexEntry),
    repo.index = some [e] ∧
      repo.lastCommit.get? (Path.split e.path.bytes) = some (.entry e.mode e.id) ∧
      repo.staged tree = .ok [repo.workingDir.join e.path] :=
  ⟨linkRepository, linkTree, linkEntry, rfl, rfl, by rw [staged_linkRepository]; decide +kernel⟩

-- The paths of the index and of the last commit are normal, and they are texts.
structure Plain (repo : Repository) (index : List IndexEntry) : Prop where
  normal      : ∀ e ∈ index, e.path.IsNormal
  text        : ∀ e ∈ index, Utf8.IsText e.path.bytes
  commit      : repo.lastCommit.Proper
  commit_text : ∀ a, (repo.lastCommit.get? a).isSome → ∀ n ∈ a, Utf8.IsText n

namespace Plain

variable {repo : Repository} {index : List IndexEntry} {e : IndexEntry}

theorem asRead_path (h : repo.Plain index) (he : e ∈ index) : e.path.asRead = e.path :=
  Path.asRead_of_isText (h.text e he)

theorem asRead_normal (h : repo.Plain index) (he : e ∈ index) : e.path.asRead.IsNormal :=
  (h.asRead_path he).symm ▸ h.normal e he

theorem isCommitted_iff (h : repo.Plain index) (he : e ∈ index) :
    repo.isCommitted e = true ↔
      repo.lastCommit.fileId? (Path.split e.path.bytes) = some e.id := by
  have hread {names : List FileName} (hid : repo.lastCommit.fileId? names = some e.id) :
      names.map readName = names := by
    have hs := isSome_get?_of_fileId? hid
    exact (List.map_congr_left fun n hn => readName_of_isText (h.commit_text names hs n hn)).trans
      (List.map_id names)
  rw [Repository.isCommitted_iff h.commit (h.asRead_normal he), h.asRead_path he]
  constructor
  · rintro ⟨names, hid, hs⟩
    rwa [← hs, hread hid]
  · intro hid
    exact ⟨_, hid, hread hid⟩

end Plain

end Repository

namespace FileTree

-- A directory by its own address, with no links below it.
structure IsPlainDir (tree : FileTree) (root : Path) (a : Address) : Prop where
  address   : tree.address root = .ok a
  canonical : tree.canonical root = .ok root
  dir       : tree.isDir root = true
  no_links  : ∀ below target, tree.top.get? (a ++ below) ≠ some (.link target)

namespace IsPlainDir

variable {tree : FileTree} {root : Path} {a : Address}

theorem exists_entries (h : tree.IsPlainDir root a) :
    ∃ entries, tree.top.get? a = some (.dir entries) := by
  have ⟨entries, hnode⟩ := isDir_iff.mp h.dir
  have ⟨b, hb, hget⟩ := node_eq_ok_iff.mp hnode
  obtain rfl := Except.ok.inj (h.address.symm.trans hb)
  exact ⟨entries, hget⟩

theorem isName (h : tree.IsPlainDir root a) (wf : tree.WellFormed) : ∀ n ∈ a, Path.IsName n := by
  have ⟨entries, hd⟩ := h.exists_entries
  exact wf.proper.names a (by simp [hd])

-- The files below the directory are those that stand below its address and have paths that are not too long.
theorem isFile_iff (h : tree.IsPlainDir root a) (wf : tree.WellFormed) {names : List FileName}
    (hn : ∀ n ∈ a ++ names, Path.IsName n) (hne : names ≠ []) :
    tree.isFile (Path.ofNames (a ++ names)) = true ↔
      (∃ content, tree.top.get? (a ++ names) = some (.file content)) ∧
        (Path.ofNames (a ++ names)).bytes.length ≤ maxPath := by
  have ⟨entries, hd⟩ := h.exists_entries
  rw [isFile_ofNames_iff (by simp [hne]) hn (Node.linkFree_append hd h.no_links names)]
  exact and_congr_right fun ⟨content, hget⟩ => wf.fits_iff (Option.isSome_of_eq_some hget)

end IsPlainDir

end FileTree

namespace Selection

variable {selection : Selection} {tree : FileTree} {repo? : Option Repository} {repo : Repository}
variable {root : Path} {index : List IndexEntry} {inner : Address}

theorem pairwise_walk (hp : tree.top.Proper) (root : Path) :
    (selection.walk tree root).Pairwise (·.lt ·) :=
  (FileTree.lists_files hp root).sorted.filter _

theorem stagedFiles_eq {staged : List Path} (hr : Repository.discover tree repo? root = .ok repo)
    (hs : repo.staged tree = .ok staged) :
    selection.stagedFiles tree repo? root =
      let files := staged.filter fun p => root.isAbove p && selection.accepts (Path.label root p)
      if files = [] then .error .nothingStaged else .ok files := by
  simp [stagedFiles, hr, hs, Except.mapError, bind, Except.bind]

end Selection

end CrossRef
