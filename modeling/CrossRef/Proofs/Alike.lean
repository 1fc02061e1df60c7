import CrossRef.Proofs.Audit
import CrossRef.Proofs.Staged
import CrossRef.Validation

namespace CrossRef

open Text

theorem toOption_eq_some_iff {ε α : Type} {result : Except ε α} {x : α} :
    result.toOption = some x ↔ result = .ok x := by
  cases result <;> simp [Except.toOption]

-- A report depends on the tree through the texts of the files only.
theorem audit_congr (checker : Checker) (allow : Allowlist) {tree tree' : FileTree} (root : Path)
    {files : List Path} (h : ∀ p ∈ files, (readSource tree' p).toOption = (readSource tree p).toOption) :
    audit checker allow tree' root files = audit checker allow tree root files := by
  have hread : readable tree' root files = readable tree root files :=
    List.filterMap_congr fun p hp => by rw [h p hp]
  simp only [audit, hread]

namespace Repository

-- The repository is in a directory, and the paths in its index have no detours.
structure Settled (repo : Repository) (tree : FileTree) : Prop where
  home  : tree.top.see? repo.home = some .dir
  index : ∀ index, repo.index = some index → ∀ e ∈ index, e.path.asRead.IsNormal

theorem eq_some_of_discover {tree : FileTree} {repo? : Option Repository} {repo : Repository} {p : Path}
    (h : discover tree repo? p = .ok repo) : repo? = some repo := by
  unfold discover at h
  split at h
  · simp at h
  · split_ifs at h
    exact congrArg some (Except.ok.inj h)

-- A path in the index that is below a directory is one of names from there.
theorem Settled.exists_names {repo : Repository} {tree : FileTree} (hs : repo.Settled tree)
    (hp : tree.top.Proper) {index : List IndexEntry} (hi : repo.index = some index) {e : IndexEntry}
    (he : e ∈ index) {a : Address} (ha : ∀ n ∈ a, Path.IsName n)
    (h : (Path.ofNames a).isAbove (repo.workingDir.join e.path.asRead) = true) :
    ∃ names, (∀ n ∈ names, Path.IsName n) ∧
      repo.workingDir.join e.path.asRead = (Path.ofNames a).descend names := by
  have hnormal := hs.index index hi e he
  have hhome : ∀ n ∈ repo.home, Path.IsName n :=
    hp.names repo.home (by rw [← Node.isSome_see?, hs.home]; rfl)
  rw [workingDir, hnormal.join_ofNames hhome] at h ⊢
  have hall : ∀ n ∈ repo.home ++ Path.split e.path.asRead.bytes, Path.IsName n :=
    List.forall_mem_append.mpr ⟨hhome, hnormal⟩
  obtain ⟨names, hnames⟩ := (Path.isAbove_ofNames_iff ha hall).mp h
  rw [← hnames] at hall ⊢
  have hrest : ∀ n ∈ names, Path.IsName n := fun n hn => hall n (List.mem_append_right a hn)
  exact ⟨names, hrest, (Path.descend_ofNames ha hrest).symm⟩

end Repository

namespace Selection

variable {selection : Selection} {tree : FileTree} {repo? : Option Repository} {a : Address}

theorem stagedFiles_of_not_found {root : Path} {fault : RepositoryFault}
    (hd : Repository.discover tree repo? root = .error fault) :
    selection.stagedFiles tree repo? root = .error (.repository fault) := by
  simp [stagedFiles, hd, Except.mapError, bind, Except.bind]

theorem stagedFiles_of_no_index {root : Path} {repo : Repository}
    (hd : Repository.discover tree repo? root = .ok repo) (hi : repo.index = none) :
    selection.stagedFiles tree repo? root = .error (.repository .noIndex) := by
  simp [stagedFiles, hd, Repository.staged, hi, Except.mapError, bind, Except.bind]

-- All files that are read are below the root.
theorem exists_names_of_mem_files (hp : tree.top.Proper) (hr : ∀ repo ∈ repo?, repo.Settled tree)
    (ha : ∀ n ∈ a, Path.IsName n) {staged : Bool} {files : List Path}
    (hf : selection.files tree repo? (Path.ofNames a) staged = .ok files) :
    ∀ p ∈ files, ∃ names, (∀ n ∈ names, Path.IsName n) ∧ p = (Path.ofNames a).descend names := by
  intro p hm
  cases staged
  case false =>
    obtain rfl := Except.ok.inj hf
    exact (FileTree.lists_files hp _).below p (List.mem_of_mem_filter hm)
  case true =>
    change selection.stagedFiles tree repo? (Path.ofNames a) = .ok files at hf
    cases hd : Repository.discover tree repo? (Path.ofNames a)
    case error fault => simp [stagedFiles_of_not_found hd] at hf
    case ok repo =>
      have hs := hr repo (Repository.eq_some_of_discover hd)
      cases hi : repo.index
      case none => simp [stagedFiles_of_no_index hd hi] at hf
      case some index =>
        have ⟨staged, hstaged, _, hmem⟩ := Repository.exists_staged tree hi (hs.index index hi)
        rw [stagedFiles_eq hd hstaged] at hf
        dsimp only at hf
        split_ifs at hf
        obtain rfl := Except.ok.inj hf
        have ⟨hm, hin⟩ := List.mem_filter.mp hm
        obtain ⟨e, he, rfl, _⟩ := (hmem p).mp hm
        exact hs.exists_names hp hi he ha (Bool.and_eq_true_iff.mp hin).1

end Selection

namespace FileTree.AlikeBut

variable {P : Address → Prop} {tree tree' : FileTree} (h : AlikeBut P tree tree')
variable {repo? : Option Repository} (hr : ∀ repo ∈ repo?, repo.Settled tree)

include h

theorem toOption_readSource {p : Path} (hp : ∀ a, tree.place? p = some a → ¬P a) :
    (readSource tree' p).toOption = (readSource tree p).toOption := by
  ext text
  rw [toOption_eq_some_iff, toOption_eq_some_iff, readSource_eq_ok_iff, readSource_eq_ok_iff,
    h.read_eq_ok_iff hp]

include hr

-- The directory of the repository is there in both trees, so it is found from the same places.
theorem discover_eq (p : Path) : Repository.discover tree' repo? p = Repository.discover tree repo? p := by
  cases repo?
  case none => rfl
  case some repo =>
    have hhome := (hr repo rfl).home
    have hnormal : Repository.normalized tree' p = Repository.normalized tree p := by
      rw [Repository.normalized, Repository.normalized, h.workingDir]
    have haddress (q : Path) : ((tree'.address q).toOption == some repo.home) =
        ((tree.address q).toOption == some repo.home) := by
      rw [Bool.eq_iff_iff, beq_iff_eq, beq_iff_eq, toOption_eq_some_iff, toOption_eq_some_iff,
        address_eq_ok_iff_place?, address_eq_ok_iff_place?, h.place?_eq, hhome, h.sights.dir_iff.mpr hhome]
    have hfound : repo.isFoundFrom tree' p = repo.isFoundFrom tree p := by
      simp only [Repository.isFoundFrom, hnormal, h.isDir_eq, haddress]
    simp only [Repository.discover, hfound]

-- What is staged elsewhere may differ, but not what is staged below the root.
theorem stagedFiles_eq (hp : tree.top.Proper) {a : Address} (ha : ∀ n ∈ a, Path.IsName n)
    (hout : tree.OutOfReach P (Path.ofNames a)) (selection : Selection) :
    selection.stagedFiles tree' repo? (Path.ofNames a) = selection.stagedFiles tree repo? (Path.ofNames a) := by
  have hdiscover := h.discover_eq hr (Path.ofNames a)
  cases hd : Repository.discover tree repo? (Path.ofNames a)
  case error fault =>
    rw [Selection.stagedFiles_of_not_found hd, Selection.stagedFiles_of_not_found (hdiscover.trans hd)]
  case ok repo =>
    have hs := hr repo (Repository.eq_some_of_discover hd)
    cases hi : repo.index
    case none =>
      rw [Selection.stagedFiles_of_no_index hd hi, Selection.stagedFiles_of_no_index (hdiscover.trans hd) hi]
    case some index =>
      have ⟨files, hfiles, hsorted, hmem⟩ := Repository.exists_staged tree hi (hs.index index hi)
      have ⟨files', hfiles', hsorted', hmem'⟩ := Repository.exists_staged tree' hi (hs.index index hi)
      rw [Selection.stagedFiles_eq hd hfiles, Selection.stagedFiles_eq (hdiscover.trans hd) hfiles']
      suffices hsame : files'.filter (fun p => (Path.ofNames a).isAbove p &&
            selection.accepts (Path.label (Path.ofNames a) p)) =
          files.filter (fun p => (Path.ofNames a).isAbove p &&
            selection.accepts (Path.label (Path.ofNames a) p)) by rw [hsame]
      refine Path.eq_of_pairwise_lt (hsorted'.filter _) (hsorted.filter _) fun p => ?_
      rw [List.mem_filter, List.mem_filter]
      refine and_congr_left fun hin => ?_
      rw [hmem, hmem']
      refine exists_congr fun e => and_congr_right fun he => and_congr_right fun hjoin => ?_
      have habove := (Bool.and_eq_true_iff.mp hin).1
      obtain ⟨names, hn, hpath⟩ := hs.exists_names hp hi he ha (hjoin ▸ habove)
      rw [h.isFile_eq fun b hb => (hout names hn b (hpath ▸ hjoin ▸ hb)).1]

-- A checker sees nothing of a change that is out of the reach of the root.
theorem validate_eq (hp : tree.top.Proper) (hp' : tree'.top.Proper) {a : Address}
    (ha : ∀ n ∈ a, Path.IsName n) (hout : tree.OutOfReach P (Path.ofNames a)) (checker : Checker)
    (config : Config) (staged : Bool) :
    validate checker config tree' repo? (Path.ofNames a) staged =
      validate checker config tree repo? (Path.ofNames a) staged := by
  have hfiles (selection : Selection) : selection.files tree' repo? (Path.ofNames a) staged =
      selection.files tree repo? (Path.ofNames a) staged := by
    cases staged
    case true  => exact h.stagedFiles_eq hr hp ha hout selection
    case false => simp [Selection.files, Selection.walk, h.files_eq hp hp' hout]
  unfold validate
  cases config.selection checker.extensions
  case error => rfl
  case ok selection =>
    cases hf : selection.files tree repo? (Path.ofNames a) staged
    case error => simp [Except.mapError, bind, Except.bind, hfiles, hf]
    case ok files =>
      have hread : ∀ p ∈ files, (readSource tree' p).toOption = (readSource tree p).toOption := by
        intro p hm
        obtain ⟨names, hn, rfl⟩ := Selection.exists_names_of_mem_files hp hr ha hf p hm
        exact h.toOption_readSource fun b hb => (hout names hn b hb).1
      simp [Except.mapError, bind, Except.bind, hfiles, hf, audit_congr checker config.allowlist _ hread]

end FileTree.AlikeBut

end CrossRef
