import CrossRef.Proofs.Reach
import CrossRef.Proofs.Selection

namespace CrossRef

namespace Node

mutual

-- A tree with the entries of each directory in another order. The order of a directory may depend on its
-- address.
def relist (order : Address → List (FileName × Node) → List (FileName × Node)) (here : Address) : Node → Node
  | file content => file content
  | link target  => link target
  | dir entries  => dir (order here (relistIn order here entries))

def relistIn (order : Address → List (FileName × Node) → List (FileName × Node)) (here : Address) :
    List (FileName × Node) → List (FileName × Node)
  | []                => []
  | (n, node) :: rest => (n, node.relist order (here ++ [n])) :: relistIn order here rest

end

section Relist

variable {order : Address → List (FileName × Node) → List (FileName × Node)}
variable (ho : ∀ a entries, (order a entries).Perm entries)

theorem relistIn_eq_map (here : Address) (entries : List (FileName × Node)) :
    relistIn order here entries = entries.map fun e => (e.1, e.2.relist order (here ++ [e.1])) := by
  induction entries
  case nil            => rfl
  case cons e rest ih => rw [relistIn, ih, List.map_cons]

include ho

theorem perm_names_relist (here : Address) (entries : List (FileName × Node)) :
    ((order here (relistIn order here entries)).map (·.1)).Perm (entries.map (·.1)) := by
  have hnames : (relistIn order here entries).map (·.1) = entries.map (·.1) := by
    simp [relistIn_eq_map, Function.comp_def]
  exact hnames ▸ (ho here _).map _

theorem find?_relist {entries : List (FileName × Node)} (hp : (dir entries).Proper) (here : Address)
    (n : FileName) :
    find? n (order here (relistIn order here entries)) =
      (find? n entries).map (·.relist order (here ++ [n])) := by
  have hnodup := (perm_names_relist ho here entries).nodup_iff.mpr hp.nodup_entries
  ext child
  rw [find?_eq_some_iff hnodup, (ho here _).mem_iff, relistIn_eq_map, List.mem_map, Option.map_eq_some_iff]
  simp only [find?_eq_some_iff hp.nodup_entries, Prod.mk.injEq, Prod.exists]
  constructor
  · rintro ⟨m, old, hm, rfl, rfl⟩
    exact ⟨old, hm, rfl⟩
  · rintro ⟨old, hm, rfl⟩
    exact ⟨n, old, hm, rfl, rfl⟩

theorem get?_relist {node : Node} (hp : node.Proper) (here a : Address) :
    (node.relist order here).get? a = (node.get? a).map (·.relist order (here ++ a)) := by
  induction a generalizing node here
  case nil => simp [get?]
  case cons n rest ih =>
    cases node
    case file content => rfl
    case link target  => rfl
    case dir entries =>
      rw [relist, get?_dir_cons, get?_dir_cons, find?_relist ho hp]
      cases hf : find? n entries
      case none => rfl
      case some child =>
        have hchild := hp.entry (mem_of_find?_eq_some hf)
        simpa using ih hchild (here ++ [n])

theorem see?_relist {node : Node} (hp : node.Proper) (here a : Address) :
    (node.relist order here).see? a = node.see? a := by
  have hsight (node : Node) (b : Address) : (node.relist order b).sight = node.sight := by cases node <;> rfl
  simp [see?, get?_relist ho hp, Function.comp_def, hsight]

theorem Proper.relist {node : Node} (hp : node.Proper) (here : Address) : (node.relist order here).Proper where
  names a ha := hp.names a (by simpa [get?_relist ho hp] using ha)
  nodup a entries ha := by
    rw [get?_relist ho hp, Option.map_eq_some_iff] at ha
    have ⟨old, hget, hold⟩ := ha
    cases old
    case dir inner =>
      obtain rfl := Node.dir.inj hold
      exact (perm_names_relist ho _ inner).nodup_iff.mpr (hp.nodup a inner hget)
    all_goals simp [Node.relist] at hold

end Relist

end Node

namespace FileTree

-- The file tree on a system that lists the entries of directories in another order.
def relist (tree : FileTree) (order : Address → List (FileName × Node) → List (FileName × Node)) : FileTree :=
  { tree with top := tree.top.relist order [] }

theorem files_relist {tree : FileTree} (hp : tree.top.Proper)
    {order : Address → List (FileName × Node) → List (FileName × Node)}
    (ho : ∀ a entries, (order a entries).Perm entries) (enter : FileName → Bool) (root : Path) :
    (tree.relist order).files enter root = tree.files enter root := by
  have halike : AlikeBut (fun _ => False) tree (tree.relist order) := {
    workingDir := rfl
    locked := rfl
    sights := fun a => .inl (Node.see?_relist ho hp [] a) }
  exact halike.files_eq hp (hp.relist ho []) (by simp [OutOfReach])

end FileTree

namespace Selection

variable {selection : Selection} {tree : FileTree} {root p : Path}

-- No file that is accepted is lost with a directory that is left out.
theorem mem_files_enters_iff (hp : tree.top.Proper) (hb : ∀ dir ∈ selection.ignoredDirs, '\\' ∉ dir.toList)
    (ha : selection.accepts (Path.label root p) = true) :
    p ∈ tree.files selection.enters root ↔ p ∈ tree.files (fun _ => true) root := by
  rw [FileTree.mem_files_iff_finds hp, FileTree.mem_files_iff_finds hp]
  refine exists_congr fun a => and_congr_right fun _ => or_congr_right <| and_congr_right fun _ => ?_
  refine exists_congr fun names => and_congr_right fun hl => and_congr_left ?_
  rintro rfl
  exact iff_of_true (enters_of_accepts hb hl.ne_nil (hl.isName hp) ha) fun _ _ => rfl

-- A walk leaves out directories only to save work: it gives the files that are accepted of all that can be
-- reached, in order and each of them once. How the system lists directories does not matter.
theorem walk_eq_filter_files (selection : Selection) {tree : FileTree} (hp : tree.top.Proper)
    (hb : ∀ dir ∈ selection.ignoredDirs, '\\' ∉ dir.toList) (root : Path) :
    selection.walk tree root =
      (tree.files (fun _ => true) root).filter (fun p => selection.accepts (Path.label root p)) ∧
    (selection.walk tree root).Pairwise (·.lt ·) ∧
    (∀ a, tree.address root = .ok a → tree.top.see? a = some .dir →
      ∀ p, p ∈ selection.walk tree root ↔ selection.accepts (Path.label root p) = true ∧
        ∃ names, tree.Leads ⟨root, a, [a]⟩ names ∧ p = root.descend names) ∧
    ∀ order : Address → List (FileName × Node) → List (FileName × Node),
      (∀ a entries, (order a entries).Perm entries) →
      selection.walk (tree.relist order) root = selection.walk tree root := by
  have hsorted {enter : FileName → Bool} := (@FileTree.lists_files tree enter hp root).sorted
  have hmem (p : Path) : p ∈ selection.walk tree root ↔
      p ∈ tree.files (fun _ => true) root ∧ selection.accepts (Path.label root p) = true := by
    rw [walk, List.mem_filter]
    exact and_congr_left fun ha => mem_files_enters_iff hp hb ha
  refine ⟨?all, hsorted.filter _, ?reached, ?order⟩
  case all =>
    refine Path.eq_of_pairwise_lt (hsorted.filter _) (hsorted.filter _) fun p => ?_
    rw [hmem, List.mem_filter]
  case reached =>
    intro a ha hd p
    rw [hmem, and_comm, FileTree.mem_files_iff_finds hp]
    simp [ha, hd, FileTree.Finds]
  case order =>
    intro order ho
    rw [walk, walk, FileTree.files_relist hp ho]

-- A directory `d` with a file, a link `l` to it, and a directory `g` that is left out.
def linkedTree : FileTree where
  top := .dir [([0x6c], .link ⟨[0x64]⟩), ([0x67], .dir [([0x62, 0x2e, 0x74], .file [])]),
    ([0x64], .dir [([0x61, 0x2e, 0x74], .file [])])]

def linkedSelection : Selection where
  extensions := ["t"]
  ignoredDirs := ["g"]
  excluded := []

theorem linkedTree_proper : linkedTree.top.Proper := (FileTree.WellFormed.of_addresses (by decide +kernel)).proper

theorem walk_eq_filter_files_linkedTree :
    ⟨[0x2f, 0x6c, 0x2f, 0x61, 0x2e, 0x74]⟩ ∈ linkedSelection.walk linkedTree ⟨[0x2f]⟩ ∧
    ⟨[0x2f, 0x67, 0x2f, 0x62, 0x2e, 0x74]⟩ ∉ linkedSelection.walk linkedTree ⟨[0x2f]⟩ ∧
    linkedSelection.walk (linkedTree.relist fun _ => List.reverse) ⟨[0x2f]⟩ =
      linkedSelection.walk linkedTree ⟨[0x2f]⟩ := by
  have ⟨_, _, hreached, horder⟩ := walk_eq_filter_files linkedSelection linkedTree_proper
    (by decide +kernel) ⟨[0x2f]⟩
  refine ⟨(hreached [] rfl rfl _).mpr ⟨by decide +kernel, [[0x6c], [0x61, 0x2e, 0x74]], ?_, rfl⟩, ?_, ?_⟩
  · exact .linkToDir rfl rfl rfl (by simp) (.file rfl)
  · exact fun hm => absurd ((hreached [] rfl rfl _).mp hm).1 (by decide +kernel)
  · exact horder _ fun _ entries => List.reverse_perm entries

end Selection

end CrossRef
