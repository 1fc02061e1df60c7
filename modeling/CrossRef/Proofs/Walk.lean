import CrossRef.FileTree.Walk
import CrossRef.Proofs.FileTree

namespace CrossRef

namespace Path

-- A listing of paths below `p`, each of them once and in order.
structure Lists (p : Path) (ps : List Path) : Prop where
  below  : ∀ q ∈ ps, ∃ names, (∀ n ∈ names, IsName n) ∧ q = p.descend names
  sorted : ps.Pairwise (·.lt ·)

theorem isAbove_descend (p : Path) {names : List FileName} (h : ∀ n ∈ names, IsName n) :
    p.isAbove (p.descend names) = true :=
  isAbove_iff.mpr ⟨names.map .name, p.components_descend h⟩

theorem Lists.isAbove {p q : Path} {ps : List Path} (h : p.Lists ps) (hq : q ∈ ps) :
    p.isAbove q = true := by
  obtain ⟨names, hn, rfl⟩ := h.below q hq
  exact p.isAbove_descend hn

theorem componentsLt_append (front as bs : List Component) :
    componentsLt (front ++ as) (front ++ bs) = componentsLt as bs := by
  induction front
  case nil => rfl
  case cons c rest ih =>
    have hc : c.lt c = false := by cases c <;> simp [Component.lt]
    simp [componentsLt, hc, ih]

-- All that is below one entry of a directory stands before all that is below a later entry.
theorem lt_of_isAbove_child {p q r : Path} {m n : FileName} (hm : IsName m) (hn : IsName n) (h : m < n)
    (hq : (p.child m).isAbove q = true) (hr : (p.child n).isAbove r = true) : q.lt r = true := by
  have ⟨s, hq⟩ := isAbove_iff.mp hq
  have ⟨t, hr⟩ := isAbove_iff.mp hr
  rw [lt, hq, hr, p.components_child hm, p.components_child hn, List.append_assoc, List.append_assoc,
    componentsLt_append]
  simp [componentsLt, Component.lt, h]

theorem Lists.nil (p : Path) : p.Lists [] where
  below := by simp
  sorted := .nil

theorem Lists.self (p : Path) : p.Lists [p] where
  below := by simpa using ⟨[], by simp, rfl⟩
  sorted := List.pairwise_singleton ..

end Path

namespace FileTree

theorem pairwise_names_mergeSort {α : Type} {found : List (FileName × α)} (h : (found.map (·.1)).Nodup) :
    (found.mergeSort fun a b => !decide (b.1 < a.1)).Pairwise (·.1 < ·.1) := by
  let rank (e : FileName × α) : List Nat := e.1.map UInt8.toNat
  have hle (a b : FileName × α) : (!decide (b.1 < a.1)) = true ↔ rank a ≤ rank b := by
    simp [rank, Path.lt_iff_map_toNat_lt]
  have hs := @List.pairwise_mergeSort _ (fun a b : FileName × α => !decide (b.1 < a.1))
    (fun a b c hab hbc => (hle a c).mpr <| ((hle a b).mp hab).trans ((hle b c).mp hbc))
    (fun a b => by rw [Bool.or_eq_true, hle, hle]; exact le_total ..) found
  have hnd : ((found.mergeSort fun a b => !decide (b.1 < a.1)).map (·.1)).Nodup :=
    ((List.mergeSort_perm ..).map _).nodup_iff.mpr h
  refine (hs.and (List.pairwise_map.mp hnd)).imp fun {a b} ⟨hab, hne⟩ => ?_
  rw [Path.lt_iff_map_toNat_lt]
  refine lt_of_le_of_ne ((hle a b).mp hab) fun he => hne ?_
  exact List.map_injective_iff.mpr (fun x y => UInt8.toNat_inj.mp) he

theorem mem_inNameOrder {found : List (FileName × List Path)} {p : Path} :
    p ∈ inNameOrder found ↔ ∃ n ps, (n, ps) ∈ found ∧ p ∈ ps := by
  simp [inNameOrder, List.mem_mergeSort]

-- What is listed of the entries of a directory is below it, and is not the directory itself.
theorem exists_names_of_mem_inNameOrder {p q : Path} {found : List (FileName × List Path)}
    (hn : ∀ e ∈ found, Path.IsName e.1) (h : ∀ e ∈ found, (p.child e.1).Lists e.2)
    (hq : q ∈ inNameOrder found) :
    ∃ names, names ≠ [] ∧ (∀ n ∈ names, Path.IsName n) ∧ q = p.descend names := by
  have ⟨n, ps, he, hq⟩ := mem_inNameOrder.mp hq
  have ⟨names, hnames, hd⟩ := (h _ he).below q hq
  exact ⟨n :: names, by simp, List.forall_mem_cons.mpr ⟨hn _ he, hnames⟩, hd⟩

theorem lists_inNameOrder {p : Path} {found : List (FileName × List Path)}
    (hnd : (found.map (·.1)).Nodup) (hn : ∀ e ∈ found, Path.IsName e.1)
    (h : ∀ e ∈ found, (p.child e.1).Lists e.2) : p.Lists (inNameOrder found) where
  below q hq := by
    have ⟨names, _, hnames, he⟩ := exists_names_of_mem_inNameOrder hn h hq
    exact ⟨names, hnames, he⟩
  sorted := by
    refine List.pairwise_flatMap.mpr ⟨fun e he => (h e (List.mem_mergeSort.mp he)).sorted, ?_⟩
    refine (pairwise_names_mergeSort hnd).imp_of_mem fun {a b} ha hb hlt q hq r hr => ?_
    rw [List.mem_mergeSort] at ha hb
    exact Path.lt_of_isAbove_child (hn a ha) (hn b hb) hlt ((h a ha).isAbove hq) ((h b hb).isAbove hr)

variable {tree : FileTree} {enter : FileName → Bool} {follow : Stop → FileName → List Path} {stop : Stop}

theorem filesIn_eq_map (entries : List (FileName × Node)) :
    tree.filesIn enter follow stop entries =
      entries.map fun e => (e.1, tree.filesAt enter follow stop e.1 e.2) := by
  induction entries
  case nil => simp [filesIn]
  case cons e rest ih => simp [filesIn, ih]

theorem isName_of_mem_filesIn {entries : List (FileName × Node)} (hp : (Node.dir entries).Proper) :
    ∀ e ∈ tree.filesIn enter follow stop entries, Path.IsName e.1 := by
  simp only [filesIn_eq_map, List.forall_mem_map]
  exact fun e he => hp.isName_entry he

theorem lists_of_mem_filesIn {entries : List (FileName × Node)}
    (h : ∀ n child, (n, child) ∈ entries →
      (stop.path.child n).Lists (tree.filesAt enter follow stop n child)) :
    ∀ e ∈ tree.filesIn enter follow stop entries, (stop.path.child e.1).Lists e.2 := by
  simp only [filesIn_eq_map, List.forall_mem_map]
  exact fun e he => h e.1 e.2 he

theorem lists_filesIn {entries : List (FileName × Node)} (hp : (Node.dir entries).Proper)
    (h : ∀ n child, (n, child) ∈ entries →
      (stop.path.child n).Lists (tree.filesAt enter follow stop n child)) :
    stop.path.Lists (inNameOrder (tree.filesIn enter follow stop entries)) := by
  have hnd : ((tree.filesIn enter follow stop entries).map (·.1)).Nodup := by
    simpa [filesIn_eq_map, Function.comp_def] using hp.nodup_entries
  exact lists_inNameOrder hnd (isName_of_mem_filesIn hp) (lists_of_mem_filesIn h)

theorem lists_filesAt (hf : ∀ (stop : Stop) n, (stop.path.child n).Lists (follow stop n)) {node : Node}
    (hp : node.Proper) (n : FileName) :
    (stop.path.child n).Lists (tree.filesAt enter follow stop n node) := by
  induction node using Node.induct generalizing stop n
  case file content => simpa [filesAt] using Path.Lists.self _
  case link target  => simpa [filesAt] using hf stop n
  case dir entries ih =>
    rw [filesAt]
    split
    · exact @lists_filesIn _ _ _ (stop.below n) _ hp fun m child hm => ih m child hm (hp.entry hm) m
    · exact .nil _

theorem lists_throughLink (hp : tree.top.Proper) {walk : Stop → List (FileName × Node) → List Path}
    (hw : ∀ (stop : Stop) entries, (Node.dir entries).Proper → stop.path.Lists (walk stop entries))
    (stop : Stop) (n : FileName) : (stop.path.child n).Lists (tree.throughLink enter walk stop n) := by
  unfold throughLink
  split
  · split
    · exact .self _
    · rename_i entries hd
      split
      · exact .nil _
      · split
        · exact hw ⟨stop.path.child n, _, _⟩ entries (hp.of_get? hd)
        · exact .nil _
    · exact .nil _
  · exact .nil _

theorem lists_filesBelow (hp : tree.top.Proper) (links : Nat) (stop : Stop)
    (entries : List (FileName × Node)) (hd : (Node.dir entries).Proper) :
    stop.path.Lists (tree.filesBelow enter links stop entries) := by
  induction links generalizing stop entries
  case zero =>
    exact lists_filesIn hd fun n child hm =>
      lists_filesAt (lists_throughLink hp fun _ _ _ => .nil _) (hd.entry hm) n
  case succ links ih =>
    exact lists_filesIn hd fun n child hm =>
      lists_filesAt (lists_throughLink hp ih) (hd.entry hm) n

-- A walk lists files at or below its root, each once and in the order of paths.
theorem lists_files (hp : tree.top.Proper) (root : Path) : root.Lists (tree.files enter root) := by
  unfold files
  split
  · split
    · exact .self root
    · rename_i hd
      exact lists_filesBelow hp _ ⟨root, _, _⟩ _ (hp.of_get? hd)
    · exact .nil root
  · exact .nil root

theorem exists_names_of_mem_filesBelow (hp : tree.top.Proper) {links : Nat}
    {entries : List (FileName × Node)} (hd : (Node.dir entries).Proper) {q : Path}
    (hq : q ∈ tree.filesBelow enter links stop entries) :
    ∃ names, names ≠ [] ∧ (∀ n ∈ names, Path.IsName n) ∧ q = stop.path.descend names := by
  cases links
  case zero =>
    refine exists_names_of_mem_inNameOrder (isName_of_mem_filesIn hd) (lists_of_mem_filesIn ?_) hq
    exact fun n child hm => lists_filesAt (lists_throughLink hp fun _ _ _ => .nil _) (hd.entry hm) n
  case succ links =>
    refine exists_names_of_mem_inNameOrder (isName_of_mem_filesIn hd) (lists_of_mem_filesIn ?_) hq
    exact fun n child hm => lists_filesAt (lists_throughLink hp (lists_filesBelow hp links)) (hd.entry hm) n

-- A walk from a file finds this file. One from a directory finds files below it.
theorem files_eq_self_or_below (hp : tree.top.Proper) (root : Path) :
    tree.files enter root = [root] ∨ ∀ q ∈ tree.files enter root,
      ∃ names, names ≠ [] ∧ (∀ n ∈ names, Path.IsName n) ∧ q = root.descend names := by
  unfold files
  split
  · split
    · exact .inl rfl
    · rename_i hd
      exact .inr fun q hq => exists_names_of_mem_filesBelow hp (hp.of_get? hd) hq
    · exact .inr (by simp)
  · exact .inr (by simp)

end FileTree

end CrossRef
