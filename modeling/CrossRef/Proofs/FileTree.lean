import CrossRef.FileTree.Access
import CrossRef.Proofs.Path

namespace CrossRef

namespace Node

-- What holds of files, of links, and of directories whose entries it holds of, holds of all nodes.
@[elab_as_elim]
theorem induct {P : Node → Prop} (file : ∀ content, P (.file content)) (link : ∀ target, P (.link target))
    (dir : ∀ entries, (∀ n node, (n, node) ∈ entries → P node) → P (.dir entries)) (node : Node) :
    P node :=
  match node with
  | .file content => file content
  | .link target => link target
  | .dir entries => dir entries (below entries)
where
  below : (entries : List (FileName × Node)) → ∀ n node, (n, node) ∈ entries → P node
    | [], _, _, h => nomatch h
    | (_, child) :: rest, n, node, h => by
      obtain h | h := List.mem_cons.mp h
      · exact (Prod.mk.inj h).2 ▸ induct file link dir child
      · exact below rest n node h

theorem mem_of_find?_eq_some {α : Type} {entries : List (FileName × α)} {n : FileName} {x : α}
    (h : find? n entries = some x) : (n, x) ∈ entries := by
  induction entries
  case nil => simp [find?] at h
  case cons e rest ih =>
    by_cases he : e.1 = n
    · subst he
      grind [find?]
    · grind [find?]

theorem find?_eq_some_iff {α : Type} {entries : List (FileName × α)} (h : (entries.map (·.1)).Nodup)
    {n : FileName} {x : α} : find? n entries = some x ↔ (n, x) ∈ entries := by
  refine ⟨mem_of_find?_eq_some, fun hx => ?_⟩
  induction entries
  case nil => simp at hx
  case cons e rest ih =>
    have ⟨hm, hr⟩ := List.nodup_cons.mp h
    obtain rfl | hx := List.mem_cons.mp hx
    · simp [find?]
    · have he : e.1 ≠ n := fun he => hm (List.mem_map.mpr ⟨_, hx, he.symm⟩)
      simp [find?, he, ih hr hx]

theorem get?_append (node : Node) (a b : Address) : node.get? (a ++ b) = (node.get? a).bind (·.get? b) := by
  induction a generalizing node
  case nil => simp [get?]
  case cons n rest ih =>
    cases node
    case dir entries => cases h : find? n entries <;> simp [get?, h, ih]
    all_goals simp [get?]

theorem get?_dir_cons (entries : List (FileName × Node)) (n : FileName) (rest : Address) :
    (dir entries).get? (n :: rest) = (find? n entries).bind (·.get? rest) := rfl

theorem exists_entry_of_isSome {entries : List (FileName × Node)} {n : FileName} {rest : Address}
    (h : ((dir entries).get? (n :: rest)).isSome) :
    ∃ child, (n, child) ∈ entries ∧ (child.get? rest).isSome := by
  cases hf : find? n entries
  case none       => simp [get?_dir_cons, hf] at h
  case some child => exact ⟨child, mem_of_find?_eq_some hf, by simpa [get?_dir_cons, hf] using h⟩

-- Only directories have something below them.
theorem exists_dir_of_isSome {node : Node} {a : Address} {n : FileName} {rest : Address}
    (h : (node.get? (a ++ n :: rest)).isSome) : ∃ entries, node.get? a = some (.dir entries) := by
  rw [get?_append] at h
  cases ha : node.get? a
  case none => simp [ha] at h
  case some below => cases below <;> simp_all [get?]

mutual

-- All addresses in a tree.
def addresses : Node → List Address
  | file _ | link _ => [[]]
  | dir entries => [] :: addressesIn entries

def addressesIn : List (FileName × Node) → List Address
  | [] => []
  | (n, node) :: rest => node.addresses.map (n :: ·) ++ addressesIn rest

end

-- The names in the directory at an address.
def namesAt (node : Node) (a : Address) : List FileName :=
  match node.get? a with
  | some (dir entries) => entries.map (·.1)
  | _ => []

theorem mem_addressesIn {entries : List (FileName × Node)} {n : FileName} {child : Node} {a : Address}
    (hm : (n, child) ∈ entries) (ha : a ∈ child.addresses) : n :: a ∈ addressesIn entries := by
  induction entries
  case nil => simp at hm
  case cons e rest ih =>
    rw [addressesIn]
    obtain rfl | hm := List.mem_cons.mp hm
    · exact List.mem_append_left _ (List.mem_map_of_mem ha)
    · exact List.mem_append_right _ (ih hm)

theorem mem_addresses {node : Node} {a : Address} (h : (node.get? a).isSome) : a ∈ node.addresses := by
  induction a generalizing node
  case nil => cases node <;> simp [addresses]
  case cons n rest ih =>
    cases node
    case dir entries =>
      have ⟨child, hm, hs⟩ := exists_entry_of_isSome h
      exact List.mem_cons_of_mem _ (mem_addressesIn hm (ih hs))
    all_goals simp [get?] at h

-- Each name of an address stands in a directory on the way.
theorem exists_mem_namesAt {node : Node} {a : Address} (h : (node.get? a).isSome) {n : FileName}
    (hn : n ∈ a) : ∃ front ∈ node.addresses, n ∈ node.namesAt front := by
  obtain ⟨front, rest, rfl⟩ := List.append_of_mem hn
  obtain ⟨entries, hd⟩ := exists_dir_of_isSome h
  rw [get?_append, hd, Option.bind_some] at h
  obtain ⟨child, hm, _⟩ := exists_entry_of_isSome h
  refine ⟨front, mem_addresses (Option.isSome_of_eq_some hd), ?_⟩
  rw [namesAt, hd]
  exact List.mem_map_of_mem hm

def isLink : Node → Bool
  | link _ => true
  | _ => false

theorem ne_link_of_addresses {node : Node} (h : ∀ a ∈ node.addresses, (node.get? a).any isLink = false)
    (a : Address) (target : Path) : node.get? a ≠ some (.link target) := by
  intro ha
  have hlink := h a (mem_addresses (Option.isSome_of_eq_some ha))
  simp [ha, isLink] at hlink

-- No link stands on the way to an address or at it.
def LinkFree (top : Node) (a : Address) : Prop :=
  ∀ front, front <+: a → ∀ target, top.get? front ≠ some (.link target)

theorem linkFree_append {top : Node} {a : Address} {entries : List (FileName × Node)}
    (hd : top.get? a = some (.dir entries))
    (hl : ∀ below target, top.get? (a ++ below) ≠ some (.link target)) (rest : Address) :
    top.LinkFree (a ++ rest) := by
  intro front hfront target
  obtain ⟨more, hmore⟩ | ⟨below, rfl⟩ :=
    List.prefix_or_prefix_of_prefix hfront (List.prefix_append a rest)
  · cases more
    case nil =>
      rw [List.append_nil] at hmore
      simp [hmore, hd]
    case cons n more =>
      have hsome : (top.get? (front ++ n :: more)).isSome := by simp [hmore, hd]
      have ⟨_, hdir⟩ := exists_dir_of_isSome hsome
      simp [hdir]
  · exact hl below target

-- The entries of each directory have proper names that differ from each other.
structure Proper (node : Node) : Prop where
  names : ∀ a, (node.get? a).isSome → ∀ n ∈ a, Path.IsName n
  nodup : ∀ a entries, node.get? a = some (.dir entries) → (entries.map (·.1)).Nodup

namespace Proper

theorem of_get? {node child : Node} {a : Address} (h : node.Proper) (ha : node.get? a = some child) :
    child.Proper where
  names b hb n hn := by
    have hab : (node.get? (a ++ b)).isSome := by rwa [get?_append, ha, Option.bind_some]
    exact h.names (a ++ b) hab n (List.mem_append_right a hn)
  nodup b entries hb := by
    have hab : node.get? (a ++ b) = some (.dir entries) := by rwa [get?_append, ha, Option.bind_some]
    exact h.nodup (a ++ b) entries hab

variable {entries : List (FileName × Node)} {n : FileName} {child : Node}

theorem nodup_entries (h : (dir entries).Proper) : (entries.map (·.1)).Nodup := h.nodup [] entries rfl

theorem get?_entry (h : (dir entries).Proper) (hm : (n, child) ∈ entries) (rest : Address) :
    (dir entries).get? (n :: rest) = child.get? rest := by
  rw [get?_dir_cons, (find?_eq_some_iff h.nodup_entries).mpr hm, Option.bind_some]

theorem isName_entry (h : (dir entries).Proper) (hm : (n, child) ∈ entries) : Path.IsName n :=
  h.names [n] (by rw [h.get?_entry hm]; rfl) n (List.mem_singleton_self n)

theorem entry (h : (dir entries).Proper) (hm : (n, child) ∈ entries) : child.Proper :=
  h.of_get? (h.get?_entry hm [])

end Proper

end Node

namespace FileTree

-- Names and paths that are not too long to be given to the system.
structure Fits (names : List FileName) : Prop where
  no_nul : 0 ∉ (Path.ofNames names).bytes
  path   : (Path.ofNames names).bytes.length ≤ maxPath
  names  : ∀ n ∈ names, n.length ≤ maxName

instance (names : List FileName) : Decidable (Fits names) :=
  decidable_of_iff (0 ∉ (Path.ofNames names).bytes ∧ (Path.ofNames names).bytes.length ≤ maxPath ∧
    ∀ n ∈ names, n.length ≤ maxName) ⟨fun ⟨h₁, h₂, h₃⟩ => ⟨h₁, h₂, h₃⟩, fun ⟨h₁, h₂, h₃⟩ => ⟨h₁, h₂, h₃⟩⟩

-- What file systems see to: names are proper, distinct in each directory and not too long. Paths can be of
-- any length.
structure WellFormed (tree : FileTree) : Prop where
  proper : tree.top.Proper
  names  : ∀ a, (tree.top.get? a).isSome → ∀ n ∈ a, 0 ∉ n ∧ n.length ≤ maxName

namespace WellFormed

variable {tree : FileTree}

-- A file tree is well-formed if the names in each of its directories are.
theorem of_addresses (h : ∀ a ∈ tree.top.addresses, (tree.top.namesAt a).Nodup ∧
    ∀ n ∈ tree.top.namesAt a, Path.IsName n ∧ 0 ∉ n ∧ n.length ≤ maxName) : tree.WellFormed := by
  have hname {a : Address} (ha : (tree.top.get? a).isSome) {n : FileName} (hn : n ∈ a) :
      Path.IsName n ∧ 0 ∉ n ∧ n.length ≤ maxName := by
    have ⟨front, hf, hn⟩ := Node.exists_mem_namesAt ha hn
    exact (h front hf).2 n hn
  refine ⟨⟨fun a ha n hn => (hname ha hn).1, fun a entries ha => ?nodup⟩, fun a ha n hn => (hname ha hn).2⟩
  case nodup =>
    have hnd := (h a (Node.mem_addresses (Option.isSome_of_eq_some ha))).1
    rwa [Node.namesAt, ha] at hnd

theorem fits_iff (wf : tree.WellFormed) {a : Address} (hs : (tree.top.get? a).isSome) :
    Fits a ↔ (Path.ofNames a).bytes.length ≤ maxPath := by
  refine ⟨Fits.path, fun hlen => ⟨fun h0 => ?_, hlen, fun n hn => (wf.names a hs n hn).2⟩⟩
  obtain h0 | h0 := List.mem_cons.mp h0
  · exact absurd h0 (by decide)
  · obtain h0 | ⟨n, hn, h0⟩ := Path.mem_joinPieces h0
    · exact absurd h0 (by decide)
    · exact (wf.names a hs n hn).1 h0

end WellFormed

section

variable {top : Node} {follow : Address → List FileName → Except Fault Target} {address a : Address}

theorem advance_into {entries : List (FileName × Node)} {n : FileName} {child : Node}
    (hd : top.get? address = some (.dir entries)) (hn : Path.IsName n) (hlen : n.length ≤ maxName)
    (hf : Node.find? n entries = some child) (hc : ∀ target, child ≠ .link target)
    (rest : List FileName) :
    advance top follow address (n :: rest) = advance top follow (address ++ [n]) rest := by
  simp only [advance, hd, hn.isNothing, hn.ne_dotDot, Nat.not_lt.mpr hlen, hf, Bool.false_eq_true,
    if_false]

theorem exists_of_advance_eq_found {n : FileName} {rest : List FileName} (hn : Path.IsName n)
    (h : advance top follow address (n :: rest) = .ok (.found a)) :
    ∃ entries child, top.get? address = some (.dir entries) ∧ n.length ≤ maxName ∧
      Node.find? n entries = some child := by
  rw [advance] at h
  split at h
  · rename_i entries hd
    simp only [hn.isNothing, hn.ne_dotDot, Bool.false_eq_true, if_false] at h
    split at h
    · simp at h
    · rename_i hlen
      cases hf : Node.find? n entries
      case none =>
        simp only [hf] at h
        split at h <;> simp at h
      case some child => exact ⟨entries, child, hd, Nat.not_lt.mp hlen, hf⟩
  · simp at h

-- Without links on the way, names lead to the address that they make up.
theorem advance_eq_found_iff {names : List FileName} (hn : ∀ n ∈ names, Path.IsName n)
    (hs : (top.get? address).isSome) (hl : top.LinkFree (address ++ names)) :
    advance top follow address names = .ok (.found a) ↔
      a = address ++ names ∧ (top.get? (address ++ names)).isSome ∧ ∀ n ∈ names, n.length ≤ maxName := by
  induction names generalizing address
  case nil => simp [advance, hs, eq_comm]
  case cons n rest ih =>
    have ⟨hname, hrest⟩ := List.forall_mem_cons.mp hn
    have happ : address ++ n :: rest = (address ++ [n]) ++ rest := by simp
    have hget : ∀ entries, top.get? address = some (.dir entries) →
        top.get? (address ++ [n]) = Node.find? n entries := by
      intro entries hd
      rw [Node.get?_append, hd, Option.bind_some, Node.get?_dir_cons]
      cases Node.find? n entries <;> rfl
    have step : ∀ entries child, top.get? address = some (.dir entries) → n.length ≤ maxName →
        Node.find? n entries = some child → (advance top follow address (n :: rest) = .ok (.found a) ↔
          a = address ++ n :: rest ∧ (top.get? (address ++ n :: rest)).isSome ∧
            ∀ m ∈ rest, m.length ≤ maxName) := by
      intro entries child hd hlen hf
      have hg := (hget entries hd).trans hf
      have hc : ∀ target, child ≠ .link target := fun target ht =>
        hl (address ++ [n]) (by simp) target (ht ▸ hg)
      rw [advance_into hd hname hlen hf hc, happ]
      exact ih hrest (by simp [hg]) (happ ▸ hl)
    constructor
    · intro h
      have ⟨entries, child, hd, hlen, hf⟩ := exists_of_advance_eq_found hname h
      have ⟨ha, hsome, hle⟩ := (step entries child hd hlen hf).mp h
      exact ⟨ha, hsome, List.forall_mem_cons.mpr ⟨hlen, hle⟩⟩
    · rintro ⟨ha, hsome, hle⟩
      have ⟨hlen, hle⟩ := List.forall_mem_cons.mp hle
      have ⟨entries, hd⟩ := Node.exists_dir_of_isSome hsome
      have ⟨child, hf⟩ : ∃ child, Node.find? n entries = some child := by
        rw [Node.get?_append, hd, Option.bind_some, Node.get?_dir_cons] at hsome
        cases hf : Node.find? n entries
        case none       => simp [hf] at hsome
        case some child => exact ⟨child, rfl⟩
      exact (step entries child hd hlen hf).mpr ⟨ha, hsome, hle⟩

end

variable {tree : FileTree}

theorem resolve_ofNames {names : List FileName} (hne : names ≠ []) (hn : ∀ n ∈ names, Path.IsName n)
    (h0 : 0 ∉ (Path.ofNames names).bytes) (hlen : (Path.ofNames names).bytes.length ≤ maxPath) :
    tree.resolve (Path.ofNames names) = locate tree.top maxLinks [] ([] :: names) := by
  have hb : (Path.ofNames names).bytes ≠ [] := List.cons_ne_nil _ _
  have ho : tree.origin (Path.ofNames names) = [] := rfl
  have hs : Path.split (Path.ofNames names).bytes = [] :: names := by
    rw [Path.ofNames, show Path.slash :: Path.joinPieces names = [] ++ Path.slash :: Path.joinPieces names
      from rfl, Path.split_append, Path.split_joinPieces hne hn]
    rfl
  rw [resolve, if_neg h0, if_neg hb, if_neg (Nat.not_lt.mpr hlen), ho, hs]

theorem resolve_ofNames_eq_found_iff {names : List FileName} (hne : names ≠ [])
    (hn : ∀ n ∈ names, Path.IsName n) (hl : tree.top.LinkFree names) {a : Address} :
    tree.resolve (Path.ofNames names) = .ok (.found a) ↔
      a = names ∧ (tree.top.get? names).isSome ∧ Fits names := by
  by_cases h0 : 0 ∈ (Path.ofNames names).bytes
  · have hf : ¬Fits names := fun hf => hf.no_nul h0
    simp [resolve, h0, hf]
  · by_cases hlen : maxPath < (Path.ofNames names).bytes.length
    · have hf : ¬Fits names := fun hf => absurd hf.path (Nat.not_le.mpr hlen)
      have hb : (Path.ofNames names).bytes ≠ [] := List.cons_ne_nil _ _
      simp [resolve, h0, hb, hlen, hf]
    · have hfits : Fits names ↔ ∀ n ∈ names, n.length ≤ maxName :=
        ⟨fun hf => hf.names, fun h => ⟨h0, Nat.not_lt.mp hlen, h⟩⟩
      rw [resolve_ofNames hne hn h0 (Nat.not_lt.mp hlen), hfits, maxLinks, locate, advance]
      split
      · rw [if_pos (by rfl : Path.isNothing [] = true)]
        exact advance_eq_found_iff hn rfl hl
      · -- Nothing stands below the top if it is no directory.
        rename_i hd
        have ⟨n, rest, hcons⟩ := List.exists_cons_of_ne_nil hne
        have hnone : ¬(tree.top.get? names).isSome := fun h =>
          have ⟨entries, he⟩ := @Node.exists_dir_of_isSome tree.top [] n rest (hcons ▸ h)
          hd entries he
        simp [hnone]

theorem address_eq_ok_iff {p : Path} {a : Address} :
    tree.address p = .ok a ↔ tree.resolve p = .ok (.found a) := by
  unfold address
  cases tree.resolve p
  case error fault => simp [bind, Except.bind]
  case ok target   => cases target <;> simp [bind, Except.bind]

theorem length_le_of_address {p : Path} {a : Address} (h : tree.address p = .ok a) :
    p.bytes.length ≤ maxPath := by
  rw [address_eq_ok_iff, resolve] at h
  split_ifs at h with _ _ hlen
  exact Nat.not_lt.mp hlen

theorem node_eq_ok_iff {p : Path} {node : Node} :
    tree.node p = .ok node ↔ ∃ a, tree.address p = .ok a ∧ tree.top.get? a = some node := by
  unfold FileTree.node
  cases tree.address p
  case error fault => simp [bind, Except.bind]
  case ok a        => cases h : tree.top.get? a <;> simp [bind, Except.bind, h]

theorem isFile_iff {p : Path} :
    tree.isFile p = true ↔ ∃ content, tree.node p = .ok (.file content) := by
  unfold isFile
  split <;> simp_all

theorem isDir_iff {p : Path} : tree.isDir p = true ↔ ∃ entries, tree.node p = .ok (.dir entries) := by
  unfold isDir
  split <;> simp_all

theorem isFile_ofNames_iff {names : List FileName} (hne : names ≠ [])
    (hn : ∀ n ∈ names, Path.IsName n) (hl : tree.top.LinkFree names) :
    tree.isFile (Path.ofNames names) = true ↔
      (∃ content, tree.top.get? names = some (.file content)) ∧ Fits names := by
  simp only [isFile_iff, node_eq_ok_iff, address_eq_ok_iff, resolve_ofNames_eq_found_iff hne hn hl]
  constructor
  · rintro ⟨content, _, ⟨rfl, _, hf⟩, hc⟩
    exact ⟨⟨content, hc⟩, hf⟩
  · rintro ⟨⟨content, hc⟩, hf⟩
    exact ⟨content, names, ⟨rfl, by simp [hc], hf⟩, hc⟩

end FileTree

end CrossRef
