import CrossRef.Repository
import CrossRef.Proofs.FileTree
import CrossRef.Proofs.Utf8
import Mathlib.Data.List.Nodup

namespace CrossRef

open Text.Utf8

-- A name of a commit as it is read.
def readName (n : FileName) : FileName := (Path.asRead ⟨n⟩).bytes

theorem Path.asRead_of_isText {p : Path} (h : IsText p.bytes) : p.asRead = p := by
  rw [asRead, toString, ofString, h.encode_decodeLossy]

-- The path on which names lead through a commit, as it is read.
def readPath (names : List FileName) : Path := ⟨Path.joinPieces (names.map readName)⟩

theorem readName_of_isText {n : FileName} (h : IsText n) : readName n = n :=
  congrArg Path.bytes (Path.asRead_of_isText h)

namespace CommitNode

-- What holds of entries, and of trees whose entries it holds of, holds of all nodes of a commit.
@[elab_as_elim]
theorem induct {P : CommitNode → Prop} (entry : ∀ mode id, P (.entry mode id))
    (tree : ∀ entries, (∀ n node, (n, node) ∈ entries → P node) → P (.tree entries))
    (node : CommitNode) : P node :=
  match node with
  | .entry mode id => entry mode id
  | .tree entries => tree entries (below entries)
where
  below : (entries : List (FileName × CommitNode)) → ∀ n node, (n, node) ∈ entries → P node
    | [], _, _, h => nomatch h
    | (_, child) :: rest, n, node, h => by
      obtain h | h := List.mem_cons.mp h
      · exact (Prod.mk.inj h).2 ▸ induct entry tree child
      · exact below rest n node h

-- What some names lead to in a commit.
def get? (node : CommitNode) : List FileName → Option CommitNode
  | [] => some node
  | n :: rest =>
    match node with
    | tree entries => (Node.find? n entries).bind (·.get? rest)
    | entry .. => none

-- The identity of the file to which some names lead in a commit.
def fileId? (node : CommitNode) (names : List FileName) : Option ObjectId :=
  match node.get? names with
  | some (.entry mode id) => if mode.isFile then some id else none
  | _ => none

theorem fileId?_eq_some_iff {node : CommitNode} {names : List FileName} {id : ObjectId} :
    node.fileId? names = some id ↔
      ∃ mode, node.get? names = some (.entry mode id) ∧ mode.isFile = true := by
  unfold fileId?
  split
  case h_1 mode id' h => simp only [h]; grind
  case h_2 h          => grind

theorem exists_entry_of_isSome {entries : List (FileName × CommitNode)} {n : FileName}
    {rest : List FileName} (h : ((tree entries).get? (n :: rest)).isSome) :
    ∃ child, (n, child) ∈ entries ∧ (child.get? rest).isSome := by
  cases hf : Node.find? n entries
  case none       => simp [get?, hf] at h
  case some child => exact ⟨child, Node.mem_of_find?_eq_some hf, by simpa [get?, hf] using h⟩

section

variable {P : FileName → Prop}

theorem forall_names_entry (mode : EntryMode) (id : ObjectId) :
    ∀ a, ((entry mode id).get? a).isSome → ∀ n ∈ a, P n := by
  intro a ha
  cases a
  case nil  => simp
  case cons => simp [get?] at ha

theorem forall_names_tree {entries : List (FileName × CommitNode)}
    (h : ∀ n child, (n, child) ∈ entries → P n ∧ ∀ a, (child.get? a).isSome → ∀ m ∈ a, P m) :
    ∀ a, ((tree entries).get? a).isSome → ∀ n ∈ a, P n := by
  intro a ha
  cases a
  case nil => simp
  case cons n rest =>
    have ⟨child, hm, hs⟩ := exists_entry_of_isSome ha
    exact List.forall_mem_cons.mpr ⟨(h n child hm).1, (h n child hm).2 rest hs⟩

end

-- The names in each tree of a commit are proper and differ from each other, as they are read.
structure Proper (node : CommitNode) : Prop where
  names : ∀ a, (node.get? a).isSome → ∀ n ∈ a, Path.IsName (readName n)
  nodup : ∀ a entries, node.get? a = some (.tree entries) → (entries.map (readName ·.1)).Nodup

namespace Proper

variable {entries : List (FileName × CommitNode)} {n : FileName} {child : CommitNode}

theorem nodup_names (h : (tree entries).Proper) : (entries.map (·.1)).Nodup :=
  List.pairwise_map.mpr <| (List.pairwise_map.mp (h.nodup [] entries rfl)).imp fun hne he =>
    hne (congrArg readName he)

theorem get?_entry (h : (tree entries).Proper) (hm : (n, child) ∈ entries) (rest : List FileName) :
    (tree entries).get? (n :: rest) = child.get? rest := by
  rw [get?, (Node.find?_eq_some_iff h.nodup_names).mpr hm, Option.bind_some]

theorem entry (h : (tree entries).Proper) (hm : (n, child) ∈ entries) : child.Proper where
  names a ha m hmem := h.names (n :: a) (h.get?_entry hm a ▸ ha) m (List.mem_cons_of_mem n hmem)
  nodup a more ha := h.nodup (n :: a) more (h.get?_entry hm a ▸ ha)

theorem isName_map_readName {node : CommitNode} (h : node.Proper) {names : List FileName}
    (hs : (node.get? names).isSome) : ∀ n ∈ names.map readName, Path.IsName n := by
  simpa using h.names names hs

theorem ofEntry (mode : EntryMode) (id : ObjectId) : (CommitNode.entry mode id).Proper where
  names := forall_names_entry mode id
  nodup a more ha := by cases a <;> simp [get?] at ha

theorem ofTree (hnd : (entries.map (readName ·.1)).Nodup)
    (h : ∀ n child, (n, child) ∈ entries → Path.IsName (readName n) ∧ child.Proper) :
    (tree entries).Proper where
  names := forall_names_tree fun n child hm => ⟨(h n child hm).1, (h n child hm).2.names⟩
  nodup a more ha := by
    cases a
    case nil => simpa [get?] using CommitNode.tree.inj (Option.some.inj ha) ▸ hnd
    case cons n rest =>
      have ⟨child, hf, hget⟩ := Option.bind_eq_some_iff.mp ha
      exact (h n child (Node.mem_of_find?_eq_some hf)).2.nodup rest more hget

-- Names in a commit that are read alike are the same names.
theorem eq_of_map_readName_eq {node : CommitNode} (h : node.Proper) {a b : List FileName}
    (ha : (node.get? a).isSome) (hb : (node.get? b).isSome) (he : a.map readName = b.map readName) :
    a = b := by
  induction a generalizing node b
  case nil => simpa using he.symm
  case cons n rest ih =>
    cases b
    case nil => simp at he
    case cons m more =>
      have ⟨hnm, hrest⟩ := List.cons.inj he
      cases node
      case entry => simp [get?] at ha
      case tree entries =>
        have ⟨child, hc, hcs⟩ := exists_entry_of_isSome ha
        have ⟨child', hc', hcs'⟩ := exists_entry_of_isSome hb
        have hsame : (n, child) = (m, child') :=
          List.inj_on_of_nodup_map (h.nodup [] entries rfl) hc hc' hnm
        obtain ⟨rfl, rfl⟩ := Prod.mk.inj hsame
        rw [ih (h.entry hc) hcs hcs' hrest]

end Proper

theorem blobsIn_eq_flatMap (path : Path) (entries : List (FileName × CommitNode)) :
    blobsIn path entries = entries.flatMap fun e => e.2.blobs (path.child (readName e.1)) := by
  induction entries
  case nil => simp [blobsIn]
  case cons e rest ih =>
    rw [blobsIn, ih]
    rfl

-- The files of a commit are what names lead to in it.
theorem mem_blobs_iff {node : CommitNode} (h : node.Proper) {path p : Path} {id : ObjectId} :
    (p, id) ∈ node.blobs path ↔
      ∃ names, node.fileId? names = some id ∧ p = path.descend (names.map readName) := by
  induction node using induct generalizing path
  case entry mode id' =>
    rw [blobs]
    constructor
    · intro hm
      split at hm
      case isTrue hf =>
        obtain ⟨rfl, rfl⟩ := Prod.mk.inj (List.mem_singleton.mp hm)
        exact ⟨[], by simp [fileId?, get?, hf], rfl⟩
      case isFalse => simp at hm
    · rintro ⟨names, hid, rfl⟩
      obtain ⟨mode', hget, hf⟩ := fileId?_eq_some_iff.mp hid
      cases names
      case nil =>
        obtain ⟨rfl, rfl⟩ : mode = mode' ∧ id' = id := by simpa [get?] using hget
        simp [hf, Path.descend]
      case cons => simp [get?] at hget
  case tree entries ih =>
    rw [blobs, blobsIn_eq_flatMap]
    simp only [List.mem_flatMap, Prod.exists]
    constructor
    · rintro ⟨n, child, hm, hb⟩
      obtain ⟨names, hid, hpath⟩ := (ih n child hm (h.entry hm)).mp hb
      refine ⟨n :: names, ?_, hpath⟩
      rwa [fileId?, h.get?_entry hm]
    · rintro ⟨names, hid, hpath⟩
      cases names
      case nil => simp [fileId?, get?] at hid
      case cons n rest =>
        obtain ⟨mode, hget, _⟩ := fileId?_eq_some_iff.mp hid
        have hs : ((tree entries).get? (n :: rest)).isSome := by simp [hget]
        obtain ⟨child, hm, _⟩ := exists_entry_of_isSome hs
        rw [fileId?, h.get?_entry hm] at hid
        exact ⟨n, child, hm, (ih n child hm (h.entry hm)).mpr ⟨rest, hid, hpath⟩⟩

end CommitNode

namespace Repository

-- The last commit, which holds nothing before the first one.
def lastCommit (repo : Repository) : CommitNode := .tree (repo.head.getD [])

variable {repo : Repository}

theorem mem_committed_iff (h : repo.lastCommit.Proper) {p : Path} {id : ObjectId} :
    (p, id) ∈ repo.committed ↔
      ∃ names, repo.lastCommit.fileId? names = some id ∧ p = (⟨[]⟩ : Path).descend (names.map readName) :=
  CommitNode.mem_blobs_iff h

theorem isSome_get?_of_fileId? {names : List FileName} {id : ObjectId}
    (h : repo.lastCommit.fileId? names = some id) : (repo.lastCommit.get? names).isSome := by
  have ⟨mode, hget, _⟩ := CommitNode.fileId?_eq_some_iff.mp h
  simp [hget]

theorem components_of_fileId? (h : repo.lastCommit.Proper) {names : List FileName} {id : ObjectId}
    (hid : repo.lastCommit.fileId? names = some id) :
    ((⟨[]⟩ : Path).descend (names.map readName)).components = (names.map readName).map .name := by
  rw [Path.components_descend _ (h.isName_map_readName (isSome_get?_of_fileId? hid))]
  rfl

-- Looking a path up among all files of the last commit comes to going down its trees.
theorem committedId?_eq_some_iff (h : repo.lastCommit.Proper) {p : Path} {id : ObjectId} :
    repo.committedId? p = some id ↔ ∃ names, repo.lastCommit.fileId? names = some id ∧
      p.components = (names.map readName).map .name := by
  have hfound {q : Path} {i : ObjectId} (hf : repo.committed.reverse.find? (·.1.same p) = some (q, i)) :
      ∃ names, repo.lastCommit.fileId? names = some i ∧
        p.components = (names.map readName).map .name := by
    have hm := List.mem_reverse.mp (List.mem_of_find?_eq_some hf)
    have ⟨names, hid, hq⟩ := (mem_committed_iff h).mp hm
    have hsame := List.find?_some hf
    exact ⟨names, hid, by rw [← Path.same_iff.mp hsame, hq, components_of_fileId? h hid]⟩
  rw [committedId?, Option.map_eq_some_iff]
  constructor
  · rintro ⟨⟨q, _⟩, hf, rfl⟩
    exact hfound hf
  · rintro ⟨names, hid, hp⟩
    have hm := (mem_committed_iff h).mpr ⟨names, hid, rfl⟩
    have hsame := Path.same_iff.mpr ((components_of_fileId? h hid).trans hp.symm)
    cases hf : repo.committed.reverse.find? (·.1.same p)
    case none => exact absurd hsame (by simpa using List.find?_eq_none.mp hf _ (List.mem_reverse.mpr hm))
    case some found =>
      have ⟨names', hid', hp'⟩ := hfound hf
      have hread := Path.map_name_injective (hp.symm.trans hp')
      obtain rfl := h.eq_of_map_readName_eq (isSome_get?_of_fileId? hid) (isSome_get?_of_fileId? hid') hread
      exact ⟨found, rfl, Option.some.inj (hid'.symm.trans hid)⟩

end Repository

end CrossRef
