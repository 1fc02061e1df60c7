import CrossRef.Proofs.Place

namespace CrossRef

namespace Node

section Put

variable {n m : FileName} {node : Node} {entries : List (FileName × Node)}

theorem find?_put : find? m (put n node entries) = if m = n then some node else find? m entries := by
  induction entries
  case nil => simp [put, find?, eq_comm]
  case cons e rest ih =>
    rw [put]
    split <;> grind [find?]

theorem mem_of_mem_put {e : FileName × Node} (h : e ∈ put n node entries) : e = (n, node) ∨ e ∈ entries := by
  induction entries
  case nil => simpa [put] using h
  case cons first rest ih =>
    rw [put] at h
    split at h <;> grind

theorem nodup_names_put (h : (entries.map (·.1)).Nodup) : ((put n node entries).map (·.1)).Nodup := by
  induction entries
  case nil => simp [put]
  case cons e rest ih =>
    have ⟨hm, hr⟩ := List.nodup_cons.mp h
    rw [put]
    split
    case isTrue he => simpa [← he] using h
    case isFalse he =>
      refine List.nodup_cons.mpr ⟨fun hm' => ?_, ih hr⟩
      have ⟨e', he', hname⟩ := List.mem_map.mp hm'
      obtain rfl | he' := mem_of_mem_put he'
      · exact he hname.symm
      · exact hm (hname ▸ List.mem_map_of_mem he')

end Put

theorem set_dir_of_find? {entries : List (FileName × Node)} {n : FileName} {child new : Node} {rest : Address}
    (h : find? n entries = some child) :
    (dir entries).set new (n :: rest) = dir (put n (child.set new rest) entries) := by
  rw [Node.set]
  exact h

theorem proper_dir_iff {entries : List (FileName × Node)} :
    (dir entries).Proper ↔
      (entries.map (·.1)).Nodup ∧ ∀ n child, (n, child) ∈ entries → Path.IsName n ∧ child.Proper := by
  constructor
  · exact fun h => ⟨h.nodup_entries, fun n child hm => ⟨h.isName_entry hm, h.entry hm⟩⟩
  · rintro ⟨hnodup, hentries⟩
    constructor
    case names =>
      intro a ha
      cases a
      case nil => simp
      case cons n rest =>
        have ⟨child, hm, hs⟩ := exists_entry_of_isSome ha
        have ⟨hn, hc⟩ := hentries n child hm
        exact List.forall_mem_cons.mpr ⟨hn, hc.names rest hs⟩
    case nodup =>
      intro a inner ha
      cases a
      case nil => exact dir.inj (Option.some.inj ha) ▸ hnodup
      case cons n rest =>
        have ⟨child, hf, hg⟩ := Option.bind_eq_some_iff.mp ha
        exact (hentries n child (mem_of_find?_eq_some hf)).2.nodup rest inner hg

theorem proper_file (content : List UInt8) : (file content).Proper where
  names a ha := by cases a <;> simp_all [get?]
  nodup a entries ha := by cases a <;> simp [get?] at ha

theorem Proper.set {node new : Node} (hp : node.Proper) (hnew : new.Proper) {a : Address}
    (hn : ∀ n ∈ a, Path.IsName n) : (node.set new a).Proper := by
  induction a generalizing node
  case nil => exact hnew
  case cons n rest ih =>
    have ⟨hname, hrest⟩ := List.forall_mem_cons.mp hn
    cases node
    case file content => exact hp
    case link target  => exact hp
    case dir entries =>
      have hput {child : Node} (hc : child.Proper) : (dir (put n child entries)).Proper := by
        refine proper_dir_iff.mpr ⟨nodup_names_put hp.nodup_entries, fun m other hm => ?_⟩
        obtain he | hm := mem_of_mem_put hm
        · obtain ⟨rfl, rfl⟩ := Prod.mk.inj he
          exact ⟨hname, hc⟩
        · exact ⟨hp.isName_entry hm, hp.entry hm⟩
      cases hf : find? n entries
      case some child =>
        rw [set_dir_of_find? hf]
        exact hput (ih (hp.entry (mem_of_find?_eq_some hf)) hrest)
      case none =>
        cases rest <;> simp only [Node.set, hf]
        case nil  => exact hput hnew
        case cons => exact hp

theorem see?_dir_cons (entries : List (FileName × Node)) (n : FileName) (rest : Address) :
    (dir entries).see? (n :: rest) = (find? n entries).bind (·.see? rest) := by
  rw [see?, get?_dir_cons, Option.map_bind]
  rfl

theorem see?_dir_put {entries : List (FileName × Node)} {n : FileName} {child : Node} {rest : Address}
    {new : Sight} (h : ∀ b, child.see? b = if b = rest then some new else (dir entries).see? (n :: b))
    (b : Address) :
    (dir (put n child entries)).see? b = if b = n :: rest then some new else (dir entries).see? b := by
  cases b
  case nil => simp [see?, get?, sight]
  case cons m b =>
    rw [see?_dir_cons, find?_put]
    by_cases hm : m = n
    · subst hm
      simp [h]
    · simp [hm, see?_dir_cons]

-- After a file is written at an address where no path goes on, it is seen there, and nothing else changes.
theorem see?_set_file {node : Node} {a : Address} (he : node.Ends a)
    (hd : a ≠ [] → node.see? a.dropLast = some .dir) (content : List UInt8) (b : Address) :
    (node.set (.file content) a).see? b = if b = a then some (.file content) else node.see? b := by
  induction a generalizing node b
  case nil =>
    cases node
    case file old    => cases b <;> rfl
    case link target => exact absurd rfl (he.not_link target)
    case dir entries => exact absurd rfl he.not_dir
  case cons n rest ih =>
    have hdir := hd (by simp)
    cases node
    case file old    => cases rest <;> simp [see?, get?, sight] at hdir
    case link target => cases rest <;> simp [see?, get?, sight] at hdir
    case dir entries =>
      cases hf : find? n entries
      case none =>
        cases rest
        case nil =>
          simp only [Node.set, hf]
          refine see?_dir_put (fun b => ?_) b
          cases b <;> simp [see?, get?, hf, sight]
        case cons r rest => simp [see?_dir_cons, hf] at hdir
      case some child =>
        have hchild (below : Address) : (dir entries).see? (n :: below) = child.see? below := by
          rw [see?_dir_cons, hf, Option.bind_some]
        have hends : child.Ends rest := ⟨hchild rest ▸ he.not_dir, hchild rest ▸ he.not_link⟩
        have hparent : rest ≠ [] → child.see? rest.dropLast = some .dir := fun hne => by
          rwa [List.dropLast_cons_of_ne_nil hne, hchild] at hdir
        rw [set_dir_of_find? hf]
        exact see?_dir_put (fun b => by rw [ih hends hparent, hchild]) b

end Node

namespace FileTree

variable {tree tree' : FileTree} {p : Path} {w : Address} {content : List UInt8}

theorem write_eq_ok_iff : tree.write p content = .ok tree' ↔
    p.bytes.getLast? ≠ some Path.slash ∧ ∃ w, tree.place? p = some w ∧ tree.top.see? w ≠ some .dir ∧
      tree' = tree.put w (.file content) := by
  unfold write
  by_cases hslash : p.bytes.getLast? = some Path.slash
  · cases tree.directoryOf p <;> simp [hslash, bind, Except.bind]
  · rw [if_neg hslash]
    simp only [ne_eq, hslash, not_false_eq_true, true_and, place?]
    cases hr : tree.resolve p
    case error fault => simp [bind, Except.bind, Except.toOption]
    case ok target =>
      have hin := isIn_of_resolve hr
      cases target
      case found a =>
        cases hg : tree.top.get? a
        case none => simp [Target.IsIn, Node.see?, hg] at hin
        case some node =>
          cases node <;>
            simp [bind, Except.bind, Except.toOption, Target.place, Node.see?, hg, Node.sight, eq_comm]
      case absent dir n =>
        simp [bind, Except.bind, Except.toOption, Target.place, hin.2.1, eq_comm]

theorem ends_of_place? (h : tree.place? p = some w) (hd : tree.top.see? w ≠ some .dir) : tree.top.Ends w := by
  obtain ⟨target, hr, rfl⟩ := place?_eq_some_iff.mp h
  have hin := isIn_of_resolve hr
  cases target
  case found a    => exact ⟨hd, hin.2⟩
  case absent d n => exact Node.ends_of_none hin.2.1

theorem dir_above_place? (h : tree.place? p = some w) (hne : w ≠ []) :
    tree.top.see? w.dropLast = some .dir := by
  obtain ⟨target, hr, rfl⟩ := place?_eq_some_iff.mp h
  have hin := isIn_of_resolve hr
  cases target
  case found a =>
    obtain rfl | ⟨front, n, rfl⟩ := a.eq_nil_or_concat
    · exact absurd rfl hne
    · have hsome := hin.1
      rw [Node.isSome_see?, List.concat_eq_append] at hsome
      simpa [Target.place] using Node.see?_eq_dir_iff.mpr (Node.exists_dir_of_isSome hsome)
  case absent d n => simpa [Target.place] using hin.1

theorem isName_of_place? (hp : tree.top.Proper) (h : tree.place? p = some w) :
    ∀ n ∈ w, Path.IsName n := by
  obtain ⟨target, hr, rfl⟩ := place?_eq_some_iff.mp h
  have hin := isIn_of_resolve hr
  cases target
  case found a => exact hp.names a (Node.isSome_see?.symm ▸ hin.1)
  case absent d n =>
    have hd : (tree.top.get? d).isSome := by
      rw [← Node.isSome_see?, hin.1]
      rfl
    exact List.forall_mem_append.mpr ⟨hp.names d hd, List.forall_mem_singleton.mpr hin.2.2⟩

-- Writing a file changes nothing but the place to which the path leads.
theorem exists_alikeBut_of_write (h : tree.write p content = .ok tree') :
    ∃ w, tree.place? p = some w ∧ tree'.top.see? w = some (.file content) ∧ AlikeBut (· = w) tree tree' ∧
      (tree.top.Proper → tree'.top.Proper) := by
  obtain ⟨_, w, hw, hd, rfl⟩ := write_eq_ok_iff.mp h
  have hends := ends_of_place? hw hd
  have hsee := Node.see?_set_file hends (dir_above_place? hw) content
  have hfile := (hsee w).trans (if_pos rfl)
  refine ⟨w, hw, hfile, ⟨rfl, rfl, fun a => ?sights⟩,
    fun hp => hp.set (Node.proper_file content) (isName_of_place? hp hw)⟩
  case sights =>
    by_cases ha : a = w
    · subst ha
      exact .inr ⟨rfl, hends, Node.ends_of_file hfile⟩
    · exact .inl ((hsee a).trans (if_neg ha))

-- Whether a file can be written does not depend on other files.
theorem AlikeBut.write_isOk_iff {P : Address → Prop} (h : AlikeBut P tree tree') :
    (∃ t, tree'.write p content = .ok t) ↔ ∃ t, tree.write p content = .ok t := by
  simp only [write_eq_ok_iff, h.place?_eq, ne_eq, h.sights.dir_iff]
  grind

end FileTree

end CrossRef
