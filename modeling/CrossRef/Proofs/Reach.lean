import CrossRef.Proofs.Place
import CrossRef.Proofs.Walk

namespace CrossRef

namespace Node

mutual

-- The addresses of all directories in a tree.
def dirAddresses : Node → List Address
  | file _ | link _ => []
  | dir entries     => [] :: dirAddressesIn entries

def dirAddressesIn : List (FileName × Node) → List Address
  | []                => []
  | (n, node) :: rest => node.dirAddresses.map (n :: ·) ++ dirAddressesIn rest

end

theorem length_dirAddresses (node : Node) : node.dirAddresses.length = node.directories := by
  induction node using Node.induct
  case file => rfl
  case link => rfl
  case dir entries ih =>
    have hin : (dirAddressesIn entries).length = directoriesIn entries := by
      induction entries
      case nil => rfl
      case cons e rest ihr =>
        have hfirst := ih e.1 e.2 (List.mem_cons_self ..)
        have hrest := ihr fun n child hm => ih n child (List.mem_cons_of_mem _ hm)
        simp [dirAddressesIn, directoriesIn, hfirst, hrest]
    simp [dirAddresses, directories, hin, Nat.add_comm]

theorem mem_dirAddressesIn {entries : List (FileName × Node)} {n : FileName} {child : Node} {a : Address}
    (hm : (n, child) ∈ entries) (ha : a ∈ child.dirAddresses) : n :: a ∈ dirAddressesIn entries := by
  induction entries
  case nil => simp at hm
  case cons e rest ih =>
    rw [dirAddressesIn]
    obtain rfl | hm := List.mem_cons.mp hm
    · exact List.mem_append_left _ (List.mem_map_of_mem ha)
    · exact List.mem_append_right _ (ih hm)

theorem mem_dirAddresses {node : Node} {a : Address} (h : node.see? a = some .dir) :
    a ∈ node.dirAddresses := by
  induction a generalizing node
  case nil =>
    have ⟨entries, he⟩ := see?_eq_dir_iff.mp h
    obtain rfl : node = .dir entries := Option.some.inj he
    exact List.mem_cons_self ..
  case cons n rest ih =>
    cases node
    case dir entries =>
      have ⟨child, hf, hc⟩ := Option.bind_eq_some_iff.mp (see?_eq_dir_iff.mp h).choose_spec
      have hchild : child.see? rest = some .dir := see?_eq_dir_iff.mpr ⟨_, hc⟩
      exact List.mem_cons_of_mem _ (mem_dirAddressesIn (mem_of_find?_eq_some hf) (ih hchild))
    all_goals simp [see?, get?] at h

end Node

namespace FileTree

-- The names along which a walk gets from a stop to a file, if it leaves out no directory.
inductive Leads (tree : FileTree) : Stop → List FileName → Prop
  | file {stop n content} :
    tree.top.see? (stop.address ++ [n]) = some (.file content) → Leads tree stop [n]
  | linkToFile {stop n target a content} :
    tree.top.see? (stop.address ++ [n]) = some (.link target) →
    tree.address (stop.path.child n) = .ok a → tree.top.see? a = some (.file content) →
    Leads tree stop [n]
  | dir {stop n rest} :
    tree.top.see? (stop.address ++ [n]) = some .dir →
    tree.address (stop.path.child n) = .ok (stop.address ++ [n]) →
    Leads tree (stop.below n) rest → Leads tree stop (n :: rest)
  | linkToDir {stop n target a rest} :
    tree.top.see? (stop.address ++ [n]) = some (.link target) →
    tree.address (stop.path.child n) = .ok a → tree.top.see? a = some .dir → a ∉ stop.trail →
    Leads tree ⟨stop.path.child n, a, a :: stop.trail⟩ rest → Leads tree stop (n :: rest)

-- A walk from a stop finds a file in directories that it may enter.
def Finds (tree : FileTree) (enter : FileName → Bool) (stop : Stop) (p : Path) : Prop :=
  ∃ names, tree.Leads stop names ∧ (∀ n ∈ names.dropLast, enter n = true) ∧ p = stop.path.descend names

-- The same for what is at or below one entry.
def FindsAt (tree : FileTree) (enter : FileName → Bool) (stop : Stop) (n : FileName) (p : Path) : Prop :=
  ∃ rest, tree.Leads stop (n :: rest) ∧ (∀ m ∈ (n :: rest).dropLast, enter m = true) ∧
    p = stop.path.descend (n :: rest)

variable {tree : FileTree} {enter : FileName → Bool} {follow : Stop → FileName → List Path} {stop : Stop}
variable {n : FileName} {p : Path}

theorem Leads.ne_nil {names : List FileName} (h : tree.Leads stop names) : names ≠ [] := by
  cases h <;> simp

theorem Leads.isSome {rest : List FileName} (h : tree.Leads stop (n :: rest)) :
    (tree.top.see? (stop.address ++ [n])).isSome := by
  cases h <;> simp [*]

theorem isName_of_see? (hp : tree.top.Proper) {a : Address} {sight : Node.Sight}
    (h : tree.top.see? (a ++ [n]) = some sight) : Path.IsName n :=
  hp.names _ (Node.isSome_see?.symm ▸ Option.isSome_of_eq_some h) n (by simp)

theorem Leads.isName (hp : tree.top.Proper) {names : List FileName} (h : tree.Leads stop names) :
    ∀ n ∈ names, Path.IsName n := by
  induction h
  case file hf           => exact List.forall_mem_singleton.mpr (isName_of_see? hp hf)
  case linkToFile hl _ _ => exact List.forall_mem_singleton.mpr (isName_of_see? hp hl)
  case dir hd _ _ ih     => exact List.forall_mem_cons.mpr ⟨isName_of_see? hp hd, ih⟩
  case linkToDir hl _ _ _ _ ih =>
    exact List.forall_mem_cons.mpr ⟨isName_of_see? hp hl, ih⟩

theorem finds_iff : tree.Finds enter stop p ↔ ∃ n, tree.FindsAt enter stop n p := by
  constructor
  · rintro ⟨names, hl, h⟩
    have ⟨n, rest, hn⟩ := List.exists_cons_of_ne_nil hl.ne_nil
    subst hn
    exact ⟨n, rest, hl, h⟩
  · rintro ⟨n, rest, h⟩
    exact ⟨n :: rest, h⟩

theorem opens_iff : tree.opens stop = true ↔ tree.address stop.path = .ok stop.address := by
  unfold opens
  cases tree.address stop.path <;> simp [Except.toOption]

theorem findsAt_file_iff {content : List UInt8}
    (h : tree.top.see? (stop.address ++ [n]) = some (.file content)) :
    tree.FindsAt enter stop n p ↔ p = stop.path.child n := by
  constructor
  · rintro ⟨rest, hl, _, rfl⟩
    cases hl <;> simp_all [Path.descend]
  · rintro rfl
    exact ⟨[], .file h, by simp, rfl⟩

theorem findsAt_dir_iff (h : tree.top.see? (stop.address ++ [n]) = some .dir) :
    tree.FindsAt enter stop n p ↔
      enter n = true ∧ tree.opens (stop.below n) = true ∧ tree.Finds enter (stop.below n) p := by
  rw [opens_iff]
  constructor
  · rintro ⟨rest, hl, hent, rfl⟩
    cases hl
    case dir ho hl =>
      rw [List.dropLast_cons_of_ne_nil hl.ne_nil, List.forall_mem_cons] at hent
      exact ⟨hent.1, ho, rest, hl, hent.2, rfl⟩
    all_goals simp_all
  · rintro ⟨hent, ho, rest, hl, hent', rfl⟩
    refine ⟨rest, .dir h ho hl, ?_, rfl⟩
    rw [List.dropLast_cons_of_ne_nil hl.ne_nil, List.forall_mem_cons]
    exact ⟨hent, hent'⟩

theorem findsAt_link_iff {target : Path} (h : tree.top.see? (stop.address ++ [n]) = some (.link target)) :
    tree.FindsAt enter stop n p ↔ ∃ a, tree.address (stop.path.child n) = .ok a ∧
      ((∃ content, tree.top.see? a = some (.file content)) ∧ p = stop.path.child n ∨
        tree.top.see? a = some .dir ∧ a ∉ stop.trail ∧ enter n = true ∧
          tree.Finds enter ⟨stop.path.child n, a, a :: stop.trail⟩ p) := by
  constructor
  · rintro ⟨rest, hl, hent, rfl⟩
    cases hl
    case linkToFile a content hf _ ha => exact ⟨a, ha, .inl ⟨⟨content, hf⟩, rfl⟩⟩
    case linkToDir a hd hloop _ ha hl =>
      rw [List.dropLast_cons_of_ne_nil hl.ne_nil, List.forall_mem_cons] at hent
      exact ⟨a, ha, .inr ⟨hd, hloop, hent.1, rest, hl, hent.2, rfl⟩⟩
    all_goals simp_all
  · rintro ⟨a, ha, ⟨⟨content, hf⟩, rfl⟩ | ⟨hd, hloop, hent, rest, hl, hent', rfl⟩⟩
    · exact ⟨[], .linkToFile h ha hf, by simp, rfl⟩
    · refine ⟨rest, .linkToDir h ha hd hloop hl, ?_, rfl⟩
      rw [List.dropLast_cons_of_ne_nil hl.ne_nil, List.forall_mem_cons]
      exact ⟨hent, hent'⟩

theorem mem_filesIn_iff {entries : List (FileName × Node)} (hd : tree.top.get? stop.address = some (.dir entries))
    (hp : (Node.dir entries).Proper)
    (h : ∀ n child, (n, child) ∈ entries →
      (p ∈ tree.filesAt enter follow stop n child ↔ tree.FindsAt enter stop n p)) :
    p ∈ inNameOrder (tree.filesIn enter follow stop entries) ↔ tree.Finds enter stop p := by
  simp only [mem_inNameOrder, filesIn_eq_map, List.mem_map, Prod.mk.injEq, Prod.exists]
  rw [finds_iff]
  constructor
  · rintro ⟨_, _, ⟨n, child, hm, rfl, rfl⟩, hf⟩
    exact ⟨n, (h n child hm).mp hf⟩
  · rintro ⟨n, hf⟩
    have hs := hf.choose_spec.1.isSome
    rw [Node.isSome_see?, Node.get?_snoc hd] at hs
    have ⟨child, hc⟩ := Option.isSome_iff_exists.mp hs
    have hm := (Node.find?_eq_some_iff hp.nodup_entries).mp hc
    exact ⟨n, _, ⟨n, child, hm, rfl, rfl⟩, (h n child hm).mpr hf⟩

-- The number of directories that a walk could still go to by a link is at most `links`.
def Room (tree : FileTree) (links : Nat) (stop : Stop) : Prop :=
  (tree.top.dirAddresses.filter (!stop.trail.contains ·)).length ≤ links

theorem Room.below {links : Nat} (h : tree.Room links stop) (n : FileName) :
    tree.Room links (stop.below n) := by
  refine Nat.le_trans (List.Sublist.length_le ?_) h
  exact List.monotone_filter_right _ fun a ha => by simp_all [Stop.below]

theorem Room.afterLink {links : Nat} (h : tree.Room links stop) {a : Address}
    (hd : tree.top.see? a = some .dir) (ha : a ∉ stop.trail) (p : Path) :
    ∃ fewer, links = fewer + 1 ∧ tree.Room fewer ⟨p, a, a :: stop.trail⟩ := by
  have hlt : (tree.top.dirAddresses.filter (!(a :: stop.trail).contains ·)).length <
      (tree.top.dirAddresses.filter (!stop.trail.contains ·)).length := by
    have hsub : tree.top.dirAddresses.filter (!(a :: stop.trail).contains ·) =
        (tree.top.dirAddresses.filter (!stop.trail.contains ·)).filter (· ≠ a) := by
      rw [List.filter_filter]
      congr 1
      funext b
      simp
    rw [hsub, List.length_filter_lt_length_iff_exists]
    exact ⟨a, List.mem_filter.mpr ⟨Node.mem_dirAddresses hd, by simpa using ha⟩, by simp⟩
  have ⟨fewer, hf⟩ := Nat.exists_eq_succ_of_ne_zero (Nat.ne_zero_of_lt (Nat.lt_of_lt_of_le hlt h))
  exact ⟨fewer, hf, Nat.lt_succ_iff.mp (hf ▸ Nat.lt_of_lt_of_le hlt h)⟩

theorem mem_filesAt_iff {links : Nat} (hp : tree.top.Proper)
    (hf : ∀ stop n target, tree.Room links stop →
      tree.top.see? (stop.address ++ [n]) = some (.link target) →
      (p ∈ follow stop n ↔ tree.FindsAt enter stop n p))
    {node : Node} (hroom : tree.Room links stop) (h : tree.top.get? (stop.address ++ [n]) = some node) :
    p ∈ tree.filesAt enter follow stop n node ↔ tree.FindsAt enter stop n p := by
  induction node using Node.induct generalizing stop n
  case file content => rw [filesAt, List.mem_singleton, findsAt_file_iff (Node.see?_eq_file_iff.mpr h)]
  case link target  => rw [filesAt, hf stop n target hroom (Node.see?_eq_link_iff.mpr h)]
  case dir entries ih =>
    have hdir : (Node.dir entries).Proper := hp.of_get? h
    have hin := @mem_filesIn_iff tree enter follow (stop.below n) p entries h hdir fun m child hm =>
      ih m child hm (hroom.below n) ((Node.get?_snoc h m).trans <|
        (Node.find?_eq_some_iff hdir.nodup_entries).mpr hm)
    rw [filesAt, findsAt_dir_iff (Node.see?_eq_dir_iff.mpr ⟨entries, h⟩), ← hin]
    split <;> simp_all

theorem mem_throughLink_iff {target : Path} {walk : Stop → List (FileName × Node) → List Path}
    (h : tree.top.see? (stop.address ++ [n]) = some (.link target))
    (hw : ∀ a entries, tree.top.get? a = some (.dir entries) → a ∉ stop.trail →
      (p ∈ walk ⟨stop.path.child n, a, a :: stop.trail⟩ entries ↔
        tree.Finds enter ⟨stop.path.child n, a, a :: stop.trail⟩ p)) :
    p ∈ tree.throughLink enter walk stop n ↔ tree.FindsAt enter stop n p := by
  rw [findsAt_link_iff h, throughLink]
  cases ha : tree.address (stop.path.child n)
  case error fault => simp
  case ok a =>
    simp only [Except.ok.injEq, exists_eq_left']
    cases hg : tree.top.get? a
    case none => simp [Node.see?, hg]
    case some node =>
      cases node
      case file content => simp [Node.see?, hg, Node.sight]
      case link target  => simp [Node.see?, hg, Node.sight]
      case dir entries =>
        have hwa := hw a entries hg
        simp only [Node.see?, hg, Option.map_some, Node.sight]
        split_ifs <;> simp_all

theorem mem_filesIn_throughLink_iff (hp : tree.top.Proper) {links : Nat}
    {walk : Stop → List (FileName × Node) → List Path} {entries : List (FileName × Node)}
    (hw : ∀ last q a entries, tree.Room links last → tree.top.get? a = some (.dir entries) →
      a ∉ last.trail → (p ∈ walk ⟨q, a, a :: last.trail⟩ entries ↔
        tree.Finds enter ⟨q, a, a :: last.trail⟩ p))
    (hroom : tree.Room links stop) (hd : tree.top.get? stop.address = some (.dir entries)) :
    p ∈ inNameOrder (tree.filesIn enter (tree.throughLink enter walk) stop entries) ↔
      tree.Finds enter stop p := by
  refine mem_filesIn_iff hd (hp.of_get? hd) fun n child hm => ?_
  have hchild := (Node.get?_snoc hd n).trans ((Node.find?_eq_some_iff (hp.of_get? hd).nodup_entries).mpr hm)
  refine mem_filesAt_iff hp (fun stop n target hroom hlink => ?_) hroom hchild
  exact mem_throughLink_iff hlink fun a entries ha hloop => hw stop _ a entries hroom ha hloop

-- Below a directory, a walk finds the files to which names lead through directories that it may enter. The
-- number of links that it may still follow never cuts it short.
theorem mem_filesBelow_iff (hp : tree.top.Proper) {links : Nat} {entries : List (FileName × Node)}
    (hroom : tree.Room links stop) (hd : tree.top.get? stop.address = some (.dir entries)) :
    p ∈ tree.filesBelow enter links stop entries ↔ tree.Finds enter stop p := by
  induction links generalizing stop entries
  case zero =>
    refine mem_filesIn_throughLink_iff hp (fun last q a _ hroom ha hloop => ?_) hroom hd
    have ⟨_, hlinks, _⟩ := hroom.afterLink (Node.see?_eq_dir_iff.mpr ⟨_, ha⟩) hloop q
    simp at hlinks
  case succ links ih =>
    refine mem_filesIn_throughLink_iff hp (fun last q a _ hroom ha hloop => ?_) hroom hd
    have ⟨fewer, hlinks, hroom⟩ := hroom.afterLink (Node.see?_eq_dir_iff.mpr ⟨_, ha⟩) hloop q
    exact ih (Nat.succ.inj hlinks ▸ hroom) ha

-- The files at and below a path: itself, or those that a walk finds in the directory to which it leads.
theorem mem_files_iff_finds (hp : tree.top.Proper) {root : Path} :
    p ∈ tree.files enter root ↔ ∃ a, tree.address root = .ok a ∧
      ((∃ content, tree.top.see? a = some (.file content)) ∧ p = root ∨
        tree.top.see? a = some .dir ∧ tree.Finds enter ⟨root, a, [a]⟩ p) := by
  unfold files
  cases tree.address root
  case error fault => simp
  case ok a =>
    simp only [Except.ok.injEq, exists_eq_left']
    cases hg : tree.top.get? a
    case none => simp [Node.see?, hg]
    case some node =>
      cases node
      case file content => simp [Node.see?, hg, Node.sight]
      case link target  => simp [Node.see?, hg, Node.sight]
      case dir entries =>
        have hroom : tree.Room tree.top.directories ⟨root, a, [a]⟩ :=
          Nat.le_trans (List.length_filter_le ..) (Nat.le_of_eq (Node.length_dirAddresses _))
        simpa [Node.see?, hg, Node.sight] using mem_filesBelow_iff hp hroom hg

theorem address_ofNames_iff (wf : tree.WellFormed) {a : Address} (hne : a ≠ [])
    (hs : (tree.top.get? a).isSome) (hl : tree.top.LinkFree a) :
    tree.address (Path.ofNames a) = .ok a ↔ (Path.ofNames a).bytes.length ≤ maxPath := by
  rw [address_eq_ok_iff, resolve_ofNames_eq_found_iff hne (wf.proper.names a hs) hl, ← wf.fits_iff hs]
  simp [hs]

-- Where no links are, a walk comes to the files whose directories have paths that are not too long.
theorem leads_iff_of_no_links (wf : tree.WellFormed) {entries : List (FileName × Node)}
    (hs : stop.path = Path.ofNames stop.address) (hd : tree.top.get? stop.address = some (.dir entries))
    (hlen : (Path.ofNames stop.address).bytes.length ≤ maxPath)
    (hl : ∀ below target, tree.top.get? (stop.address ++ below) ≠ some (.link target))
    {names : List FileName} :
    tree.Leads stop names ↔ (∃ content, tree.top.get? (stop.address ++ names) = some (.file content)) ∧
      (Path.ofNames (stop.address ++ names.dropLast)).bytes.length ≤ maxPath := by
  induction names generalizing stop entries
  case nil => simpa [hd] using fun h => Leads.ne_nil h rfl
  case cons n rest ih =>
    have hname {node : Node} (hg : tree.top.get? (stop.address ++ [n]) = some node) :
        (stop.below n).path = Path.ofNames (stop.below n).address := by
      have hn := wf.proper.names _ (Option.isSome_of_eq_some hg)
      rw [Stop.below, hs]
      exact Path.descend_ofNames (fun m hm => hn m (List.mem_append_left _ hm))
        fun m hm => hn m (List.mem_append_right _ hm)
    have hopens {inner : List (FileName × Node)}
        (hg : tree.top.get? (stop.address ++ [n]) = some (.dir inner)) :
        tree.address (stop.below n).path = .ok (stop.below n).address ↔
          (Path.ofNames (stop.below n).address).bytes.length ≤ maxPath := by
      rw [hname hg]
      exact address_ofNames_iff wf (by simp [Stop.below]) (Option.isSome_of_eq_some hg)
        (Node.linkFree_append hd hl [n])
    have hbelow {inner : List (FileName × Node)}
        (hg : tree.top.get? (stop.address ++ [n]) = some (.dir inner))
        (hlen : (Path.ofNames (stop.below n).address).bytes.length ≤ maxPath) :=
      @ih (stop.below n) inner (hname hg) hg hlen fun below target => by
        simpa [Stop.below] using hl (n :: below) target
    have happ (more : List FileName) : stop.address ++ n :: more = (stop.below n).address ++ more := by
      simp [Stop.below]
    constructor
    · intro h
      cases h
      case file content hf =>
        exact ⟨⟨content, Node.see?_eq_file_iff.mp hf⟩, by simpa using hlen⟩
      case linkToFile hlink _  => exact absurd (Node.see?_eq_link_iff.mp hlink) (hl [n] _)
      case linkToDir hlink _ _ => exact absurd (Node.see?_eq_link_iff.mp hlink) (hl [n] _)
      case dir hsee ho hlead =>
        have ⟨inner, hg⟩ := Node.see?_eq_dir_iff.mp hsee
        rw [List.dropLast_cons_of_ne_nil hlead.ne_nil, happ, happ]
        exact (hbelow hg ((hopens hg).mp ho)).mp hlead
    · rintro ⟨⟨content, hf⟩, hfits⟩
      rw [happ] at hf
      have ⟨node, hg, hrest⟩ := Option.bind_eq_some_iff.mp ((Node.get?_append ..).symm.trans hf)
      change tree.top.get? (stop.address ++ [n]) = some node at hg
      cases node
      case link target  => exact absurd hg (hl [n] target)
      case file content =>
        cases rest
        case nil => exact .file (Node.see?_eq_file_iff.mpr hg)
        case cons => simp [Node.get?] at hrest
      case dir inner =>
        have hne : rest ≠ [] := by
          rintro rfl
          simp [Node.get?] at hrest
        rw [List.dropLast_cons_of_ne_nil hne, happ] at hfits
        have hlen := Nat.le_trans (Path.length_ofNames_le _ _) hfits
        exact .dir (Node.see?_eq_dir_iff.mpr ⟨inner, hg⟩) ((hopens hg).mpr hlen)
          ((hbelow hg hlen).mpr ⟨⟨_, hf⟩, hfits⟩)

-- Where no links are below a directory, a walk finds the files that stand below it.
theorem mem_files_iff (wf : tree.WellFormed) {a : Address} {entries : List (FileName × Node)}
    (ha : tree.address (Path.ofNames a) = .ok a) (hd : tree.top.get? a = some (.dir entries))
    (hl : ∀ below target, tree.top.get? (a ++ below) ≠ some (.link target)) :
    p ∈ tree.files enter (Path.ofNames a) ↔
      ∃ names content, tree.top.get? (a ++ names) = some (.file content) ∧
        (∀ n ∈ names.dropLast, enter n = true) ∧
        (Path.ofNames (a ++ names.dropLast)).bytes.length ≤ maxPath ∧ p = (Path.ofNames a).descend names := by
  have hleads (names : List FileName) := @leads_iff_of_no_links tree ⟨Path.ofNames a, a, [a]⟩ wf entries rfl
    hd (length_le_of_address ha) hl names
  simp only [mem_files_iff_finds wf.proper, ha, Except.ok.injEq, exists_eq_left', Node.see?, hd, Finds,
    hleads]
  grind [Node.sight]

theorem place_of_locate {top : Node} {links : Nat} {a : Address} {pieces : List FileName} {t : Target}
    (hn : ∀ piece ∈ pieces, Path.isNothing piece = true ∨ Path.IsName piece)
    (hl : top.LinkFree (a ++ pieces.filter (!Path.isNothing ·)))
    (h : locate top links a pieces = .ok t) : t.place = a ++ pieces.filter (!Path.isNothing ·) := by
  induction pieces generalizing a
  case nil =>
    rw [locate_nil] at h
    simp [← Except.ok.inj h, Target.place]
  case cons piece rest ih =>
    obtain ⟨hnothing | hname, hrest⟩ := List.forall_mem_cons.mp hn <;> rw [locate_cons] at h
    · rw [List.filter_cons_of_neg (by simp [hnothing])] at hl ⊢
      split_ifs at h
      exact ih hrest hl h
    · have hnext (more : List FileName) : a ++ piece :: more = a ++ [piece] ++ more := by simp
      rw [List.filter_cons_of_pos (by simp [hname.isNothing]), hnext] at hl ⊢
      simp only [hname.isNothing, Bool.false_eq_true, if_false, if_neg hname.ne_dotDot] at h
      split_ifs at h
      unfold enterName at h
      split at h
      case h_1 hnone =>
        split_ifs at h with hr
        simp [← Except.ok.inj h, Target.place, hr]
      case h_2 target hlink => exact absurd (Node.see?_eq_link_iff.mp hlink) (hl _ (List.prefix_append ..) target)
      case h_3              => exact ih hrest hl h

-- Without links, a path leads to the place that it names.
theorem eq_of_place?_ofNames {names : List FileName} (hn : ∀ n ∈ names, Path.IsName n)
    (hl : tree.top.LinkFree names) {b : Address} (h : tree.place? (Path.ofNames names) = some b) :
    b = names := by
  have hsplit : Path.split (Path.ofNames names).bytes = [] :: Path.split (Path.joinPieces names) :=
    Path.split_append [] _
  have hpieces : Path.split (Path.joinPieces names) = names ∨ names = [] := by
    by_cases hne : names = []
    · exact .inr hne
    · exact .inl (Path.split_joinPieces hne hn)
  have hnames : (Path.split (Path.ofNames names).bytes).filter (!Path.isNothing ·) = names := by
    rw [hsplit, List.filter_cons_of_neg (by decide)]
    obtain hs | rfl := hpieces
    · rw [hs, List.filter_eq_self.mpr fun n hm => by simp [(hn n hm).isNothing]]
    · rfl
  obtain ⟨t, hr, rfl⟩ := place?_eq_some_iff.mp h
  unfold resolve at hr
  split_ifs at hr
  refine (place_of_locate ?_ (hnames.symm ▸ hl) hr).trans hnames
  rw [hsplit]
  refine List.forall_mem_cons.mpr ⟨.inl rfl, ?_⟩
  obtain hs | rfl := hpieces
  · exact fun n hm => .inr (hn n (hs ▸ hm))
  · exact fun n hm => .inl (List.mem_singleton.mp hm ▸ rfl)

-- No path at or below another one leads to an address of which `P` holds, or into the directory of one.
def OutOfReach (tree : FileTree) (P : Address → Prop) (root : Path) : Prop :=
  ∀ names, (∀ n ∈ names, Path.IsName n) → ∀ a, tree.place? (root.descend names) = some a →
    ¬P a ∧ ∀ n, ¬P (a ++ [n])

namespace OutOfReach

variable {P : Address → Prop} {root : Path}

theorem child (h : tree.OutOfReach P root) (hn : Path.IsName n) : tree.OutOfReach P (root.child n) :=
  fun names hnames => h (n :: names) (List.forall_mem_cons.mpr ⟨hn, hnames⟩)

theorem not_at (h : tree.OutOfReach P root) {a : Address} (ha : tree.place? root = some a) : ¬P a :=
  (h [] (by simp) a ha).1

theorem not_in (h : tree.OutOfReach P root) {a : Address} (ha : tree.place? root = some a) (n : FileName) :
    ¬P (a ++ [n]) :=
  (h [] (by simp) a ha).2 n

end OutOfReach

-- From a directory without links below it, all is out of reach that is not below it.
theorem outOfReach_of_no_links {P : Address → Prop} {a : Address} (hp : tree.top.Proper)
    (hd : tree.top.see? a = some .dir)
    (hl : ∀ below target, tree.top.get? (a ++ below) ≠ some (.link target))
    (hP : ∀ below, ¬P (a ++ below)) : tree.OutOfReach P (Path.ofNames a) := by
  intro names hn b hb
  have ⟨entries, hget⟩ := Node.see?_eq_dir_iff.mp hd
  have ha := hp.names a (by simp [hget])
  rw [Path.descend_ofNames ha hn] at hb
  obtain rfl := eq_of_place?_ofNames (List.forall_mem_append.mpr ⟨ha, hn⟩) (Node.linkFree_append hget hl names) hb
  exact ⟨hP names, fun n => List.append_assoc a names [n] ▸ hP _⟩

namespace AlikeBut

variable {P : Address → Prop} {tree' : FileTree} {root : Path} (h : AlikeBut P tree tree')

include h

theorem outOfReach (hout : tree.OutOfReach P root) : tree'.OutOfReach P root :=
  fun names hn a ha => hout names hn a (h.place?_eq _ ▸ ha)

theorem leads (hp : tree.top.Proper) {names : List FileName} (hs : tree.place? stop.path = some stop.address)
    (hout : tree.OutOfReach P stop.path) (hl : tree.Leads stop names) : tree'.Leads stop names := by
  induction hl
  case file hf =>
    exact .file ((h.see?_eq (hout.not_in hs _)).trans hf)
  case linkToFile hlink ha hf =>
    have hchild := hout.child (isName_of_see? hp hlink)
    have hplace := (address_eq_ok_iff_place?.mp ha).1
    refine .linkToFile ((h.see?_eq (hout.not_in hs _)).trans hlink) ?_
      ((h.see?_eq (hchild.not_at hplace)).trans hf)
    exact (h.address_eq_ok_iff fun a => hchild.not_at).mpr ha
  case dir hd ho _ ih =>
    have hchild := hout.child (isName_of_see? hp hd)
    refine .dir ((h.see?_eq (hout.not_in hs _)).trans hd) ?_
      (ih (address_eq_ok_iff_place?.mp ho).1 hchild)
    exact (h.address_eq_ok_iff fun a => hchild.not_at).mpr ho
  case linkToDir hlink ha hd hloop _ ih =>
    have hchild := hout.child (isName_of_see? hp hlink)
    have hplace := (address_eq_ok_iff_place?.mp ha).1
    refine .linkToDir ((h.see?_eq (hout.not_in hs _)).trans hlink) ?_
      ((h.see?_eq (hchild.not_at hplace)).trans hd) hloop (ih hplace hchild)
    exact (h.address_eq_ok_iff fun a => hchild.not_at).mpr ha

-- A walk sees nothing of a change out of its reach.
theorem files_eq (hp : tree.top.Proper) (hp' : tree'.top.Proper) (hout : tree.OutOfReach P root) :
    tree'.files enter root = tree.files enter root := by
  refine Path.eq_of_pairwise_lt (lists_files hp' root).sorted (lists_files hp root).sorted fun p => ?_
  rw [mem_files_iff_finds hp, mem_files_iff_finds hp']
  refine exists_congr fun a => ?_
  rw [h.address_eq_ok_iff fun a => hout.not_at]
  refine and_congr_right fun ha => ?_
  have hplace := (address_eq_ok_iff_place?.mp ha).1
  have hfinds : tree'.Finds enter ⟨root, a, [a]⟩ p ↔ tree.Finds enter ⟨root, a, [a]⟩ p :=
    exists_congr fun names => and_congr_left fun _ =>
      ⟨h.symm.leads hp' ((h.place?_eq root).trans hplace) (h.outOfReach hout), h.leads hp hplace hout⟩
  rw [h.see?_eq (hout.not_at hplace), hfinds]

end AlikeBut

end FileTree

end CrossRef
