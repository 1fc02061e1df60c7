import CrossRef.Proofs.FileTree

namespace CrossRef

open Text

theorem Path.slash_not_mem_of_mem_split {bytes : List UInt8} {piece : FileName}
    (h : piece ∈ split bytes) : slash ∉ piece := by
  induction bytes generalizing piece
  case nil =>
    rw [List.mem_singleton.mp h]
    simp
  case cons b rest ih =>
    have ⟨first, more, hs⟩ := List.exists_cons_of_ne_nil (split_ne_nil rest)
    rw [split] at ih h hs
    by_cases hb : b = slash <;> grind [pieces]

namespace Node

-- What is seen at an address, without a look at what is below it.
inductive Sight
  | file (content : List UInt8)
  | link (target : Path)
  | dir
  deriving DecidableEq

def sight : Node → Sight
  | .file content => .file content
  | .link target  => .link target
  | .dir _        => .dir

def see? (top : Node) (a : Address) : Option Sight := (top.get? a).map sight

section

variable {top : Node} {a : Address}

theorem see?_eq_file_iff {content : List UInt8} :
    top.see? a = some (.file content) ↔ top.get? a = some (.file content) := by
  cases h : top.get? a
  case none      => simp [see?, h]
  case some node => cases node <;> simp [see?, h, sight]

theorem see?_eq_link_iff {target : Path} :
    top.see? a = some (.link target) ↔ top.get? a = some (.link target) := by
  cases h : top.get? a
  case none      => simp [see?, h]
  case some node => cases node <;> simp [see?, h, sight]

theorem see?_eq_dir_iff : top.see? a = some .dir ↔ ∃ entries, top.get? a = some (.dir entries) := by
  cases h : top.get? a
  case none      => simp [see?, h]
  case some node => cases node <;> simp [see?, h, sight]

theorem isSome_see? : (top.see? a).isSome = (top.get? a).isSome := by
  simp [see?]

theorem get?_snoc {entries : List (FileName × Node)} (h : top.get? a = some (.dir entries)) (n : FileName) :
    top.get? (a ++ [n]) = find? n entries := by
  rw [get?_append, h, Option.bind_some, get?_dir_cons]
  cases find? n entries <;> rfl

theorem see?_dropLast (h : top.see? a = some .dir) : top.see? a.dropLast = some .dir := by
  obtain rfl | ⟨front, n, rfl⟩ := a.eq_nil_or_concat
  · exact h
  · rw [List.concat_eq_append] at h ⊢
    rw [List.dropLast_concat]
    exact see?_eq_dir_iff.mpr (exists_dir_of_isSome (by rw [← isSome_see?, h]; rfl))

-- No path goes on at the address.
structure Ends (top : Node) (a : Address) : Prop where
  not_dir  : top.see? a ≠ some .dir
  not_link : ∀ target, top.see? a ≠ some (.link target)

theorem ends_of_none (h : top.see? a = none) : top.Ends a := by
  constructor <;> simp [h]

theorem ends_of_file {content : List UInt8} (h : top.see? a = some (.file content)) : top.Ends a := by
  constructor <;> simp [h]

end

end Node

-- Where a target is, or would be.
def Target.place : Target → Address
  | .found a         => a
  | .absent dir name => dir ++ [name]

-- A target is what the tree has: something that is no link, or a name that is free in a directory.
def Target.IsIn (top : Node) : Target → Prop
  | .found a         => (top.see? a).isSome ∧ ∀ target, top.see? a ≠ some (.link target)
  | .absent dir name =>
    top.see? dir = some .dir ∧ top.see? (dir ++ [name]) = none ∧ Path.IsName name

namespace FileTree

section Locate

variable {top top' : Node}

-- How a path goes on at a link, of which it may go through `links` ones.
def onward (top : Node) : (links : Nat) → Address → List FileName → Except Fault Target
  | 0         => fun _ _ => .error .tooManyLinks
  | links + 1 => locate top links

-- How a path goes on in a directory with the name of an entry.
def enterName (top : Node) (links : Nat) (a : Address) (n : FileName) (rest : List FileName) :
    Except Fault Target :=
  match top.see? (a ++ [n]) with
  | none => if rest = [] then .ok (.absent a n) else .error .notFound
  | some (.link target) =>
    onward top links (if target.isAbsolute then [] else a) (Path.split target.bytes ++ rest)
  | some _ => locate top links (a ++ [n]) rest

theorem locate_eq_advance (links : Nat) : locate top links = advance top (onward top links) := by
  cases links <;> rfl

theorem locate_nil (links : Nat) (a : Address) : locate top links a [] = .ok (.found a) := by
  rw [locate_eq_advance, advance]

theorem locate_cons (links : Nat) (a : Address) (piece : FileName) (rest : List FileName) :
    locate top links a (piece :: rest) =
      if top.see? a = some .dir then
        if Path.isNothing piece then locate top links a rest
        else if piece = Path.dotDot then locate top links a.dropLast rest
        else if maxName < piece.length then .error .nameTooLong
        else enterName top links a piece rest
      else .error .notADirectory := by
  rw [enterName, locate_eq_advance, advance]
  cases hd : top.get? a
  case none => simp [Node.see?, hd]
  case some node =>
    cases node
    case dir entries =>
      rw [if_pos (Node.see?_eq_dir_iff.mpr ⟨entries, hd⟩), Node.see?, Node.get?_snoc hd]
      dsimp only
      cases Node.find? piece entries
      case none       => rfl
      case some child => cases child <;> rfl
    all_goals simp [Node.see?, hd, Node.sight]

-- Going along a path takes one piece at a time, or goes through a link and has fewer of them left.
theorem locate_induct {P : Nat → Address → List FileName → Prop} (nil : ∀ links a, P links a [])
    (cons : ∀ links a piece rest, (∀ b, P links b rest) →
      (∀ fewer < links, ∀ b bytes, P fewer b (Path.split bytes ++ rest)) → P links a (piece :: rest))
    (links : Nat) (a : Address) (pieces : List FileName) : P links a pieces := by
  induction links using Nat.strong_induction_on generalizing a pieces
  case h links ih =>
    induction pieces generalizing a
    case nil => exact nil links a
    case cons piece rest ihp =>
      exact cons links a piece rest ihp fun fewer hlt b bytes => ih fewer hlt b _

theorem isName_of_piece {piece : FileName} (hslash : Path.slash ∉ piece)
    (hnothing : ¬Path.isNothing piece = true) (hup : piece ≠ Path.dotDot) : Path.IsName piece where
  ne_nil := by
    rintro rfl
    exact hnothing rfl
  no_slash := hslash
  ne_dot := by
    rintro rfl
    exact hnothing rfl
  ne_dotDot := hup

theorem isIn_of_locate {links : Nat} {a : Address} {pieces : List FileName} {t : Target}
    (hs : ∀ piece ∈ pieces, Path.slash ∉ piece) (ha : pieces = [] → (Target.found a).IsIn top)
    (h : locate top links a pieces = .ok t) : t.IsIn top := by
  induction links, a, pieces using locate_induct generalizing t
  case nil links a =>
    rw [locate_nil] at h
    exact Except.ok.inj h ▸ ha rfl
  case cons links a piece rest ihr ihl =>
    have ⟨hslash, hs⟩ := List.forall_mem_cons.mp hs
    have hdir {b : Address} (hb : top.see? b = some .dir) : (Target.found b).IsIn top := by
      simp [Target.IsIn, hb]
    rw [locate_cons] at h
    split_ifs at h with hd hnothing hup hlong
    · exact ihr a hs (fun _ => hdir hd) h
    · exact ihr _ hs (fun _ => hdir (Node.see?_dropLast hd)) h
    · unfold enterName at h
      split at h
      case h_1 hnone =>
        split_ifs at h
        exact Except.ok.inj h ▸ ⟨hd, hnone, isName_of_piece hslash hnothing hup⟩
      case h_2 target hlink =>
        cases links
        case zero => simp [onward] at h
        case succ links =>
          refine ihl links (Nat.lt_succ_self _) _ target.bytes ?_ (by simp [Path.split_ne_nil]) h
          exact fun p hp => (List.mem_append.mp hp).elim Path.slash_not_mem_of_mem_split (hs p)
      case h_3 sight hnot hseen =>
        refine ihr _ hs (fun _ => ⟨by simp [hseen], fun target htarget => ?_⟩) h
        exact hnot target (Option.some.inj (hseen.symm.trans htarget))

-- At an address at which no path goes on, a path ends or fails.
theorem place_enterName_of_ends {links : Nat} {a : Address} {n : FileName} (he : top.Ends (a ++ [n]))
    (rest : List FileName) :
    (enterName top links a n rest).toOption.map Target.place =
      if rest = [] then some (a ++ [n]) else none := by
  unfold enterName
  split
  case h_1 => split <;> rfl
  case h_2 target hlink => exact absurd hlink (he.not_link target)
  case h_3 =>
    cases rest
    case nil  => simp [locate_nil, Except.toOption, Target.place]
    case cons => simp [locate_cons, he.not_dir, Except.toOption]

-- The same is seen in two trees, but for files at addresses of which `P` holds.
def SeesAlike (P : Address → Prop) (top top' : Node) : Prop :=
  ∀ a, top'.see? a = top.see? a ∨ (P a ∧ top.Ends a ∧ top'.Ends a)

theorem SeesAlike.dir_iff {P : Address → Prop} (h : SeesAlike P top top') {a : Address} :
    top'.see? a = some .dir ↔ top.see? a = some .dir := by
  obtain he | ⟨_, he, he'⟩ := h a
  · rw [he]
  · exact iff_of_false he'.not_dir he.not_dir

theorem SeesAlike.place_locate {P : Address → Prop} (h : SeesAlike P top top') (links : Nat) (a : Address)
    (pieces : List FileName) :
    (locate top' links a pieces).toOption.map Target.place =
      (locate top links a pieces).toOption.map Target.place := by
  induction links, a, pieces using locate_induct
  case nil links a => rw [locate_nil, locate_nil]
  case cons links a piece rest ihr ihl =>
    simp only [locate_cons, h.dir_iff]
    split_ifs with hd hnothing hup hlong
    · exact ihr a
    · exact ihr _
    · rfl
    · obtain he | ⟨_, he, he'⟩ := h (a ++ [piece])
      · rw [enterName, enterName, he]
        split
        · rfl
        · cases links
          case zero       => rfl
          case succ links => exact ihl links (Nat.lt_succ_self _) _ _
        · exact ihr _
      · rw [place_enterName_of_ends he, place_enterName_of_ends he']
    · rfl

end Locate

-- Where a path leads, whether something is there or not.
def place? (tree : FileTree) (p : Path) : Option Address := (tree.resolve p).toOption.map Target.place

section

variable {tree : FileTree} {p : Path} {a : Address}

theorem isIn_of_resolve {t : Target} (h : tree.resolve p = .ok t) : t.IsIn tree.top := by
  unfold resolve at h
  split_ifs at h
  exact isIn_of_locate (fun _ => Path.slash_not_mem_of_mem_split) (by simp [Path.split_ne_nil]) h

theorem place?_eq_some_iff : tree.place? p = some a ↔ ∃ t, tree.resolve p = .ok t ∧ t.place = a := by
  unfold place?
  cases tree.resolve p <;> simp [Except.toOption]

theorem address_eq_ok_iff_place? :
    tree.address p = .ok a ↔ tree.place? p = some a ∧ (tree.top.see? a).isSome := by
  rw [address_eq_ok_iff, place?_eq_some_iff]
  constructor
  · intro h
    exact ⟨⟨_, h, rfl⟩, (isIn_of_resolve h).1⟩
  · rintro ⟨⟨t, h, rfl⟩, hs⟩
    cases t
    case found a => exact h
    case absent dir name =>
      have hnone := (isIn_of_resolve h).2.1
      simp [Target.place, hnone] at hs

theorem node_eq_ok_iff_place? {node : Node} :
    tree.node p = .ok node ↔ ∃ a, tree.place? p = some a ∧ tree.top.get? a = some node := by
  simp only [node_eq_ok_iff, address_eq_ok_iff_place?, Node.isSome_see?]
  refine exists_congr fun a => ⟨fun ⟨⟨hp, _⟩, hg⟩ => ⟨hp, hg⟩, fun ⟨hp, hg⟩ => ⟨⟨hp, by simp [hg]⟩, hg⟩⟩

theorem isDir_iff_place? :
    tree.isDir p = true ↔ ∃ a, tree.place? p = some a ∧ tree.top.see? a = some .dir := by
  simp only [isDir_iff, node_eq_ok_iff_place?, Node.see?_eq_dir_iff]
  grind

theorem isFile_iff_place? : tree.isFile p = true ↔
    ∃ a content, tree.place? p = some a ∧ tree.top.see? a = some (.file content) := by
  simp only [isFile_iff, node_eq_ok_iff_place?, Node.see?_eq_file_iff]
  grind

theorem read_eq_ok_iff_place? {content : List UInt8} : tree.read p = .ok content ↔
    ∃ a, tree.place? p = some a ∧ tree.top.see? a = some (.file content) ∧ a ∉ tree.locked := by
  have hread : tree.read p = .ok content ↔
      tree.node p = .ok (.file content) ∧ ∀ a, tree.address p = .ok a → a ∉ tree.locked := by
    unfold read
    cases hn : tree.node p
    case error   => simp [bind, Except.bind]
    case ok node =>
      obtain ⟨a, ha, _⟩ := node_eq_ok_iff.mp hn
      cases node <;> by_cases hl : a ∈ tree.locked <;> simp [bind, Except.bind, ha, hl]
  rw [hread, node_eq_ok_iff_place?]
  simp only [Node.see?_eq_file_iff]
  constructor
  · rintro ⟨⟨a, hp, hg⟩, hl⟩
    exact ⟨a, hp, hg, hl a (address_eq_ok_iff_place?.mpr ⟨hp, by simp [Node.isSome_see?, hg]⟩)⟩
  · rintro ⟨a, hp, hg, hl⟩
    refine ⟨⟨a, hp, hg⟩, fun b hb => ?_⟩
    obtain rfl := Option.some.inj (hp.symm.trans (address_eq_ok_iff_place?.mp hb).1)
    exact hl

end

-- The same is seen from the same working directory, but for files at addresses of which `P` holds.
structure AlikeBut (P : Address → Prop) (tree tree' : FileTree) : Prop where
  workingDir : tree'.workingDir = tree.workingDir
  locked     : tree'.locked = tree.locked
  sights     : SeesAlike P tree.top tree'.top

namespace AlikeBut

variable {P : Address → Prop} {tree tree' tree'' : FileTree} {p : Path}

theorem refl (tree : FileTree) : AlikeBut P tree tree where
  workingDir := rfl
  locked := rfl
  sights _ := .inl rfl

theorem trans (h : AlikeBut P tree tree') (h' : AlikeBut P tree' tree'') : AlikeBut P tree tree'' where
  workingDir := h'.workingDir.trans h.workingDir
  locked := h'.locked.trans h.locked
  sights a := by
    obtain he | ⟨hP, he, he'⟩ := h.sights a <;> obtain hs | ⟨hP', hs, hs'⟩ := h'.sights a
    · exact .inl (hs.trans he)
    · exact .inr ⟨hP', ⟨he ▸ hs.not_dir, he ▸ hs.not_link⟩, hs'⟩
    · exact .inr ⟨hP, he, ⟨hs ▸ he'.not_dir, hs ▸ he'.not_link⟩⟩
    · exact .inr ⟨hP, he, hs'⟩

theorem mono {Q : Address → Prop} (h : AlikeBut P tree tree') (hpq : ∀ a, P a → Q a) :
    AlikeBut Q tree tree' where
  workingDir := h.workingDir
  locked := h.locked
  sights a := (h.sights a).imp_right fun ⟨hP, hends⟩ => ⟨hpq a hP, hends⟩

theorem symm (h : AlikeBut P tree tree') : AlikeBut P tree' tree where
  workingDir := h.workingDir.symm
  locked := h.locked.symm
  sights a := (h.sights a).imp Eq.symm fun ⟨hP, he, he'⟩ => ⟨hP, he', he⟩

-- Files on the way do not change where a path leads.
theorem place?_eq (h : AlikeBut P tree tree') (p : Path) : tree'.place? p = tree.place? p := by
  unfold place? resolve
  have ho : tree'.origin p = tree.origin p := by rw [origin, origin, h.workingDir]
  split_ifs
  · rfl
  · rfl
  · rfl
  · rw [ho, h.sights.place_locate]

theorem see?_eq (h : AlikeBut P tree tree') {a : Address} (ha : ¬P a) :
    tree'.top.see? a = tree.top.see? a :=
  (h.sights a).resolve_right fun ⟨hP, _⟩ => ha hP

theorem isDir_eq (h : AlikeBut P tree tree') (p : Path) : tree'.isDir p = tree.isDir p := by
  rw [Bool.eq_iff_iff, isDir_iff_place?, isDir_iff_place?]
  simp only [h.place?_eq, h.sights.dir_iff]

section

variable (h : AlikeBut P tree tree') (hp : ∀ a, tree.place? p = some a → ¬P a)

include h hp

theorem address_eq_ok_iff {a : Address} : tree'.address p = .ok a ↔ tree.address p = .ok a := by
  rw [address_eq_ok_iff_place?, address_eq_ok_iff_place?, h.place?_eq]
  exact and_congr_right fun hpl => by rw [h.see?_eq (hp a hpl)]

theorem isFile_eq : tree'.isFile p = tree.isFile p := by
  rw [Bool.eq_iff_iff, isFile_iff_place?, isFile_iff_place?]
  refine exists_congr fun a => exists_congr fun content => ?_
  rw [h.place?_eq]
  exact and_congr_right fun hpl => by rw [h.see?_eq (hp a hpl)]

theorem read_eq_ok_iff {content : List UInt8} :
    tree'.read p = .ok content ↔ tree.read p = .ok content := by
  rw [read_eq_ok_iff_place?, read_eq_ok_iff_place?]
  refine exists_congr fun a => ?_
  rw [h.place?_eq, h.locked]
  exact and_congr_right fun hpl => by rw [h.see?_eq (hp a hpl)]

end

end AlikeBut

end FileTree

end CrossRef
