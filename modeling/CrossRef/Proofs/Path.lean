import CrossRef.Path
import Mathlib.Data.List.Lex

namespace CrossRef

open Text

namespace Path

-- A name that a directory entry can have. As a piece of a path it leads to this entry.
structure IsName (n : FileName) : Prop where
  ne_nil    : n ≠ []
  no_slash  : slash ∉ n
  ne_dot    : n ≠ dot
  ne_dotDot : n ≠ dotDot

instance (n : FileName) : Decidable (IsName n) :=
  decidable_of_iff (n ≠ [] ∧ slash ∉ n ∧ n ≠ dot ∧ n ≠ dotDot)
    ⟨fun ⟨h₁, h₂, h₃, h₄⟩ => ⟨h₁, h₂, h₃, h₄⟩, fun ⟨h₁, h₂, h₃, h₄⟩ => ⟨h₁, h₂, h₃, h₄⟩⟩

theorem IsName.isNothing {n : FileName} (h : IsName n) : isNothing n = false := by
  simp [Path.isNothing, h.ne_nil, h.ne_dot]

theorem IsName.split {n : FileName} (h : IsName n) : split n = [n] :=
  pieces_of_not_mem h.no_slash

theorem split_append (a b : List UInt8) : split (a ++ slash :: b) = split a ++ split b :=
  pieces_append slash a b

theorem split_ne_nil (a : List UInt8) : split a ≠ [] := pieces_ne_nil slash a

theorem joinPieces_cons {pieces : List FileName} (h : pieces ≠ []) (piece : FileName) :
    joinPieces (piece :: pieces) = piece ++ slash :: joinPieces pieces := by
  cases pieces
  case nil  => contradiction
  case cons => rfl

theorem joinPieces_append {a b : List FileName} (ha : a ≠ []) (hb : b ≠ []) :
    joinPieces (a ++ b) = joinPieces a ++ slash :: joinPieces b := by
  induction a
  case nil => contradiction
  case cons piece more ih =>
    by_cases hm : more = []
    · simp [hm, joinPieces_cons hb, joinPieces]
    · rw [List.cons_append, joinPieces_cons (by simp [hm]), joinPieces_cons hm, ih hm]
      simp

theorem joinPieces_prefix_append (a b : List FileName) : joinPieces a <+: joinPieces (a ++ b) := by
  by_cases ha : a = []
  case pos => simp [ha, joinPieces]
  case neg =>
    by_cases hb : b = []
    case pos => simp [hb]
    case neg => exact joinPieces_append ha hb ▸ List.prefix_append ..

theorem mem_joinPieces {x : UInt8} {names : List FileName} (h : x ∈ joinPieces names) :
    x = slash ∨ ∃ n ∈ names, x ∈ n := by
  induction names
  case nil => simp [joinPieces] at h
  case cons n rest ih =>
    by_cases hr : rest = []
    case pos =>
      subst hr
      exact .inr ⟨n, List.mem_singleton_self n, h⟩
    case neg =>
      rw [joinPieces_cons hr] at h
      grind

theorem joinPieces_split (bytes : List UInt8) : joinPieces (split bytes) = bytes := by
  induction bytes
  case nil => rfl
  case cons b rest ih =>
    have ⟨piece, more, h⟩ := List.exists_cons_of_ne_nil (split_ne_nil rest)
    rw [split] at ih h
    by_cases hb : b = slash
    · simp [split, pieces, hb, joinPieces_cons (pieces_ne_nil slash rest), ih]
    · rw [h] at ih
      cases more <;> simp_all [split, pieces, joinPieces]

theorem split_joinPieces {names : List FileName} (hne : names ≠ []) (h : ∀ n ∈ names, IsName n) :
    split (joinPieces names) = names := by
  induction names
  case nil => contradiction
  case cons n rest ih =>
    have ⟨hn, hr⟩ := List.forall_mem_cons.mp h
    by_cases hm : rest = []
    · simp [hm, joinPieces, hn.split]
    · rw [joinPieces_cons hm, split_append, ih hm hr, hn.split, List.singleton_append]

theorem joinPieces_ne_nil {names : List FileName} (hne : names ≠ []) (h : ∀ n ∈ names, IsName n) :
    joinPieces names ≠ [] := by
  intro hj
  have hs := split_joinPieces hne h
  rw [hj] at hs
  exact (h [] (hs ▸ List.mem_singleton_self _)).ne_nil rfl

theorem getLast?_joinPieces_ne {names : List FileName} (h : ∀ n ∈ names, IsName n) :
    (joinPieces names).getLast? ≠ some slash := by
  induction names
  case nil => simp [joinPieces]
  case cons n rest ih =>
    have ⟨hn, hr⟩ := List.forall_mem_cons.mp h
    by_cases hm : rest = []
    · simpa [hm, joinPieces] using fun hs => hn.no_slash (List.mem_of_getLast? hs)
    · have ⟨b, bs, hb⟩ := List.exists_cons_of_ne_nil (joinPieces_ne_nil hm hr)
      have := ih hr
      rw [joinPieces_cons hm, hb] at *
      simpa [List.getLast?_append] using this

theorem head?_joinPieces_ne {names : List FileName} (h : ∀ n ∈ names, IsName n) :
    (joinPieces names).head? ≠ some slash := by
  cases names
  case nil => simp [joinPieces]
  case cons n rest =>
    have hn := h n (List.mem_cons_self ..)
    have ⟨b, bs, hb⟩ := List.exists_cons_of_ne_nil hn.ne_nil
    have hs : b ≠ slash := fun hs => hn.no_slash (by simp [hb, hs])
    cases rest <;> simp [joinPieces, hb, hs]

-- The components of the pieces after the start of a path.
def componentsOf (pieces : List FileName) : List Component :=
  (pieces.filter (!isNothing ·)).map componentOf

theorem components_eq (p : Path) : p.components = p.start.1.toList ++ componentsOf (split p.start.2) :=
  rfl

theorem same_iff {p q : Path} : p.same q = true ↔ p.components = q.components := by
  simp [same]

theorem map_name_injective : Function.Injective (List.map Component.name) :=
  List.map_injective_iff.mpr fun _ _ => Component.name.inj

theorem componentsOf_append (a b : List FileName) :
    componentsOf (a ++ b) = componentsOf a ++ componentsOf b := by
  simp [componentsOf]

theorem componentsOf_names {names : List FileName} (h : ∀ n ∈ names, IsName n) :
    componentsOf names = names.map .name := by
  rw [componentsOf, List.filter_eq_self.mpr fun n hn => by simp [(h n hn).isNothing]]
  exact List.map_congr_left fun n hn => by simp [componentOf, (h n hn).ne_dotDot]

theorem start_append_slash {bytes : List UInt8} (h : bytes ≠ []) (tail : List UInt8) :
    start ⟨bytes ++ slash :: tail⟩ = ((start ⟨bytes⟩).1, (start ⟨bytes⟩).2 ++ slash :: tail) := by
  have hhead : (split (bytes ++ slash :: tail)).head? = (split bytes).head? := by
    rw [split_append, List.head?_append_of_ne_nil _ (split_ne_nil bytes)]
  have ⟨b, rest, hb⟩ := List.exists_cons_of_ne_nil h
  subst hb
  simp only [List.cons_append] at hhead
  simp only [start, List.cons_append, hhead]
  split
  · rfl
  · split <;> rfl

theorem components_append_slash {bytes : List UInt8} (h : bytes ≠ []) (tail : List UInt8) :
    components ⟨bytes ++ slash :: tail⟩ = components ⟨bytes⟩ ++ componentsOf (split tail) := by
  rw [components_eq, components_eq, start_append_slash h, split_append, componentsOf_append,
    List.append_assoc]

theorem components_slash (tail : List UInt8) :
    components ⟨slash :: tail⟩ = .root :: componentsOf (split tail) := by
  simp [components_eq, start]

theorem start_joinPieces {names : List FileName} (h : ∀ n ∈ names, IsName n) :
    start ⟨joinPieces names⟩ = (none, joinPieces names) := by
  cases hj : joinPieces names
  case nil => rfl
  case cons b rest =>
    have hne : names ≠ [] := by
      rintro rfl
      simp [joinPieces] at hj
    have hs := split_joinPieces hne h
    have ⟨n, more, hn⟩ := List.exists_cons_of_ne_nil hne
    have hd : (split (b :: rest)).head? ≠ some dot := by
      rw [← hj, hs, hn]
      simpa using (h n (by simp [hn])).ne_dot
    have hb : b ≠ slash := by
      have := head?_joinPieces_ne h
      simpa [hj] using this
    simp only [start, if_neg hb, if_neg hd]

-- The components of some names, also if there are none of them.
theorem componentsOf_split_joinPieces {names : List FileName} (h : ∀ n ∈ names, IsName n) :
    componentsOf (split (joinPieces names)) = names.map .name := by
  by_cases hne : names = []
  · subst hne
    rfl
  · rw [split_joinPieces hne h, componentsOf_names h]

theorem components_joinPieces {names : List FileName} (h : ∀ n ∈ names, IsName n) :
    components ⟨joinPieces names⟩ = names.map .name := by
  rw [components_eq, start_joinPieces h, componentsOf_split_joinPieces h]
  rfl

theorem components_ofNames {names : List FileName} (h : ∀ n ∈ names, IsName n) :
    (ofNames names).components = .root :: names.map .name := by
  rw [ofNames, components_slash, componentsOf_split_joinPieces h]

theorem isAbove_iff {p q : Path} : p.isAbove q = true ↔ ∃ more, q.components = p.components ++ more := by
  rw [isAbove, List.isPrefixOf_iff_prefix]
  exact ⟨fun ⟨more, h⟩ => ⟨more, h.symm⟩, fun ⟨more, h⟩ => ⟨more, h.symm⟩⟩

theorem isAbove_ofNames_iff {a b : List FileName} (ha : ∀ n ∈ a, IsName n) (hb : ∀ n ∈ b, IsName n) :
    (ofNames a).isAbove (ofNames b) = true ↔ a <+: b := by
  rw [isAbove_iff, components_ofNames ha, components_ofNames hb]
  constructor
  · rintro ⟨more, h⟩
    have ⟨front, rest, he, hfront, _⟩ := List.map_eq_append_iff.mp (List.cons.inj h).2
    exact ⟨rest, by rw [he, map_name_injective hfront]⟩
  · rintro ⟨rest, rfl⟩
    exact ⟨rest.map .name, by simp⟩

-- What stands in front of a relative path that is seen from `p`.
def stem (p : Path) : List UInt8 :=
  if p.bytes = [] ∨ p.bytes.getLast? = some slash then p.bytes else p.bytes ++ [slash]

theorem join_eq_stem (p : Path) {q : Path} (h : q.isAbsolute = false) :
    p.join q = ⟨p.stem ++ q.bytes⟩ := by
  simp only [join, h, stem, Bool.false_eq_true, if_false]
  split <;> simp

theorem join_joinPieces (p : Path) {names : List FileName} (h : ∀ n ∈ names, IsName n) :
    p.join ⟨joinPieces names⟩ = ⟨p.stem ++ joinPieces names⟩ :=
  p.join_eq_stem <| by simpa [isAbsolute] using head?_joinPieces_ne h

-- A slash at the end of a path is no component of its own.
theorem stem_cases (p : Path) :
    (p.bytes = [] ∧ p.stem = []) ∨ (p.bytes = [slash] ∧ p.stem = [slash]) ∨
      ∃ front ≠ [], p.stem = front ++ [slash] ∧ components ⟨front⟩ = p.components := by
  have ⟨bytes⟩ := p
  simp only [stem]
  by_cases hb : bytes = []
  · simp [hb]
  · by_cases hl : bytes.getLast? = some slash
    · obtain ⟨front, rfl⟩ := List.getLast?_eq_some_iff.mp hl
      by_cases hf : front = []
      · simp [hf]
      · refine .inr <| .inr ⟨front, hf, by simp, ?_⟩
        exact (components_append_slash hf []).symm ▸ (List.append_nil _).symm
    · exact .inr <| .inr ⟨bytes, hb, by simp [hb, hl], rfl⟩

theorem components_join (p : Path) {names : List FileName} (h : ∀ n ∈ names, IsName n) :
    (p.join ⟨joinPieces names⟩).components = p.components ++ names.map .name := by
  rw [join_joinPieces p h]
  obtain ⟨hb, hs⟩ | ⟨hb, hs⟩ | ⟨front, hf, hs, hc⟩ := p.stem_cases
  · have hp : p = ⟨[]⟩ := by rw [← hb]
    rw [hs, hp, List.nil_append, components_joinPieces h]
    rfl
  · have hp : p = ⟨[slash]⟩ := by rw [← hb]
    rw [hs, hp, List.singleton_append, components_slash, components_slash,
      componentsOf_split_joinPieces h]
    rfl
  · rw [hs, List.append_assoc, List.singleton_append, components_append_slash hf, hc,
      componentsOf_split_joinPieces h]

-- The path on which names lead on from `p`.
def descend (p : Path) (names : List FileName) : Path := names.foldl child p

theorem descend_cons (p : Path) (n : FileName) (names : List FileName) :
    p.descend (n :: names) = (p.child n).descend names := rfl

theorem components_child (p : Path) {n : FileName} (h : IsName n) :
    (p.child n).components = p.components ++ [.name n] :=
  p.components_join (List.forall_mem_singleton.mpr h)

theorem components_descend (p : Path) {names : List FileName} (h : ∀ n ∈ names, IsName n) :
    (p.descend names).components = p.components ++ names.map .name := by
  induction names generalizing p
  case nil => simp [descend]
  case cons n rest ih =>
    have ⟨hn, hr⟩ := List.forall_mem_cons.mp h
    rw [descend_cons, ih (p.child n) hr, p.components_child hn]
    simp

theorem descend_eq_join (p : Path) {names : List FileName} (hne : names ≠ [])
    (h : ∀ n ∈ names, IsName n) : p.descend names = p.join ⟨joinPieces names⟩ := by
  induction names generalizing p
  case nil => contradiction
  case cons n rest ih =>
    have ⟨hn, hr⟩ := List.forall_mem_cons.mp h
    by_cases hm : rest = []
    · simp [hm, descend, joinPieces, child]
    · have hc : p.child n = ⟨p.stem ++ n⟩ := p.join_joinPieces (List.forall_mem_singleton.mpr hn)
      have hl : n.getLast? ≠ some slash := getLast?_joinPieces_ne (List.forall_mem_singleton.mpr hn)
      have ⟨b, bs, hb⟩ := List.exists_cons_of_ne_nil hn.ne_nil
      rw [descend_cons, ih (p.child n) hm hr, join_joinPieces _ hr, join_joinPieces _ h, hc,
        joinPieces_cons hm, stem, if_neg]
      · simp
      · simp_all [List.getLast?_append]

theorem stem_ofNames {names : List FileName} (hne : names ≠ []) (h : ∀ n ∈ names, IsName n) :
    (ofNames names).stem = (ofNames names).bytes ++ [slash] := by
  have hl := getLast?_joinPieces_ne h
  have ⟨b, bs, hb⟩ := List.exists_cons_of_ne_nil (joinPieces_ne_nil hne h)
  simp_all [stem, ofNames, List.getLast?_cons_cons]

theorem join_ofNames {names more : List FileName} (h : ∀ n ∈ names, IsName n) (hne : more ≠ [])
    (hm : ∀ n ∈ more, IsName n) : (ofNames names).join ⟨joinPieces more⟩ = ofNames (names ++ more) := by
  rw [join_joinPieces _ hm]
  by_cases hn : names = []
  · simp [hn, ofNames, stem, joinPieces]
  · rw [stem_ofNames hn h]
    simp [ofNames, joinPieces_append hn hne]

theorem descend_ofNames {names more : List FileName} (h : ∀ n ∈ names, IsName n)
    (hm : ∀ n ∈ more, IsName n) : (ofNames names).descend more = ofNames (names ++ more) := by
  by_cases hne : more = []
  · simp [hne, descend]
  · rw [descend_eq_join _ hne hm, join_ofNames h hne hm]

-- A relative path to something below a directory, in the one way in which it is written without detours.
theorem length_ofNames_le (a b : List FileName) :
    (ofNames a).bytes.length ≤ (ofNames (a ++ b)).bytes.length :=
  Nat.succ_le_succ (joinPieces_prefix_append a b).length_le

def IsNormal (p : Path) : Prop := ∀ n ∈ split p.bytes, IsName n

theorem eq_joinPieces (p : Path) : p = ⟨joinPieces (split p.bytes)⟩ := by
  rw [joinPieces_split]

namespace IsNormal

variable {p q : Path}

theorem components (h : p.IsNormal) : p.components = (split p.bytes).map .name := by
  have hj := components_joinPieces h
  rwa [← p.eq_joinPieces] at hj

theorem components_join (h : p.IsNormal) (above : Path) :
    (above.join p).components = above.components ++ (split p.bytes).map .name := by
  have hj := above.components_join h
  rwa [← p.eq_joinPieces] at hj

theorem join_ofNames (h : p.IsNormal) {names : List FileName} (hn : ∀ n ∈ names, IsName n) :
    (ofNames names).join p = ofNames (names ++ split p.bytes) := by
  have hj := Path.join_ofNames hn (split_ne_nil p.bytes) h
  rwa [← p.eq_joinPieces] at hj

theorem eq_of_same_join (hp : p.IsNormal) (hq : q.IsNormal) {above : Path}
    (h : (above.join p).same (above.join q) = true) : p = q := by
  rw [same_iff, hp.components_join, hq.components_join, List.append_cancel_left_eq] at h
  rw [p.eq_joinPieces, q.eq_joinPieces, map_name_injective h]

end IsNormal

theorem trimEnd_names {names : List FileName} (h : ∀ n ∈ names, IsName n) : trimEnd names = names := by
  cases hr : names.reverse
  case nil => simp_all [trimEnd]
  case cons n rest =>
    have hn := h n (List.mem_reverse.mp (hr ▸ List.mem_cons_self ..))
    rw [trimEnd, hr, List.dropWhile_cons, hn.isNothing, ← hr]
    simp

-- Leaving out the components of some pieces leaves out the pieces, up to what is no component.
theorem dropWhile_dropComponents (a b : List FileName) :
    (dropComponents (componentsOf a).length (a ++ b)).dropWhile isNothing = b.dropWhile isNothing := by
  induction a
  case nil => simp [componentsOf, dropComponents]
  case cons piece rest ih =>
    cases hp : isNothing piece
    case false => simpa [componentsOf, dropComponents, hp] using ih
    case true =>
      have hc : componentsOf (piece :: rest) = componentsOf rest := by simp [componentsOf, hp]
      rw [hc]
      cases hl : (componentsOf rest).length
      case zero => simpa [dropComponents, hp, hl] using ih
      case succ => simpa [dropComponents, hp, hl] using ih

theorem componentsOf_split_ne_nil {bytes : List UInt8} (h : bytes ≠ [])
    (hs : (start ⟨bytes⟩).1 = none) : componentsOf (split (start ⟨bytes⟩).2) ≠ [] := by
  have ⟨b, rest, hb⟩ := List.exists_cons_of_ne_nil h
  have ⟨piece, more, hp⟩ := List.exists_cons_of_ne_nil (split_ne_nil rest)
  rw [split] at hp
  simp only [hb, start] at hs ⊢
  split at hs
  · simp at hs
  · rename_i hslash
    split at hs
    · simp at hs
    · rename_i hdot
      simp_all [split, pieces, componentsOf, isNothing]

theorem after_start {p : Path} {m : Nat} (h : p.start.1 = none → 0 < m) :
    p.after (p.start.1.toList.length + m) =
      ⟨joinPieces (trimEnd ((dropComponents m (split p.start.2)).dropWhile isNothing))⟩ := by
  cases hs : p.start.1
  case none =>
    have ⟨k, hk⟩ := Nat.exists_eq_succ_of_ne_zero (h hs).ne'
    simp [after, hs, hk]
  case some => simp [after, hs, Nat.add_comm 1]

theorem after_join (p : Path) {names : List FileName} (hne : names ≠ [])
    (h : ∀ n ∈ names, IsName n) :
    (p.join ⟨joinPieces names⟩).after p.components.length = ⟨joinPieces names⟩ := by
  have hd : names.dropWhile isNothing = names := by
    have ⟨n, rest, hn⟩ := List.exists_cons_of_ne_nil hne
    rw [hn, List.dropWhile_cons, (h n (by simp [hn])).isNothing]
    simp
  rw [join_joinPieces p h]
  obtain ⟨hb, hs⟩ | ⟨hb, hs⟩ | ⟨front, hf, hs, hc⟩ := p.stem_cases
  · have hp : p.components = [] := by rw [show p = ⟨[]⟩ from by rw [← hb]]; rfl
    simp [hp, hs, after, startBytes, start_joinPieces h, split_joinPieces hne h, trimEnd_names h]
  · have hp : p.components = [.root] := by rw [show p = ⟨[slash]⟩ from by rw [← hb]]; rfl
    simp [hp, hs, after, start, dropComponents, split_joinPieces hne h, hd, trimEnd_names h]
  · have hq := start_append_slash hf (joinPieces names)
    have hl : p.components.length =
        (start ⟨front ++ slash :: joinPieces names⟩).1.toList.length +
          (componentsOf (split (start ⟨front⟩).2)).length := by
      rw [← hc, components_eq, hq, List.length_append]
    rw [hs, List.append_assoc, List.singleton_append, hl, after_start, hq, split_append,
      split_joinPieces hne h, dropWhile_dropComponents, hd, trimEnd_names h]
    intro hnone
    rw [hq] at hnone
    exact List.length_pos_iff.mpr (componentsOf_split_ne_nil hf hnone)

-- Text with forward slashes only.
def forward (text : List Char) : List Char := text.map fun c => if c = '\\' then '/' else c

theorem label_descend (root : Path) {names : List FileName} (hne : names ≠ [])
    (h : ∀ n ∈ names, IsName n) :
    label root (root.descend names) =
      String.ofList (forward (Utf8.decodeLossy (joinPieces names))) := by
  have hc := components_descend root h
  have hsame : (root.descend names).same root = false := by
    simp [same, hc, hne]
  have habove : root.isAbove (root.descend names) = true := by
    simp [isAbove, hc]
  simp only [label, hsame, habove, Bool.false_eq_true, if_true, if_false]
  rw [descend_eq_join root hne h, after_join root hne h]
  rfl

-- Components as lists of numbers, whose lexicographic order is theirs.
def Component.key : Component → List Nat
  | .name n => 3 :: n.map UInt8.toNat
  | c => [c.rank]

theorem lt_iff_map_toNat_lt {a b : FileName} : a < b ↔ a.map UInt8.toNat < b.map UInt8.toNat := by
  induction a generalizing b
  case nil => cases b <;> simp
  case cons x xs ih =>
    cases b
    case nil => simp
    case cons y ys =>
      simp only [List.map_cons, List.cons_lt_cons_iff, ih, UInt8.lt_iff_toNat_lt, UInt8.toNat_inj]

theorem Component.lt_iff_key_lt {a b : Component} : a.lt b = true ↔ a.key < b.key := by
  cases a <;> cases b <;>
    simp [Component.lt, key, rank, List.cons_lt_cons_iff, lt_iff_map_toNat_lt]

theorem Component.key_injective : Function.Injective Component.key := by
  intro a b h
  have hn : Function.Injective UInt8.toNat := fun x y hxy => UInt8.toNat_inj.mp hxy
  cases a <;> cases b <;> simp_all [key, rank, hn.list_map.eq_iff]

-- Paths as lists, whose lexicographic order is theirs.
def rank (p : Path) : List (List Nat) := p.components.map Component.key

theorem componentsLt_iff {as bs : List Component} :
    componentsLt as bs = true ↔ as.map Component.key < bs.map Component.key := by
  induction as generalizing bs
  case nil => cases bs <;> simp [componentsLt]
  case cons a as ih =>
    cases bs
    case nil => simp [componentsLt]
    case cons b bs =>
      simp [componentsLt, List.cons_lt_cons_iff, ih, Component.lt_iff_key_lt,
        Component.key_injective.eq_iff]

theorem lt_iff_rank_lt {p q : Path} : p.lt q = true ↔ p.rank < q.rank := componentsLt_iff

theorem le_iff_rank_le {p q : Path} : p.le q = true ↔ p.rank ≤ q.rank := by
  rw [le, Bool.not_eq_true', Bool.eq_false_iff, ne_eq, lt_iff_rank_lt, not_lt]

theorem same_iff_rank_eq {p q : Path} : p.same q = true ↔ p.rank = q.rank := by
  rw [same_iff, rank, rank, Component.key_injective.list_map.eq_iff]

theorem pairwise_rank_mergeSort (ps : List Path) :
    (ps.mergeSort le).Pairwise fun p q => p.rank ≤ q.rank := by
  have h := @List.pairwise_mergeSort _ le
    (fun a b c hab hbc => le_iff_rank_le.mpr <| (le_iff_rank_le.mp hab).trans (le_iff_rank_le.mp hbc))
    (fun a b => by simpa [le_iff_rank_le] using le_total a.rank b.rank) ps
  exact h.imp le_iff_rank_le.mp

theorem ne_of_lt {p q : Path} (h : p.lt q = true) : p ≠ q := by
  rintro rfl
  exact lt_irrefl _ (lt_iff_rank_lt.mp h)

-- Two strictly ordered lists of the same paths are the same list.
theorem eq_of_pairwise_lt {ps qs : List Path} (hp : ps.Pairwise (·.lt ·)) (hq : qs.Pairwise (·.lt ·))
    (h : ∀ p, p ∈ ps ↔ p ∈ qs) : ps = qs := by
  have hperm := (List.perm_ext_iff_of_nodup (hp.imp ne_of_lt) (hq.imp ne_of_lt)).mpr h
  exact hperm.eq_of_pairwise (fun p q _ _ hpq hqp =>
    absurd (lt_iff_rank_lt.mp hpq) (lt_asymm (lt_iff_rank_lt.mp hqp))) hp hq

end Path

end CrossRef
