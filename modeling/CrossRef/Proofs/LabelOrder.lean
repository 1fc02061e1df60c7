import CrossRef.Proofs.Label
import Mathlib.Data.Char

namespace CrossRef

open Text

namespace Text

theorem append_lt_append_iff (front : List UInt8) {s t : List UInt8} : front ++ s < front ++ t ↔ s < t := by
  induction front
  case nil            => rfl
  case cons b rest ih => simp [ih]

theorem not_append_lt_self (front s : List UInt8) : ¬front ++ s < front := by
  have h := @append_lt_append_iff front s []
  rw [List.append_nil] at h
  exact fun hlt => List.not_lt_nil _ (h.mp hlt)

namespace Utf8

theorem ofNat_lt_ofNat {x y : Nat} (h : x < y) (hy : y < 256) : UInt8.ofNat x < UInt8.ofNat y := by
  rwa [UInt8.lt_iff_toNat_lt, toNat_ofNat (h.trans hy), toNat_ofNat hy]

-- The bytes of a lesser number are less, whatever follows them.
def Rising (bound : Nat) (bytes : Nat → List UInt8) : Prop :=
  ∀ v w, v < w → w < bound → ∀ r s, bytes v ++ r < bytes w ++ s

theorem rising_singleton {base bound : Nat} (h : bound + base ≤ 256) :
    Rising bound fun v => [UInt8.ofNat (v % bound + base)] := by
  intro v w hvw hw r s
  refine List.cons_lt_cons_iff.mpr (.inl (ofNat_lt_ofNat ?_ ?_))
  · rwa [Nat.mod_eq_of_lt (hvw.trans hw), Nat.mod_eq_of_lt hw, Nat.add_lt_add_iff_right]
  · rw [Nat.mod_eq_of_lt hw]
    omega

-- One more digit to base 64.
theorem Rising.snoc {bound : Nat} {bytes : Nat → List UInt8} (h : Rising bound bytes) :
    Rising (bound * 64) fun v => bytes (v / 64) ++ [UInt8.ofNat (v % 64 + 128)] := by
  intro v w hvw hw r s
  dsimp only
  rw [List.append_assoc, List.append_assoc]
  obtain hlt | heq := (Nat.div_le_div_right hvw.le : v / 64 ≤ w / 64).lt_or_eq
  · exact h _ _ hlt (Nat.div_lt_of_lt_mul (Nat.mul_comm .. ▸ hw)) _ _
  · rw [heq, append_lt_append_iff]
    exact List.cons_lt_cons_iff.mpr (.inl (ofNat_lt_ofNat (by omega) (by omega)))

theorem rising_two : Rising 2048 fun v => [UInt8.ofNat (v / 64 % 32 + 192), UInt8.ofNat (v % 64 + 128)] :=
  (@rising_singleton 192 32 (by decide)).snoc

theorem rising_three : Rising 65536 fun v =>
    [UInt8.ofNat (v / 4096 % 16 + 224), UInt8.ofNat (v / 64 % 64 + 128), UInt8.ofNat (v % 64 + 128)] := by
  simpa [Nat.div_div_eq_div_mul] using (@rising_singleton 224 16 (by decide)).snoc.snoc

theorem rising_four : Rising 2097152 fun v =>
    [UInt8.ofNat (v / 262144 % 8 + 240), UInt8.ofNat (v / 4096 % 64 + 128), UInt8.ofNat (v / 64 % 64 + 128),
      UInt8.ofNat (v % 64 + 128)] := by
  simpa [Nat.div_div_eq_div_mul] using (@rising_singleton 240 8 (by decide)).snoc.snoc.snoc

theorem utf8EncodeChar_append_lt {c d : Char} (h : c < d) (r s : List UInt8) :
    String.utf8EncodeChar c ++ r < String.utf8EncodeChar d ++ s := by
  have hcd : c.toNat < d.toNat := h
  rw [← Char.ofNat_toNat c, ← Char.ofNat_toNat d, utf8EncodeChar_ofNat (toNat_valid c),
    utf8EncodeChar_ofNat (toNat_valid d)]
  have hd := toNat_valid d
  generalize c.toNat = v at *
  generalize d.toNat = w at *
  -- If the lengths differ, the first bytes decide.
  have hfirst {x y : Nat} (hxy : x < y) (hy : y < 256) (xs ys : List UInt8) :
      UInt8.ofNat x :: xs < UInt8.ofNat y :: ys :=
    List.cons_lt_cons_iff.mpr (.inl (ofNat_lt_ofNat hxy hy))
  split_ifs <;> try first | omega | exact hfirst (by omega) (by omega) _ _
  · exact rising_two v w hcd (by omega) r s
  · exact rising_three v w hcd (by omega) r s
  · exact rising_four v w hcd (by omega) r s

-- The order of texts is that of their bytes.
theorem encode_lt_encode_iff {s t : String} : encode s < encode t ↔ s < t := by
  rw [encode_eq_flatMap, encode_eq_flatMap, String.lt_iff_toList_lt]
  generalize s.toList = s
  generalize t.toList = t
  induction s generalizing t
  case nil =>
    cases t
    case nil => simp
    case cons d t =>
      have ⟨b, more, hd, _⟩ := step_utf8EncodeChar d []
      simp [hd]
  case cons c s ih =>
    cases t
    case nil => simp
    case cons d t =>
      rw [List.flatMap_cons, List.flatMap_cons, List.cons_lt_cons_iff]
      obtain h | rfl | h := lt_trichotomy c d
      · exact iff_of_true (utf8EncodeChar_append_lt h _ _) (.inl h)
      · simp [append_lt_append_iff, ih]
      · refine iff_of_false (fun hlt => ?_) fun hlt => ?_
        · exact List.lt_asymm hlt (utf8EncodeChar_append_lt h _ _)
        · exact hlt.elim (lt_asymm h) fun he => absurd he.1 (ne_of_gt h)

end Utf8

end Text

namespace Path

theorem exists_append_or_append_lt {m n : FileName} (h : m < n) :
    (∃ b tail, n = m ++ b :: tail) ∨ ∀ r s, m ++ r < n ++ s := by
  induction m generalizing n
  case nil =>
    cases n
    case nil         => simp at h
    case cons b tail => exact .inl ⟨b, tail, rfl⟩
  case cons x m ih =>
    cases n
    case nil => simp at h
    case cons y n =>
      obtain hxy | ⟨rfl, hmn⟩ := List.cons_lt_cons_iff.mp h
      · exact .inr fun r s => List.cons_lt_cons_iff.mpr (.inl hxy)
      · refine (ih hmn).imp ?_ fun hlt r s => List.cons_lt_cons_iff.mpr (.inr ⟨rfl, hlt r s⟩)
        rintro ⟨b, tail, rfl⟩
        exact ⟨b, tail, rfl⟩

-- Names that stand before others in a listing and after them as text. Where they part, the others go on
-- with a byte that is less than the slash after a directory.
inductive Overtaken : List FileName → List FileName → Prop
  | here {n tail : FileName} {b : UInt8} {rest more : List FileName} :
    rest ≠ [] → b < slash → Overtaken (n :: rest) ((n ++ b :: tail) :: more)
  | deeper {n : FileName} {rest more : List FileName} :
    Overtaken rest more → Overtaken (n :: rest) (n :: more)

theorem overtaken_cons_iff {m n : FileName} {rest more : List FileName} :
    Overtaken (m :: rest) (n :: more) ↔
      (rest ≠ [] ∧ ∃ b tail, n = m ++ b :: tail ∧ b < slash) ∨ (m = n ∧ Overtaken rest more) := by
  constructor
  · rintro (⟨hr, hb⟩ | h)
    · exact .inl ⟨hr, _, _, rfl, hb⟩
    · exact .inr ⟨rfl, h⟩
  · rintro (⟨hr, b, tail, rfl, hb⟩ | ⟨rfl, h⟩)
    · exact .here hr hb
    · exact .deeper h

theorem not_overtaken_self (names : List FileName) : ¬Overtaken names names := by
  induction names
  case nil => exact fun h => nomatch h
  case cons n rest ih =>
    rw [overtaken_cons_iff]
    simpa using ih

theorem exists_joinPieces_eq_append (n : FileName) (rest : List FileName) :
    ∃ tail, joinPieces (n :: rest) = n ++ tail := by
  cases rest
  case nil  => exact ⟨[], by simp [joinPieces]⟩
  case cons => exact ⟨_, joinPieces_cons (by simp) n⟩

theorem joinPieces_lt_iff_of_lt {m n : FileName} (h : m < n) (hs : slash ∉ n) (rest more : List FileName) :
    joinPieces (n :: more) < joinPieces (m :: rest) ↔ Overtaken (m :: rest) (n :: more) := by
  have ⟨t, ht⟩ := exists_joinPieces_eq_append n more
  have hne : m ≠ n := by
    rintro rfl
    exact List.lt_irrefl _ h
  rw [overtaken_cons_iff, ht]
  obtain ⟨b, tail, rfl⟩ | hlt := exists_append_or_append_lt h
  case inl =>
    have hb : b ≠ slash := by
      rintro rfl
      simp at hs
    by_cases hr : rest = []
    · simpa [hr, joinPieces] using not_append_lt_self m (b :: (tail ++ t))
    · rw [joinPieces_cons hr, List.append_assoc, append_lt_append_iff]
      simp [List.cons_lt_cons_iff, hr, hb]
  case inr =>
    have ⟨s, hs⟩ := exists_joinPieces_eq_append m rest
    refine iff_of_false (fun hlt' => ?_) ?_
    · rw [hs] at hlt'
      exact List.lt_asymm hlt' (hlt s t)
    · rintro (⟨_, b, tail, rfl, hb⟩ | ⟨he, _⟩)
      · have hslash := hlt [slash] []
        rw [List.append_nil, append_lt_append_iff, List.cons_lt_cons_iff] at hslash
        exact hslash.elim (UInt8.lt_asymm hb) fun he => absurd (he.1 ▸ hb) (UInt8.lt_irrefl _)
      · exact hne he

-- Of two lists of names in the order of a listing, the second one is less as text exactly if it overtakes.
theorem joinPieces_lt_iff {names more : List FileName} (hs : ∀ n ∈ more, slash ∉ n)
    (h : componentsLt (names.map .name) (more.map .name) = true) :
    joinPieces more < joinPieces names ↔ Overtaken names more := by
  induction names generalizing more
  case nil => exact iff_of_false (List.not_lt_nil _) fun h => nomatch h
  case cons m rest ih =>
    cases more
    case nil => simp [componentsLt] at h
    case cons n more =>
      obtain ⟨hn, hmore⟩ := List.forall_mem_cons.mp hs
      simp only [List.map_cons, componentsLt, Component.lt, Bool.or_eq_true, decide_eq_true_eq,
        Bool.and_eq_true, beq_iff_eq, Component.name.injEq] at h
      obtain h | ⟨rfl, h⟩ := h
      · exact joinPieces_lt_iff_of_lt h hn rest more
      · have hne : more ≠ [] := by
          rintro rfl
          cases rest <;> simp [componentsLt] at h
        rw [joinPieces_cons hne, overtaken_cons_iff]
        by_cases hr : rest = []
        · have hnone : ¬Overtaken [] more := fun h => nomatch h
          simpa [hr, joinPieces, hnone] using not_append_lt_self m (slash :: joinPieces more)
        · rw [joinPieces_cons hr, append_lt_append_iff]
          simp [ih hmore h]

-- What of a path is below the root, name by name.
def namesBelow (root p : Path) : List FileName := split (below root p)

-- What of a path is below the root is text without a backslash, so that a label shows it as it is.
structure PlainBelow (root p : Path) : Prop where
  text         : Utf8.IsText (below root p)
  no_backslash : 0x5c ∉ below root p

theorem forward_of_not_mem {s : List Char} (h : '\\' ∉ s) : forward s = s := by
  refine (List.map_congr_left fun c hc => ?_).trans (List.map_id s)
  have hne : c ≠ '\\' := by
    rintro rfl
    exact h hc
  simp [hne]

section Descend

variable {root : Path} {names more : List FileName} (hne : names ≠ []) (hn : ∀ n ∈ names, IsName n)

include hne hn

theorem encode_label_descend (h : PlainBelow root (root.descend names)) :
    Utf8.encode (label root (root.descend names)) = joinPieces names := by
  have hplain : '\\' ∉ textBelow root (root.descend names) := fun hm =>
    h.no_backslash (Utf8.mem_of_mem_decodeLossy (by decide) hm)
  rw [label_descend_eq_forward hne hn, forward_of_not_mem hplain, textBelow, h.text.encode_decodeLossy,
    below_descend hne hn]

theorem namesBelow_descend : namesBelow root (root.descend names) = names := by
  rw [namesBelow, below_descend hne hn, split_joinPieces hne hn]

theorem label_lt_label_iff (hne' : more ≠ []) (hn' : ∀ n ∈ more, IsName n)
    (hp : PlainBelow root (root.descend names)) (hq : PlainBelow root (root.descend more))
    (h : (root.descend names).lt (root.descend more) = true) :
    label root (root.descend more) < label root (root.descend names) ↔
      Overtaken (namesBelow root (root.descend names)) (namesBelow root (root.descend more)) := by
  rw [lt, components_descend root hn, components_descend root hn', componentsLt_append] at h
  rw [← Utf8.encode_lt_encode_iff, encode_label_descend hne hn hp, encode_label_descend hne' hn' hq,
    namesBelow_descend hne hn, namesBelow_descend hne' hn']
  exact joinPieces_lt_iff (fun n hm => (hn' n hm).no_slash) h

end Descend

end Path

end CrossRef
