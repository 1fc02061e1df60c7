import CrossRef.Selection
import CrossRef.Proofs.Path
import CrossRef.Proofs.Utf8

namespace CrossRef

open Text

namespace Path

theorem forward_append (a b : List Char) : forward (a ++ b) = forward a ++ forward b :=
  List.map_append

-- The pieces of a label: those of the names, with a name cut further where it has a backslash.
theorem pieces_forward_joinPieces {names : List FileName} (hne : names ≠ []) :
    pieces '/' (forward (Utf8.decodeLossy (joinPieces names))) =
      names.flatMap fun n => pieces '/' (forward (nameText n)) := by
  induction names
  case nil => contradiction
  case cons n rest ih =>
    by_cases hr : rest = []
    · simp [hr, joinPieces, nameText]
    · have hs : Char.ofNat slash.toNat = '/' := rfl
      rw [joinPieces_cons hr, Utf8.decodeLossy_append_ascii (by decide), hs, forward_append,
        List.flatMap_cons, ← ih hr]
      exact pieces_append ..

theorem slash_not_mem_nameText {n : FileName} (h : IsName n) : '/' ∉ nameText n :=
  fun hm => h.no_slash (Utf8.mem_of_mem_decodeLossy (by decide) hm)

end Path

namespace Selection

variable {selection : Selection}

theorem skipsDir_of_mem_dropLast {text : List Char} (h : selection.accepts (String.ofList text) = true)
    {dir : List Char} (hd : dir ∈ (pieces '/' text).dropLast) : selection.skipsDir dir = false := by
  rw [accepts, String.toList_ofList] at h
  split at h
  · simp at h
  · rename_i name dirs hr
    have hm : dir ∈ dirs := by
      rw [List.reverse_eq_cons_iff.mp hr, List.dropLast_concat] at hd
      exact List.mem_reverse.mp hd
    simp only [Bool.and_eq_true, Bool.not_eq_true', List.any_eq_false] at h
    have := h.1.2 dir hm
    simp_all

-- A directory that a walk does not enter is seen in the labels of all files in it.
theorem exists_mem_pieces_skipsDir (hb : ∀ dir ∈ selection.ignoredDirs, '\\' ∉ dir.toList)
    {n : FileName} (hn : Path.IsName n) (h : selection.enters n = false) :
    ∃ dir ∈ pieces '/' (Path.forward (Path.nameText n)), selection.skipsDir dir = true := by
  simp only [enters, skipsDir, Bool.not_eq_false', Bool.or_eq_true, beq_iff_eq] at h
  obtain hdot | hi := h
  · have ⟨rest, ht⟩ := List.head?_eq_some_iff.mp hdot
    have ⟨piece, more, hp⟩ := List.exists_cons_of_ne_nil (pieces_ne_nil '/' (Path.forward rest))
    refine ⟨'.' :: piece, ?_, by simp [skipsDir]⟩
    rw [Path.forward] at hp
    simp [ht, Path.forward, pieces, hp]
  · have hi' := List.contains_iff_mem.mp hi
    have hf : Path.forward (Path.nameText n) = Path.nameText n := by
      refine (List.map_congr_left fun c hc => ?_).trans (List.map_id _)
      exact if_neg fun (he : c = '\\') => hb _ hi' (by rwa [String.toList_ofList, ← he])
    rw [hf, pieces_of_not_mem (Path.slash_not_mem_nameText hn)]
    exact ⟨_, List.mem_singleton_self _, by simp [skipsDir, hi']⟩

theorem mem_dropLast_flatMap {α β : Type} {f : α → List β} (hf : ∀ a, f a ≠ []) {as : List α} {a : α}
    (ha : a ∈ as.dropLast) {b : β} (hb : b ∈ f a) : b ∈ (as.flatMap f).dropLast := by
  have hne : as ≠ [] := by
    rintro rfl
    simp at ha
  rw [← List.dropLast_append_getLast hne, List.flatMap_append, List.flatMap_singleton,
    List.dropLast_append_of_ne_nil (hf _)]
  exact List.mem_append_left _ (List.mem_flatMap.mpr ⟨a, ha, hb⟩)

-- A file that is accepted is in no directory that a walk leaves out.
theorem enters_of_accepts (hb : ∀ dir ∈ selection.ignoredDirs, '\\' ∉ dir.toList) {root : Path}
    {names : List FileName} (hne : names ≠ []) (hn : ∀ n ∈ names, Path.IsName n)
    (h : selection.accepts (Path.label root (root.descend names)) = true) :
    ∀ n ∈ names.dropLast, selection.enters n = true := by
  intro n hm
  rw [Path.label_descend root hne hn] at h
  by_contra he
  have ⟨dir, hd, hs⟩ := exists_mem_pieces_skipsDir hb (hn n (List.dropLast_subset _ hm))
    (Bool.eq_false_iff.mpr he)
  have hd' := mem_dropLast_flatMap (fun n => pieces_ne_nil '/' (Path.forward (Path.nameText n))) hm hd
  rw [← Path.pieces_forward_joinPieces hne] at hd'
  simp [skipsDir_of_mem_dropLast h hd'] at hs

end Selection

end CrossRef
