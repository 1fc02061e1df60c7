import CrossRef.Proofs.Audit
import CrossRef.Proofs.Reach
import CrossRef.Proofs.Selection

namespace CrossRef

open Text

namespace Text.Utf8

theorem isText_of_replacement_not_mem {bytes : List UInt8} (h : '\uFFFD' ∉ decodeLossy bytes) :
    IsText bytes := by
  have hread : read bytes = (decodeLossy bytes).map some := by
    rw [decodeLossy, List.map_map]
    refine (List.map_id _).symm.trans (List.map_congr_left fun c? hc => ?_)
    cases c?
    case none   => exact absurd (List.mem_map_of_mem hc) h
    case some c => rfl
  exact ⟨_, decode?_eq_some_iff.mp (decode?_eq_some_iff_read.mpr hread)⟩

theorem IsText.eq_of_decodeLossy_eq {a b : List UInt8} (ha : IsText a) (hb : IsText b)
    (h : decodeLossy a = decodeLossy b) : a = b := by
  rw [← ha.encode_decodeLossy, h, hb.encode_decodeLossy]

end Text.Utf8

theorem file_of_mem_occurrencesIn {checker : Checker} {allow : Allowlist} {tree : FileTree}
    {root p : Path} {o : Occurrence} (h : o ∈ checker.occurrencesIn allow tree root [p]) :
    o.location.file = Path.label root p := by
  have ⟨q, hq, _, _, h⟩ := exists_mem_extract_of_mem_occurrencesIn h
  rw [file_of_mem_extract h, List.mem_singleton.mp hq]

namespace Path

-- What of a path is below the root.
def below (root p : Path) : List UInt8 := (p.after root.components.length).bytes

-- The same as text, in which a replacement stands for what cannot be read.
def textBelow (root p : Path) : List Char := Utf8.decodeLossy (below root p)

-- Below the root, two paths differ, but only in that one has a backslash where the other has a slash.
structure SlashAlike (root p q : Path) : Prop where
  differ : textBelow root p ≠ textBelow root q
  alike  : List.Forall₂ (fun c d => c = d ∨ (c = '\\' ∧ d = '/') ∨ (c = '/' ∧ d = '\\'))
    (textBelow root p) (textBelow root q)

-- Below the root, two paths are the same as far as they can be read, and one of them cannot be read
-- completely.
structure ReadAlike (root p q : Path) : Prop where
  text     : textBelow root p = textBelow root q
  replaced : '\uFFFD' ∈ textBelow root p
  unread   : ¬Utf8.IsText (below root p) ∨ ¬Utf8.IsText (below root q)

variable {root p q : Path}

theorem forward_eq_forward_iff {s t : List Char} :
    forward s = forward t ↔
      List.Forall₂ (fun c d => c = d ∨ (c = '\\' ∧ d = '/') ∨ (c = '/' ∧ d = '\\')) s t := by
  have hchar (c d : Char) : (if c = '\\' then '/' else c) = (if d = '\\' then '/' else d) ↔
      c = d ∨ (c = '\\' ∧ d = '/') ∨ (c = '/' ∧ d = '\\') := by
    split <;> split <;> grind
  rw [forward, forward, ← List.forall₂_eq_eq_eq, List.forall₂_map_left_iff, List.forall₂_map_right_iff]
  simp only [hchar]

theorem readAlike_of_textBelow_eq (h : textBelow root p = textBelow root q)
    (hne : below root p ≠ below root q) : ReadAlike root p q := by
  have hnot : ¬(Utf8.IsText (below root p) ∧ Utf8.IsText (below root q)) :=
    fun ⟨hp, hq⟩ => hne (hp.eq_of_decodeLossy_eq hq h)
  refine ⟨h, ?_, not_and_or.mp hnot⟩
  by_contra hr
  have hr' : '\uFFFD' ∉ textBelow root q := h ▸ hr
  exact hnot ⟨Utf8.isText_of_replacement_not_mem hr, Utf8.isText_of_replacement_not_mem hr'⟩

section Descend

variable {names more : List FileName} (hne : names ≠ []) (hn : ∀ n ∈ names, IsName n)

include hne hn

theorem below_descend : below root (root.descend names) = joinPieces names := by
  rw [below, descend_eq_join root hne hn, after_join root hne hn]

theorem label_descend_eq_forward :
    label root (root.descend names) =
      String.ofList (forward (textBelow root (root.descend names))) := by
  rw [textBelow, below_descend hne hn, label_descend root hne hn]

theorem descend_eq_of_below_eq (hne' : more ≠ []) (hn' : ∀ n ∈ more, IsName n)
    (h : below root (root.descend names) = below root (root.descend more)) :
    root.descend names = root.descend more := by
  rw [below_descend hne hn, below_descend hne' hn'] at h
  rw [← split_joinPieces hne hn, h, split_joinPieces hne' hn']

end Descend

end Path

namespace Selection

-- Files that a walk finds have different labels, up to two exceptions. A label shows a backslash as a
-- slash, and it shows a replacement for what it cannot read. What is found in a file names the file by its
-- label.
theorem walk_label_eq_iff (selection : Selection) {tree : FileTree} (hp : tree.top.Proper) (root : Path) :
    (∀ (checker : Checker) (allow : Allowlist) (p : Path),
      ∀ o ∈ checker.occurrencesIn allow tree root [p], o.location.file = Path.label root p) ∧
    ∀ p ∈ selection.walk tree root, ∀ q ∈ selection.walk tree root, p ≠ q →
      (Path.label root p = Path.label root q ↔ Path.SlashAlike root p q ∨ Path.ReadAlike root p q) := by
  refine ⟨fun _ _ _ _ => file_of_mem_occurrencesIn, ?_⟩
  intro p hmp q hmq hne
  have hmp := List.mem_of_mem_filter hmp
  have hmq := List.mem_of_mem_filter hmq
  obtain hself | hbelow := FileTree.files_eq_self_or_below hp root
  · rw [hself, List.mem_singleton] at hmp hmq
    exact absurd (hmp.trans hmq.symm) hne
  · obtain ⟨ns, hns, hn, rfl⟩ := hbelow p hmp
    obtain ⟨ms, hms, hm, rfl⟩ := hbelow q hmq
    rw [Path.label_descend_eq_forward hns hn, Path.label_descend_eq_forward hms hm, String.ofList_inj]
    constructor
    · intro hforward
      by_cases htext : Path.textBelow root (root.descend ns) = Path.textBelow root (root.descend ms)
      · refine .inr (Path.readAlike_of_textBelow_eq htext fun hb => hne ?_)
        exact Path.descend_eq_of_below_eq hns hn hms hm hb
      · exact .inl ⟨htext, Path.forward_eq_forward_iff.mp hforward⟩
    · rintro (hslash | hread)
      · exact Path.forward_eq_forward_iff.mpr hslash.alike
      · rw [hread.text]

-- `a\b.t` and the file `b.t` in the directory `a` have one label, and so have two files with names that
-- cannot be read.
def aliasTree : FileTree where
  top := .dir [([0x61, 0x5c, 0x62, 0x2e, 0x74], .file []), ([0x61], .dir [([0x62, 0x2e, 0x74], .file [])]),
    ([0xfe, 0x2e, 0x74], .file []), ([0xff, 0x2e, 0x74], .file [])]

def aliasSelection : Selection where
  extensions := ["t"]
  ignoredDirs := []
  excluded := []

def aliasPaths : List Path :=
  [⟨[0x2f, 0x61, 0x5c, 0x62, 0x2e, 0x74]⟩, ⟨[0x2f, 0x61, 0x2f, 0x62, 0x2e, 0x74]⟩,
    ⟨[0x2f, 0xfe, 0x2e, 0x74]⟩, ⟨[0x2f, 0xff, 0x2e, 0x74]⟩]

theorem aliasTree_wellFormed : aliasTree.WellFormed := .of_addresses (by decide +kernel)

theorem mem_walk_aliasTree {names : List FileName} (hf : aliasTree.top.get? names = some (.file []))
    (hs : ∀ n ∈ names.dropLast, aliasSelection.enters n = true)
    (hlen : (Path.ofNames names.dropLast).bytes.length ≤ FileTree.maxPath)
    (ha : aliasSelection.accepts (Path.label ⟨[0x2f]⟩ (Path.descend ⟨[0x2f]⟩ names)) = true) :
    Path.descend ⟨[0x2f]⟩ names ∈ aliasSelection.walk aliasTree ⟨[0x2f]⟩ := by
  have hlinks (below : Address) := @Node.ne_link_of_addresses aliasTree.top (by decide +kernel) below
  have hfiles := @FileTree.mem_files_iff aliasTree aliasSelection.enters (Path.descend ⟨[0x2f]⟩ names)
    aliasTree_wellFormed [] _ rfl rfl hlinks
  exact List.mem_filter.mpr ⟨hfiles.mpr ⟨names, [], hf, hs, hlen, rfl⟩, ha⟩

theorem mem_walk_of_mem_aliasPaths : ∀ p ∈ aliasPaths, p ∈ aliasSelection.walk aliasTree ⟨[0x2f]⟩ := by
  simp only [aliasPaths, List.forall_mem_cons]
  refine ⟨?_, ?_, ?_, ?_, by simp⟩
  · exact @mem_walk_aliasTree [[0x61, 0x5c, 0x62, 0x2e, 0x74]] rfl (by simp) (by decide) (by decide +kernel)
  · exact @mem_walk_aliasTree [[0x61], [0x62, 0x2e, 0x74]] rfl (by decide +kernel) (by decide) (by decide +kernel)
  · exact @mem_walk_aliasTree [[0xfe, 0x2e, 0x74]] rfl (by simp) (by decide) (by decide +kernel)
  · exact @mem_walk_aliasTree [[0xff, 0x2e, 0x74]] rfl (by simp) (by decide) (by decide +kernel)

theorem walk_label_eq_iff_aliasTree : ∃ p ∈ aliasSelection.walk aliasTree ⟨[0x2f]⟩,
    ∃ q ∈ aliasSelection.walk aliasTree ⟨[0x2f]⟩, p ≠ q ∧
      ¬Path.SlashAlike ⟨[0x2f]⟩ p q ∧ ¬Path.ReadAlike ⟨[0x2f]⟩ p q ∧
      Path.label ⟨[0x2f]⟩ p ≠ Path.label ⟨[0x2f]⟩ q := by
  have hp := mem_walk_of_mem_aliasPaths ⟨[0x2f, 0x61, 0x5c, 0x62, 0x2e, 0x74]⟩ (by decide)
  have hq := mem_walk_of_mem_aliasPaths ⟨[0x2f, 0xff, 0x2e, 0x74]⟩ (by decide)
  have hne : (⟨[0x2f, 0x61, 0x5c, 0x62, 0x2e, 0x74]⟩ : Path) ≠ ⟨[0x2f, 0xff, 0x2e, 0x74]⟩ := by decide
  have hslash : ¬Path.SlashAlike ⟨[0x2f]⟩ ⟨[0x2f, 0x61, 0x5c, 0x62, 0x2e, 0x74]⟩
      ⟨[0x2f, 0xff, 0x2e, 0x74]⟩ := fun h => absurd h.alike.length_eq (by decide +kernel)
  have hread : ¬Path.ReadAlike ⟨[0x2f]⟩ ⟨[0x2f, 0x61, 0x5c, 0x62, 0x2e, 0x74]⟩
      ⟨[0x2f, 0xff, 0x2e, 0x74]⟩ := fun h => absurd h.replaced (by decide +kernel)
  have hiff := (walk_label_eq_iff aliasSelection aliasTree_wellFormed.proper _).2 _ hp _ hq hne
  exact ⟨_, hp, _, hq, hne, hslash, hread, fun h => (hiff.mp h).elim hslash hread⟩

theorem exists_walk_label_eq : ∃ (selection : Selection) (tree : FileTree) (root p q r s : Path),
    tree.top.Proper ∧ (∀ path ∈ [p, q, r, s], path ∈ selection.walk tree root) ∧
      (p ≠ q ∧ Path.label root p = Path.label root q) ∧
      r ≠ s ∧ Path.label root r = Path.label root s :=
  ⟨aliasSelection, aliasTree, ⟨[0x2f]⟩, _, _, _, _, aliasTree_wellFormed.proper,
    mem_walk_of_mem_aliasPaths, by decide +kernel, by decide, by decide +kernel⟩

end Selection

end CrossRef
