import CrossRef.Proofs.Audit
import CrossRef.Selection

namespace CrossRef

open Text

namespace Text

theorem afterLast?_eq_some_iff {sep : Char} {s t : List Char} :
    afterLast? sep s = some t ↔ sep :: t <:+ s ∧ sep ∉ t := by
  constructor
  · intro h
    induction s
    case nil => simp [afterLast?] at h
    case cons c rest ih =>
      rw [afterLast?] at h
      split at h
      case h_1 tail ht =>
        obtain ⟨hs, hm⟩ := ih (ht.trans h)
        exact ⟨hs.trans (List.suffix_cons ..), hm⟩
      case h_2 hn =>
        split_ifs at h with hc
        obtain rfl := Option.some.inj h
        exact ⟨hc ▸ List.suffix_rfl, afterLast?_eq_none_iff.mp hn⟩
  · rintro ⟨⟨front, rfl⟩, hm⟩
    exact afterLast?_append_cons front hm

-- The last component of a path.
def lastName (path : List Char) : List Char := (pieces '/' path).getLast (pieces_ne_nil '/' path)

theorem lastName_eq_getD (path : List Char) : lastName path = (afterLast? '/' path).getD path := by
  cases h : afterLast? '/' path
  case none => simp [lastName, pieces_of_not_mem (afterLast?_eq_none_iff.mp h)]
  case some t =>
    obtain ⟨⟨front, rfl⟩, hm⟩ := afterLast?_eq_some_iff.mp h
    simp [lastName, pieces_append, pieces_of_not_mem hm]

end Text

namespace FileClass

theorem ofExtension?_eq_none_of_slash {ext : List Char} (h : '/' ∈ ext) :
    ofExtension? (String.ofList ext) = none := by
  have hne (known : String) (hk : '/' ∉ known.toList) : String.ofList ext ≠ known := by
    rintro rfl
    exact hk (String.toList_ofList ▸ h)
  unfold ofExtension?
  rw [if_neg (hne "txt" (by decide)), if_neg (hne "gui" (by decide)), if_neg (hne "yml" (by decide))]

theorem ofExtension?_inj {ext other : String} {cls : FileClass} (h : ofExtension? ext = some cls)
    (h' : ofExtension? other = some cls) : ext = other := by
  unfold ofExtension? at h h'
  grind

-- The last dot of a path counts only if it is in the last component. What follows a dot before it has a
-- slash, and no class has such an extension.
theorem ofPath?_eq_ofExtension? (path : String) :
    ofPath? path = ofExtension? (Selection.extension (lastName path.toList)) := by
  unfold ofPath? Selection.extension
  rw [lastName_eq_getD]
  cases hslash : afterLast? '/' path.toList
  case none =>
    rw [Option.getD_none]
    cases afterLast? '.' path.toList <;> rfl
  case some name =>
    have ⟨hname, _⟩ := afterLast?_eq_some_iff.mp hslash
    rw [Option.getD_some]
    cases hdot : afterLast? '.' name
    case some ext =>
      have ⟨hext, hm⟩ := afterLast?_eq_some_iff.mp hdot
      have hlast : afterLast? '.' path.toList = some ext :=
        afterLast?_eq_some_iff.mpr ⟨hext.trans ((List.suffix_cons ..).trans hname), hm⟩
      rw [hlast]
      rfl
    case none =>
      have hnone := afterLast?_eq_none_iff.mp hdot
      cases hlast : afterLast? '.' path.toList
      case none => rfl
      case some ext =>
        have ⟨hext, _⟩ := afterLast?_eq_some_iff.mp hlast
        have hin : '/' ∈ ext := by
          obtain hs | hs := List.suffix_or_suffix_of_suffix hname hext
          · simpa using hs.subset (List.mem_cons_self ..)
          · simpa [hnone] using hs.subset (List.mem_cons_self ..)
        exact ofExtension?_eq_none_of_slash hin

end FileClass

namespace Checker

-- Whether a file has one of the extensions of a checker.
def readsExtension (checker : Checker) (path : String) : Bool :=
  checker.extensions.contains (Selection.extension (lastName path.toList))

variable {checker : Checker}

-- The tables are the data here: each class that a rule is for has its extension on the list.
theorem exists_extension_of_rule {rule : Rule} (h : rule ∈ checker.rules) :
    ∃ ext ∈ checker.extensions, FileClass.ofExtension? ext = some rule.scope.cls := by
  revert rule
  cases checker <;> decide

-- And for each extension on the list, some rule applies wherever the file is.
theorem exists_rule_of_extension {ext : String} (h : ext ∈ checker.extensions) :
    ∃ cls, FileClass.ofExtension? ext = some cls ∧ ∃ rule ∈ checker.rules, rule.scope = { cls } := by
  have htable : ∀ ext ∈ checker.extensions, ∃ cls ∈ [.script, .interface, .localisation],
      FileClass.ofExtension? ext = some cls ∧ ∃ rule ∈ checker.rules, rule.scope = { cls } := by
    cases checker <;> decide
  have ⟨cls, _, hcls⟩ := htable ext h
  exact ⟨cls, hcls⟩

theorem readsExtension_iff {path : String} :
    checker.readsExtension path = true ↔ ∃ cls, FileClass.ofPath? path = some cls ∧
      ∃ rule ∈ checker.rules, rule.scope.applies cls path = true := by
  rw [readsExtension, List.contains_iff_mem, FileClass.ofPath?_eq_ofExtension?]
  constructor
  · intro h
    have ⟨cls, hcls, rule, hr, hs⟩ := exists_rule_of_extension h
    exact ⟨cls, hcls, rule, hr, by simp [hs, Scope.applies, Place.holds]⟩
  · rintro ⟨cls, hcls, rule, hr, hs⟩
    have ⟨ext, he, hrule⟩ := exists_extension_of_rule hr
    have hsame : rule.scope.cls = cls := by simpa using (Bool.and_eq_true_iff.mp hs).1
    exact FileClass.ofExtension?_inj hcls (hsame ▸ hrule) ▸ he

theorem exists_ext_of_readsExtension {path : String} (h : checker.readsExtension path = true) :
    ∃ ext, afterLast? '.' (lastName path.toList) = some ext ∧ String.ofList ext ∈ checker.extensions := by
  have hm := List.contains_iff_mem.mp h
  unfold Selection.extension at hm
  cases hext : afterLast? '.' (lastName path.toList)
  case none =>
    have hempty : String.ofList [] ∉ checker.extensions := by cases checker <;> decide
    exact absurd (by simpa [hext] using hm) hempty
  case some ext => exact ⟨ext, rfl, by simpa [hext] using hm⟩

theorem readsExtension_of_mem_extract {allow : Allowlist} {path content : String} {o : Occurrence}
    (h : o ∈ extract checker.rules allow path content) : checker.readsExtension path = true := by
  have ⟨cls, hcls, rule, hr, _⟩ := exists_applicable_of_mem_extract h
  have ⟨hrule, hs⟩ := List.mem_filter.mp hr
  exact readsExtension_iff.mpr ⟨cls, hcls, rule, hrule, hs⟩

theorem occurrencesIn_eq_nil_of_not_readsExtension {allow : Allowlist} {tree : FileTree} {root p : Path}
    (h : checker.readsExtension (Path.label root p) = false) :
    checker.occurrencesIn allow tree root [p] = [] := by
  refine List.eq_nil_iff_forall_not_mem.mpr fun o ho => ?_
  have ⟨q, hq, _, _, ho⟩ := exists_mem_extract_of_mem_occurrencesIn ho
  rw [List.mem_singleton.mp hq] at ho
  exact Bool.eq_false_iff.mp h (readsExtension_of_mem_extract ho)

end Checker

theorem Selection.readsExtension_of_accepts {selection : Selection} {checker : Checker} {path : String}
    (he : selection.extensions = checker.extensions) (h : selection.accepts path = true) :
    checker.readsExtension path = true := by
  have hne := pieces_ne_nil '/' path.toList
  rw [accepts, ← List.dropLast_append_getLast hne, List.reverse_append] at h
  simp only [List.reverse_singleton, List.singleton_append, Bool.and_eq_true] at h
  rw [Checker.readsExtension, ← he]
  exact h.1.1.2

-- The extensions of a checker are those of the files in which its rules can find something. So what is
-- reported does not change if all other files are left out.
theorem extensions_agree_with_rules (checker : Checker) :
    (∀ (allow : Allowlist) (path content : String), ∀ o ∈ extract checker.rules allow path content,
      ∃ ext, afterLast? '.' (lastName path.toList) = some ext ∧ String.ofList ext ∈ checker.extensions) ∧
    (∀ (selection : Selection) (path : String), selection.extensions = checker.extensions →
      selection.accepts path = true → ∃ cls, FileClass.ofPath? path = some cls ∧
        ∃ rule ∈ checker.rules, rule.scope.applies cls path = true) ∧
    ∀ (allow : Allowlist) (tree : FileTree) (root : Path) (files : List Path),
      (audit checker allow tree root files).kinds =
        (audit checker allow tree root
          (files.filter fun p => checker.readsExtension (Path.label root p))).kinds := by
  refine ⟨?found, ?accepted, ?report⟩
  case found =>
    intro allow path content o ho
    exact Checker.exists_ext_of_readsExtension (Checker.readsExtension_of_mem_extract ho)
  case accepted =>
    intro selection path he ha
    exact Checker.readsExtension_iff.mp (Selection.readsExtension_of_accepts he ha)
  case report =>
    intro allow tree root files
    simp only [audit_kinds]
    rw [occurrencesIn_filter checker allow tree root files fun p hp =>
      Checker.occurrencesIn_eq_nil_of_not_readsExtension hp]

-- A script and a file without extension, with the same text.
def mixedTree : FileTree where
  top := .dir [([0x61, 0x2e, 0x74, 0x78, 0x74], .file (Utf8.encode "has_state_flag = x")),
    ([0x61], .file (Utf8.encode "has_state_flag = x"))]

def scriptSelection : Selection where
  extensions := Checker.flagsAndTargets.extensions
  ignoredDirs := []
  excluded := []

theorem extensions_agree_mixedTree :
    (∃ ext, afterLast? '.' (lastName "b.gui/a.txt".toList) = some ext ∧
      String.ofList ext ∈ Checker.flagsAndTargets.extensions) ∧
    (∃ cls, FileClass.ofPath? "b.gui/a.txt" = some cls ∧
      ∃ rule ∈ Checker.flagsAndTargets.rules, rule.scope.applies cls "b.gui/a.txt" = true) ∧
    (audit .flagsAndTargets .empty mixedTree ⟨[0x2f]⟩
        [⟨[0x2f, 0x61, 0x2e, 0x74, 0x78, 0x74]⟩, ⟨[0x2f, 0x61]⟩]).kinds =
      (audit .flagsAndTargets .empty mixedTree ⟨[0x2f]⟩ [⟨[0x2f, 0x61, 0x2e, 0x74, 0x78, 0x74]⟩]).kinds := by
  have ⟨hfound, haccepted, hreport⟩ := extensions_agree_with_rules .flagsAndTargets
  have hfiles : [(⟨[0x2f, 0x61, 0x2e, 0x74, 0x78, 0x74]⟩ : Path), ⟨[0x2f, 0x61]⟩].filter
      (fun p => Checker.flagsAndTargets.readsExtension (Path.label ⟨[0x2f]⟩ p)) =
        [⟨[0x2f, 0x61, 0x2e, 0x74, 0x78, 0x74]⟩] := by decide +kernel
  have hmem : (⟨.stateFlag, "x", ⟨"b.gui/a.txt", 1⟩, .use⟩ : Occurrence) ∈
      extract Checker.flagsAndTargets.rules .empty "b.gui/a.txt" "has_state_flag = x" := by decide +kernel
  refine ⟨hfound _ _ _ _ hmem, haccepted scriptSelection _ rfl (by decide +kernel), ?_⟩
  exact (hreport .empty mixedTree _ _).trans (by rw [hfiles])

end CrossRef
