import CrossRef.Proofs.Block
import CrossRef.Proofs.Comment
import CrossRef.Proofs.Definition

namespace CrossRef

open Text

theorem isNameChar_iff {c : Char} :
    isNameChar c = true ↔ isBlank c = false ∧ c ∉ ['#', '"', '{', '}', '=', ']'] := by
  simp [isNameChar, and_assoc]

namespace Pattern

variable {p : Pattern} {line : List Char}

namespace Fit

theorem name_ne_nil (f : Fit p line) : f.hit.name ≠ [] := (exists_text_of_hitAt? f.fits).1

theorem name_infix (f : Fit p line) : f.hit.name <:+: line := by
  have ⟨_, pre, post, hs⟩ := exists_text_of_hitAt? f.fits
  refine ⟨f.front ++ pre, post ++ f.hit.rest, ?_⟩
  calc f.front ++ pre ++ f.hit.name ++ (post ++ f.hit.rest)
      = f.front ++ (pre ++ f.hit.name ++ post ++ f.hit.rest) := by simp
    _ = f.front ++ (f.body ++ f.hit.rest) := by rw [hs]
    _ = line := f.text.symm

end Fit

end Pattern

section Lines

variable {rules : List Rule} {allow : Allowlist} {file : String}

theorem line_of_mem_extractLines {cls : FileClass} {number : Nat} {lines : List (List Char)} {o : Occurrence}
    (h : o ∈ extractLines rules allow file cls number lines) : number ≤ o.location.line := by
  induction lines generalizing number <;> simp only [extractLines, List.mem_append] at h
  case nil => simp at h
  case cons line rest ih =>
    cases h
    case inl h =>
      obtain ⟨_, _, _, _, _, _, rfl⟩ := mem_extractLine_iff.mp h
      exact Nat.le_refl _
    case inr h => exact Nat.le_of_succ_le (ih h)

theorem pairwise_line_extractLines (cls : FileClass) (number : Nat) (lines : List (List Char)) :
    (extractLines rules allow file cls number lines).Pairwise (·.location.line ≤ ·.location.line) := by
  induction lines generalizing number
  case nil => simp [extractLines]
  case cons line rest ih =>
    have hline {o : Occurrence} (h : o ∈ extractLine rules allow file number (cls.significant line)) :
        o.location.line = number := by
      obtain ⟨_, _, _, _, _, _, rfl⟩ := mem_extractLine_iff.mp h
      rfl
    rw [extractLines, List.pairwise_append]
    refine ⟨List.pairwise_of_forall_mem_list fun o ho o' ho' => ?_, ih _, fun o ho o' ho' => ?_⟩
    · exact Nat.le_of_eq ((hline ho).trans (hline ho').symm)
    · exact hline ho ▸ Nat.le_of_succ_le (line_of_mem_extractLines ho')

theorem pairwise_line_extract (content : String) :
    (extract rules allow file content).Pairwise (·.location.line ≤ ·.location.line) := by
  unfold extract
  split
  · exact .nil
  · exact pairwise_line_extractLines ..

end Lines

-- A line of a text, with the byte order mark of the text if it is the first one.
theorem exists_line_of_dropByteOrderMark {s line : List Char} {i : Nat}
    (h : (lines (dropByteOrderMark s))[i]? = some line) :
    ∃ line', (lines s)[i]? = some line' ∧ (line' = line ∨ line' = byteOrderMark :: line) := by
  cases s
  case nil => exact ⟨line, h, .inl rfl⟩
  case cons c s =>
    by_cases hc : c = byteOrderMark
    · subst hc
      have hlines : lines (byteOrderMark :: s) = (byteOrderMark :: (lines s).headD []) :: (lines s).tail :=
        lines_cons (by decide) fun hr => absurd hr (by decide)
      have hs : (lines s)[i]? = some line := by simpa [dropByteOrderMark] using h
      cases hl : lines s
      case nil => simp [hl] at hs
      case cons first rest =>
        cases i
        case zero => exact ⟨byteOrderMark :: line, by simp_all, .inr rfl⟩
        case succ i => exact ⟨line, by simp_all, .inl rfl⟩
    · exact ⟨line, by simpa [dropByteOrderMark, hc] using h, .inl rfl⟩

theorem significant_byteOrderMark (cls : FileClass) (line : List Char) :
    cls.significant (byteOrderMark :: line) = byteOrderMark :: cls.significant line := by
  have hmark : byteOrderMark ≠ '"' ∧ byteOrderMark ≠ '#' := by decide
  cases cls <;> simp [FileClass.significant, FileClass.hasComments, uncommented, uncommentedFrom, hmark]

theorem NameTest.dot_not_mem_of_accepts {test : NameTest} {name : List Char} (htest : test ≠ .any)
    (h : test.accepts name = true) : '.' ∉ name := by
  cases test
  case any => exact absurd rfl htest
  case unqualified => simpa [accepts, isUnqualified] using h
  case scriptedReference => exact (isScriptedReference_iff.mp h).1

theorem Checker.test_ne_any {checker : Checker} {rule : Rule} (h : rule ∈ checker.rules)
    (hk : rule.kind = .eventTarget ∨ rule.kind = .scriptedLocalisation) : rule.test ≠ .any := by
  revert rule
  cases checker <;> decide

-- An occurrence stands on one of the lines that are read, and its number is that of the line.
theorem exists_line_of_mem_extract {rules : List Rule} {allow : Allowlist} {file content : String} {o : Occurrence}
    (h : o ∈ extract rules allow file content) :
    ∃ cls line i, FileClass.ofPath? file = some cls ∧
      (lines (dropByteOrderMark content.toList))[i]? = some line ∧
      o ∈ extractLine (applicable rules cls file) allow file (i + 1) (cls.significant line) := by
  unfold extract at h
  split at h
  · simp at h
  · rename_i cls hcls
    rw [extractLines_eq_flatMap] at h
    obtain ⟨⟨line, n⟩, hmem, ho⟩ := List.mem_flatMap.mp h
    obtain ⟨hle, hline⟩ := List.mk_mem_zipIdx_iff_le_and_getElem?_sub.mp hmem
    exact ⟨cls, line, n - 1, hcls, hline, by rwa [Nat.sub_add_cancel hle]⟩

-- What an occurrence in a file is: a name on one of the lines, before the comment, that passes as one.
structure Occurrence.Sound (allow : Allowlist) (file content : String) (o : Occurrence) : Prop where
  file_eq     : o.location.file = file
  one_le      : 1 ≤ o.location.line
  le_length   : o.location.line ≤ (lines content.toList).length
  ne_empty    : o.name ≠ ""
  on_line     : ∃ cls line, FileClass.ofPath? file = some cls ∧
    (lines content.toList)[o.location.line - 1]? = some line ∧
    o.name.toList <:+: if cls = .localisation then line else uncommented line
  chars       : ∀ c ∈ o.name.toList, isBlank c = false ∧ c ∉ ['#', '"', '{', '}', '=', ']']
  unmarked    : ∀ marker ∈ allow.markers, marker ≠ "" → ¬marker.toList <:+: o.name.toList
  unqualified : o.kind = .eventTarget ∨ o.kind = .scriptedLocalisation → '.' ∉ o.name.toList

theorem Occurrence.sound_of_mem_extract {checker : Checker} {allow : Allowlist} {file content : String}
    {o : Occurrence} (h : o ∈ extract checker.rules allow file content) : o.Sound allow file content := by
  obtain ⟨cls, read, i, hcls, hread, ho⟩ := exists_line_of_mem_extract h
  obtain ⟨rule, hr, chars, hchars, haccepts, hplain, rfl⟩ := mem_extractLine_iff.mp ho
  obtain ⟨f, rfl⟩ := Pattern.exists_fit_of_mem_names hchars
  obtain ⟨line, hline, hmark⟩ := exists_line_of_dropByteOrderMark hread
  have hinfix : f.hit.name <:+: cls.significant line := by
    obtain rfl | rfl := hmark
    · exact f.name_infix
    · rw [significant_byteOrderMark]
      exact f.name_infix.trans (List.suffix_cons ..).isInfix
  exact {
    file_eq     := rfl
    one_le      := Nat.succ_pos i
    le_length   := (List.getElem?_eq_some_iff.mp hline).1
    ne_empty    := fun he => f.name_ne_nil (by simpa using he)
    on_line     := ⟨cls, line, hcls, hline, by simpa [significant_eq] using hinfix⟩
    chars       := fun c hc => isNameChar_iff.mp (f.isNameChar_of_mem (by simpa using hc))
    unmarked    := fun marker hm _ hin => by
      have hmarked := Allowlist.isPlaceholder_iff.mpr ⟨marker, hm, hin⟩
      simp [hplain] at hmarked
    unqualified := fun hk => by
      rw [String.toList_ofList]
      exact NameTest.dot_not_mem_of_accepts (Checker.test_ne_any (List.mem_of_mem_filter hr) hk) haccepts }

-- Whatever is found is well formed, and it is found in the order of the lines.
theorem occurrences_sound (checker : Checker) (allow : Allowlist) (file content : String) :
    (∀ o ∈ extract checker.rules allow file content, o.Sound allow file content) ∧
      (extract checker.rules allow file content).Pairwise (·.location.line ≤ ·.location.line) :=
  ⟨fun _ => Occurrence.sound_of_mem_extract, pairwise_line_extract content⟩

-- A reference after a hash, which starts no comment in localised text, and after one to a property.
theorem occurrences_sound_afterHash :
    let content := "\uFEFFl_english:\n a:0 \"# [b.c_scl] [d_scl]\""
    let o : Occurrence := ⟨.scriptedLocalisation, "d_scl", ⟨"a.yml", 2⟩, .use⟩
    o ∈ extract Checker.scriptedLocalisation.rules .standard "a.yml" content ∧ o.Sound .standard "a.yml" content := by
  intro content o
  have h : o ∈ extract Checker.scriptedLocalisation.rules .standard "a.yml" content := by decide +kernel
  exact ⟨h, (occurrences_sound .scriptedLocalisation .standard "a.yml" content).1 o h⟩

end CrossRef
