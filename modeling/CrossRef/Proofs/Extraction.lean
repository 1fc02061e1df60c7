import CrossRef.Proofs.Block
import CrossRef.Proofs.Ledger
import CrossRef.Proofs.Reference

namespace CrossRef

open Text

namespace Allowlist

-- The allow-list that hides nothing.
def empty : Allowlist := ofMarkers [] []

variable {allow : Allowlist} {kind : Kind} {name : String} {category : Category}

theorem isPlaceholder_empty : empty.isPlaceholder name = false := rfl

theorem isIgnored_empty : empty.isIgnored kind name category = false := rfl

theorem isIgnored_of_isPlaceholder (h : allow.isPlaceholder name = true) :
    allow.isIgnored kind name category = true := by
  simp [isIgnored, h]

end Allowlist

theorem isNameChar_of_isDisplayChar {c : Char} (h : isDisplayChar c = true) : isNameChar c = true := by
  simp only [isDisplayChar, Bool.or_eq_true, beq_iff_eq] at h
  obtain (h | rfl) | rfl := h
  · exact isNameChar_of_isReferenceChar (by simp [isReferenceChar, h])
  · decide
  · decide

namespace Pattern

variable {p : Pattern} {line : List Char}

-- Whatever the shape, it holds a name of name characters.
theorem Fit.isNameChar_of_mem (f : Fit p line) {c : Char} (hc : c ∈ f.hit.name) : isNameChar c = true := by
  cases p
  case flagged keyword =>
    obtain ⟨b, rfl⟩ := (FlagStatement.fit_bijective keyword line).surjective f
    exact b.flag.run.all c hc
  case quotedReference =>
    have ⟨_, _, _, hall⟩ := hitAt?_quotedReference_iff.mp f.fits
    exact isNameChar_of_isReferenceChar (hall c hc)
  case reference =>
    have ⟨_, _, hall⟩ := hitAt?_reference_iff.mp f.fits
    exact isNameChar_of_isReferenceChar (hall c hc)
  case displayed =>
    have ⟨_, _, hall⟩ := hitAt?_displayed_iff.mp f.fits
    exact isNameChar_of_isDisplayChar (hall c hc)
  all_goals
    have ⟨_, _, hrun⟩ := exists_links_of_hitAt? rfl f.fits
    exact hrun.all c hc

theorem exists_fit_of_mem_names {name : List Char} (h : name ∈ p.names line) :
    ∃ f : Fit p line, f.hit.name = name := by
  have ⟨taken, _, hnames⟩ := p.exists_takes_names line
  have ⟨f, _, hf⟩ := List.mem_map.mp (hnames ▸ h)
  exact ⟨f, hf⟩

end Pattern

section

variable {rules : List Rule} {allow : Allowlist} {file : String} {o : Occurrence}

theorem mem_extractLine_iff {number : Nat} {line : List Char} :
    o ∈ extractLine rules allow file number line ↔
      ∃ rule ∈ rules, ∃ chars ∈ rule.pattern.names line, rule.test.accepts chars = true ∧
        allow.isPlaceholder (String.ofList chars) = false ∧
        o = ⟨rule.kind, String.ofList chars, ⟨file, number⟩, rule.action⟩ := by
  simp only [extractLine, List.mem_flatMap, List.mem_filterMap]
  grind

theorem mem_extractLines {cls : FileClass} {number : Nat} {lines : List (List Char)}
    (h : o ∈ extractLines rules allow file cls number lines) :
    ∃ n line, o ∈ extractLine rules allow file n line := by
  induction lines generalizing number <;> simp only [extractLines, List.mem_append] at h
  case nil => simp at h
  case cons line rest ih =>
    cases h
    case inl h => exact ⟨_, _, h⟩
    case inr h => exact ih h

theorem exists_applicable_of_mem_extract {content : String} (h : o ∈ extract rules allow file content) :
    ∃ cls, FileClass.ofPath? file = some cls ∧
      ∃ rule ∈ applicable rules cls file, rule.kind = o.kind ∧ rule.action = o.action := by
  unfold extract at h
  split at h
  · simp at h
  · rename_i cls hcls
    have ⟨_, _, h⟩ := mem_extractLines h
    obtain ⟨rule, hr, _, _, _, _, rfl⟩ := mem_extractLine_iff.mp h
    exact ⟨cls, hcls, rule, hr, rfl, rfl⟩

theorem exists_rule_of_mem_extract {content : String} (h : o ∈ extract rules allow file content) :
    ∃ rule ∈ rules, rule.kind = o.kind ∧ rule.action = o.action := by
  have ⟨_, _, rule, hr, ho⟩ := exists_applicable_of_mem_extract h
  exact ⟨rule, List.mem_of_mem_filter hr, ho⟩

theorem file_of_mem_extract {content : String} (h : o ∈ extract rules allow file content) :
    o.location.file = file := by
  unfold extract at h
  split at h
  · simp at h
  · have ⟨_, _, h⟩ := mem_extractLines h
    obtain ⟨_, _, _, _, _, _, rfl⟩ := mem_extractLine_iff.mp h
    rfl

theorem isBlank_of_mem_extract {content : String} (h : o ∈ extract rules allow file content) :
    ∀ c ∈ o.name.toList, isBlank c = false := by
  unfold extract at h
  split at h
  · simp at h
  · have ⟨_, _, h⟩ := mem_extractLines h
    obtain ⟨_, _, chars, hc, _, _, rfl⟩ := mem_extractLine_iff.mp h
    obtain ⟨f, rfl⟩ := Pattern.exists_fit_of_mem_names hc
    rw [String.toList_ofList]
    exact fun c hc => isBlank_of_isNameChar (f.isNameChar_of_mem hc)

end

-- Markers only remove occurrences: what is found is what is found without an allow-list, less the
-- placeholders.

theorem extractLine_eq_filter (rules : List Rule) (allow : Allowlist) (file : String) (number : Nat)
    (line : List Char) :
    extractLine rules allow file number line =
      (extractLine rules .empty file number line).filter (!allow.isPlaceholder ·.name) := by
  simp only [extractLine, List.filter_flatMap]
  congr 1
  funext rule
  rw [List.filter_filterMap]
  congr 1
  funext chars
  cases rule.test.accepts chars <;> cases h : allow.isPlaceholder (String.ofList chars) <;>
    simp [h, Allowlist.isPlaceholder_empty, Option.filter_some]

theorem extractLines_eq_filter (rules : List Rule) (allow : Allowlist) (file : String) (cls : FileClass)
    (number : Nat) (lines : List (List Char)) :
    extractLines rules allow file cls number lines =
      (extractLines rules .empty file cls number lines).filter (!allow.isPlaceholder ·.name) := by
  induction lines generalizing number <;> simp only [extractLines, List.filter_nil, List.filter_append]
  case cons line rest ih => rw [extractLine_eq_filter, ih]

theorem extract_eq_filter (rules : List Rule) (allow : Allowlist) (file content : String) :
    extract rules allow file content =
      (extract rules .empty file content).filter (!allow.isPlaceholder ·.name) := by
  unfold extract
  split
  · rfl
  · exact extractLines_eq_filter ..

theorem Checker.kind_mem_kinds {checker : Checker} {rule : Rule} (h : rule ∈ checker.rules) :
    rule.kind ∈ checker.kinds := by
  revert rule
  cases checker <;> decide

end CrossRef
