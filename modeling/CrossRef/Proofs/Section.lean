import CrossRef.Report.Render

namespace CrossRef

theorem takeWhile_eq_nil_of_head? {α : Type} {p : α → Bool} {l : List α}
    (h : ∀ a ∈ l.head?, p a = false) : l.takeWhile p = [] := by
  cases l
  case nil         => rfl
  case cons a rest => exact List.takeWhile_cons_of_neg (by simpa using h a rfl)

theorem isDigit_of_mem_repr (n : Nat) : ∀ c ∈ (Nat.repr n).toList, c.isDigit = true := by
  rw [Nat.toList_repr]
  exact fun c => Nat.isDigit_of_mem_toDigits (by decide) (by decide)

theorem head?_toList_ofList (c : Char) (rest : List Char) :
    (String.ofList (c :: rest)).toList.head? = some c := by
  rw [String.toList_ofList]
  rfl

theorem head?_toList_append {s : String} {c : Char} (h : s.toList.head? = some c) (t : String) :
    (s ++ t).toList.head? = some c := by
  rw [String.toList_append, List.head?_append, h]
  rfl

-- The number in front of a text, zero if there is none.
def leadingNumber (text : String) : Nat := Nat.ofDigitChars 10 (text.toList.takeWhile Char.isDigit) 0

theorem leadingNumber_repr_append (n : Nat) {rest : String}
    (h : ∀ c ∈ rest.toList.head?, c.isDigit = false) : leadingNumber (Nat.repr n ++ rest) = n := by
  rw [leadingNumber, String.toList_append, List.takeWhile_append_of_pos (isDigit_of_mem_repr n),
    takeWhile_eq_nil_of_head? h, List.append_nil, Nat.toList_repr, Nat.ofDigitChars_ten_toDigits]

theorem leadingNumber_repr (n : Nat) : leadingNumber (Nat.repr n) = n := by
  simpa using @leadingNumber_repr_append n "" (by simp)

theorem leadingNumber_eq_zero {text : String} (h : ∀ c ∈ text.toList.head?, c.isDigit = false) :
    leadingNumber text = 0 := by
  rw [leadingNumber, takeWhile_eq_nil_of_head? h]
  rfl

-- The text of a line that is not painted.
def lineText (line : List Span) : String := String.join (line.map (·.text))

namespace Report

theorem lineText_plainLine (text : String) : lineText (plainLine text) = text := by
  simp [lineText, plainLine, String.join_cons]

theorem lineText_styledLine (style : Style) (text : String) : lineText (styledLine style text) = text := by
  simp [lineText, styledLine, String.join_cons]

-- The number in the third line is all that a footer says of the report.
theorem map_lineText_footerLines (issues : Nat) :
    (footerLines issues).map lineText =
      ["", String.ofList (List.replicate 80 '#'),
       if issues = 0 then "✓ VALIDATION COMPLETE - NO ISSUES FOUND"
       else "✗ VALIDATION COMPLETE - " ++ Nat.repr issues ++ " TOTAL ISSUES FOUND",
       String.ofList (List.replicate 80 '#')] := by
  simp only [footerLines, List.map_cons, List.map_nil, ruleLine, lineText_plainLine]
  split <;> rw [lineText_styledLine]

theorem head?_cleanText (kind : Kind) (category : Category) :
    (cleanText kind category).toList.head? = some '✓' := by
  cases category <;> exact head?_toList_append (head?_toList_ofList ..) _

theorem leadingNumber_countText (n : Nat) : leadingNumber (countText n) = n := by
  have hhead {rest : List Char} : ∀ c ∈ (String.ofList (' ' :: rest)).toList.head?, c.isDigit = false := by
    simp
  rw [countText]
  split
  case isTrue h =>
    have hone : "1 issue found" = Nat.repr 1 ++ " issue found" := by decide +kernel
    rw [h, hone]
    exact leadingNumber_repr_append 1 hhead
  case isFalse h => exact leadingNumber_repr_append n hhead

-- A section: what a report says on one kind in one category.
structure Section where
  kind : Kind
  category : Category
  defects : List Defect

namespace Section

def lines (s : Section) : List (List Span) :=
  [plainLine "", ruleLine '=', styledLine .heading (checkingText s.kind s.category), ruleLine '='] ++
    findingLines s.kind s.category s.defects

end Section

end Report

def KindDefects.sections (d : KindDefects) : List Report.Section :=
  d.categories.map fun category => ⟨d.kind, category, d.inCategory category⟩

namespace KindDefects

variable {d : KindDefects}

theorem sections_of_checksClear (h : d.checksClear = true) :
    d.sections = [⟨d.kind, .clearedNotSet, d.cleared⟩, ⟨d.kind, .missingDefinition, d.missing⟩,
      ⟨d.kind, .unusedDefinition, d.unused⟩] := by
  simp [sections, categories, Category.all, h, inCategory]

theorem sections_of_not_checksClear (h : d.checksClear = false) :
    d.sections = [⟨d.kind, .missingDefinition, d.missing⟩, ⟨d.kind, .unusedDefinition, d.unused⟩] := by
  simp [sections, categories, Category.all, h, inCategory]

end KindDefects

namespace Report

def sections (report : Report) : List Section := report.kinds.flatMap KindDefects.sections

-- A report is its header, its sections and its footer.
theorem lines_eq_sections (report : Report) (options : RenderOptions) :
    report.lines options =
      report.headerLines options ++ report.sections.flatMap Section.lines ++
        footerLines report.issueCount := by
  have hkind (d : KindDefects) : kindLines d = d.sections.flatMap Section.lines := by
    rw [KindDefects.sections, List.flatMap_map]
    rfl
  simp [lines, sections, List.flatMap_assoc, ← hkind]

end Report

end CrossRef
