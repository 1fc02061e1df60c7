import CrossRef.Report.Render
import Mathlib.Data.List.Basic

namespace CrossRef

open Text

namespace Style

-- The codes for bold, cyan, red, yellow and green, and the one that ends them.
def codes : List (List Char) :=
  [['\x1b', '[', '1', 'm'], ['\x1b', '[', '3', '6', 'm'], ['\x1b', '[', '3', '1', 'm'],
   ['\x1b', '[', '3', '3', 'm'], ['\x1b', '[', '3', '2', 'm'], ['\x1b', '[', '0', 'm']]

-- Painting writes these codes and no others.
theorem mem_codes_iff {c : List Char} : c ∈ codes ↔ c = reset ∨ ∃ style : Style, c = style.code := by
  constructor
  · intro hc
    have hcodes : codes = [title, heading, error, location, ok].map code ++ [reset] := rfl
    rw [hcodes, List.mem_append, List.mem_map, List.mem_singleton] at hc
    exact hc.symm.imp_right fun ⟨style, _, he⟩ => ⟨style, he.symm⟩
  · rintro (rfl | ⟨style, rfl⟩)
    · decide
    · cases style <;> decide

theorem reset_mem_codes : reset ∈ codes := mem_codes_iff.mpr (.inl rfl)

theorem code_mem_codes (style : Style) : style.code ∈ codes := mem_codes_iff.mpr (.inr ⟨style, rfl⟩)

theorem eq_of_append_eq_append {c c' : List Char} (hc : c ∈ codes) (hc' : c' ∈ codes)
    {s s' : List Char} (h : c ++ s = c' ++ s') : c = c' ∧ s = s' := by
  have hfree : ∀ c ∈ codes, ∀ c' ∈ codes, c <+: c' → c = c' := by decide
  have he : c = c' := by
    obtain hp | hp := List.prefix_or_prefix_of_prefix ⟨s, h⟩ ⟨s', rfl⟩
    · exact hfree c hc c' hc' hp
    · exact (hfree c' hc' c hc hp).symm
  subst he
  exact ⟨rfl, List.append_cancel_left h⟩

-- Only the first character of a code is the escape character.
theorem exists_cons_of_mem_codes {c : List Char} (hc : c ∈ codes) :
    ∃ inner, c = '\x1b' :: inner ∧ '\x1b' ∉ inner := by
  have hcodes : ∀ c ∈ codes, c.head? = some '\x1b' ∧ '\x1b' ∉ c.tail := by decide
  have ⟨hhead, hinner⟩ := hcodes c hc
  have ⟨inner, he⟩ := List.head?_eq_some_iff.mp hhead
  subst he
  exact ⟨inner, rfl, hinner⟩

def afterCode? (s : List Char) : Option (List Char) := codes.findSome? (afterLiteral? · s)

theorem afterCode?_eq_some_iff {s rest : List Char} :
    afterCode? s = some rest ↔ ∃ c ∈ codes, s = c ++ rest := by
  constructor
  · intro h
    have ⟨c, hc, ha⟩ := List.exists_of_findSome?_eq_some h
    exact ⟨c, hc, afterLiteral?_eq_some_iff.mp ha⟩
  · rintro ⟨c, hc, rfl⟩
    cases h : afterCode? (c ++ rest)
    case none =>
      have hn := List.findSome?_eq_none_iff.mp h c hc
      rw [afterLiteral?_eq_some_iff.mpr rfl] at hn
      cases hn
    case some other =>
      obtain ⟨c', hc', ha⟩ := List.exists_of_findSome?_eq_some h
      rw [(eq_of_append_eq_append hc hc' (afterLiteral?_eq_some_iff.mp ha)).2]

theorem afterCode?_eq_none_iff {s : List Char} : afterCode? s = none ↔ ∀ c ∈ codes, ¬c <+: s := by
  rw [Option.eq_none_iff_forall_ne_some]
  simp only [ne_eq, afterCode?_eq_some_iff]
  constructor
  · rintro h c hc ⟨rest, he⟩
    exact h rest ⟨c, hc, he.symm⟩
  · rintro h rest ⟨c, hc, he⟩
    exact h c hc ⟨rest, he.symm⟩

theorem length_lt_of_afterCode? {s rest : List Char} (h : afterCode? s = some rest) :
    rest.length < s.length := by
  obtain ⟨c, hc, rfl⟩ := afterCode?_eq_some_iff.mp h
  obtain ⟨inner, rfl, _⟩ := exists_cons_of_mem_codes hc
  simp only [List.length_append, List.length_cons]
  omega

-- The text without codes. They are removed in one pass from left to right, so codes that come about by the
-- removal stay.
def unpainted : List Char → List Char
  | [] => []
  | c :: rest =>
    match h : afterCode? (c :: rest) with
    | some after =>
      have := length_lt_of_afterCode? h
      unpainted after
    | none => c :: unpainted rest
termination_by s => s.length
decreasing_by
  · assumption
  · exact Nat.lt_succ_self _

theorem unpainted_code {c : List Char} (hc : c ∈ codes) (s : List Char) :
    unpainted (c ++ s) = unpainted s := by
  have ⟨inner, he, _⟩ := exists_cons_of_mem_codes hc
  have ha : afterCode? (c ++ s) = some s := afterCode?_eq_some_iff.mpr ⟨c, hc, rfl⟩
  rw [he, List.cons_append] at ha ⊢
  rw [unpainted]
  split
  case h_1 after h => exact congrArg unpainted <| Option.some.inj <| h.symm.trans ha
  case h_2 h => cases h.symm.trans ha

theorem unpainted_cons {x : Char} {s : List Char} (h : ∀ c ∈ codes, ¬c <+: x :: s) :
    unpainted (x :: s) = x :: unpainted s := by
  rw [unpainted]
  split
  case h_1 after ha => cases (afterCode?_eq_none_iff.mpr h).symm.trans ha
  case h_2 => rfl

-- A text starts with a code or with a character that stays.
theorem code_induct {motive : List Char → Prop} (nil : motive [])
    (code : ∀ c ∈ codes, ∀ rest, motive rest → motive (c ++ rest))
    (char : ∀ x rest, (∀ c ∈ codes, ¬c <+: x :: rest) → motive rest → motive (x :: rest))
    (s : List Char) : motive s := by
  induction s using unpainted.induct
  case case1 => exact nil
  case case2 x rest after ha _ ih =>
    obtain ⟨c, hc, he⟩ := afterCode?_eq_some_iff.mp ha
    exact he ▸ code c hc after ih
  case case3 x rest ha ih => exact char x rest (afterCode?_eq_none_iff.mp ha) ih

-- A text that does not go on with a code that has begun before it.
def Breaks (s : List Char) : Prop := ∀ x ∈ s.head?, ∀ c ∈ codes, x ∉ c.tail

theorem breaks_code {c : List Char} (hc : c ∈ codes) (s : List Char) : Breaks (c ++ s) := by
  intro x hx c' hc' hm
  obtain ⟨inner, rfl, _⟩ := exists_cons_of_mem_codes hc
  obtain ⟨inner', rfl, hn⟩ := exists_cons_of_mem_codes hc'
  have he : '\x1b' = x := by simpa using hx
  exact hn (he ▸ hm)

theorem breaks_cons {x : Char} (hx : ∀ c ∈ codes, x ∉ c.tail) (s : List Char) : Breaks (x :: s) := by
  intro y hy c hc
  have he : x = y := by simpa using hy
  exact he ▸ hx c hc

theorem unpainted_append (s : List Char) {t : List Char} (ht : Breaks t) :
    unpainted (s ++ t) = unpainted s ++ unpainted t := by
  induction s using code_induct
  case nil => simp [unpainted]
  case code c hc rest ih => rw [List.append_assoc, unpainted_code hc, unpainted_code hc, ih]
  case char x rest h ih =>
    -- A code at `x` would end in `rest`, or go on into the first character of `t`.
    have hlater : ∀ c ∈ codes, ¬c <+: x :: (rest ++ t) := by
      rintro c hc ⟨after, he⟩
      rw [← List.cons_append] at he
      obtain ⟨more, hs, ha⟩ | ⟨more, hs, ha⟩ := List.append_eq_append_iff.mp he
      · exact h c hc ⟨more, hs.symm⟩
      · cases more
        case nil => exact h c hc ⟨[], by simp [hs]⟩
        case cons y more => exact ht y (by simp [ha]) c hc (by simp [hs])
    rw [List.cons_append, unpainted_cons hlater, unpainted_cons h, ih, List.cons_append]

theorem unpainted_append_of_not_mem {s : List Char} (hs : '\x1b' ∉ s) (t : List Char) :
    unpainted (s ++ t) = s ++ unpainted t := by
  induction s
  case nil => rfl
  case cons x rest ih =>
    have ⟨hx, hrest⟩ := List.ne_and_not_mem_of_not_mem_cons hs
    have hnone : ∀ c ∈ codes, ¬c <+: x :: (rest ++ t) := by
      rintro c hc ⟨after, he⟩
      obtain ⟨inner, rfl, _⟩ := exists_cons_of_mem_codes hc
      exact hx (List.cons.inj he).1
    rw [List.cons_append, unpainted_cons hnone, ih hrest, List.cons_append]

theorem restarted_reset (style : Style) (s : List Char) :
    style.restarted (reset ++ s) = reset ++ style.code ++ style.restarted s := by
  simp [reset, restarted]

theorem restarted_cons (style : Style) {x : Char} {s : List Char} (h : ¬reset <+: x :: s) :
    style.restarted (x :: s) = x :: style.restarted s := by
  rw [restarted]
  rintro rest rfl rfl
  exact h ⟨rest, rfl⟩

theorem restarted_append_of_not_mem (style : Style) {s : List Char} (hs : '\x1b' ∉ s) (t : List Char) :
    style.restarted (s ++ t) = s ++ style.restarted t := by
  induction s
  case nil => rfl
  case cons x rest ih =>
    have ⟨hx, hrest⟩ := List.ne_and_not_mem_of_not_mem_cons hs
    have hnone : ¬reset <+: x :: (rest ++ t) := fun ⟨_, he⟩ => hx (List.cons.inj he).1
    rw [List.cons_append, restarted_cons style hnone, ih hrest, List.cons_append]

-- Up to its first escape character a text stays as it is.
theorem prefix_of_prefix_restarted (style : Style) {s t : List Char} (ht : '\x1b' ∉ t)
    (h : t <+: style.restarted s) : t <+: s := by
  induction t generalizing s
  case nil => exact List.nil_prefix
  case cons y t ih =>
    have ⟨hy, ht⟩ := List.ne_and_not_mem_of_not_mem_cons ht
    cases s
    case nil => exact h
    case cons x s =>
      by_cases hr : reset <+: x :: s
      case pos =>
        obtain ⟨rest, he⟩ := hr
        rw [← he, restarted_reset] at h
        exact absurd (List.cons_prefix_cons.mp h).1.symm hy
      case neg =>
        rw [restarted_cons style hr] at h
        obtain ⟨hx, h⟩ := List.cons_prefix_cons.mp h
        exact List.cons_prefix_cons.mpr ⟨hx, ih ht h⟩

theorem restarted_code (style : Style) {c : List Char} (hc : c ∈ codes) (hn : c ≠ reset) (s : List Char) :
    style.restarted (c ++ s) = c ++ style.restarted s := by
  have hreset : ¬reset <+: c ++ s :=
    fun ⟨_, he⟩ => hn (eq_of_append_eq_append reset_mem_codes hc he).1.symm
  obtain ⟨inner, rfl, hi⟩ := exists_cons_of_mem_codes hc
  rw [List.cons_append] at hreset ⊢
  rw [restarted_cons style hreset, restarted_append_of_not_mem style hi, List.cons_append]

-- The codes that start a style again go, and none of them joins what stands around it.
theorem unpainted_restarted (style : Style) (s : List Char) :
    unpainted (style.restarted s) = unpainted s := by
  induction s using code_induct
  case nil => rfl
  case code c hc rest ih =>
    by_cases hr : c = reset
    case pos =>
      rw [hr, restarted_reset, List.append_assoc, unpainted_code reset_mem_codes,
        unpainted_code style.code_mem_codes, unpainted_code reset_mem_codes, ih]
    case neg => rw [restarted_code style hc hr, unpainted_code hc, unpainted_code hc, ih]
  case char x rest h ih =>
    have hnone : ∀ c ∈ codes, ¬c <+: x :: style.restarted rest := by
      intro c hc hp
      obtain ⟨inner, rfl, hi⟩ := exists_cons_of_mem_codes hc
      obtain ⟨hx, hp⟩ := List.cons_prefix_cons.mp hp
      exact h _ hc <| List.cons_prefix_cons.mpr ⟨hx, prefix_of_prefix_restarted style hi hp⟩
    rw [restarted_cons style (h reset reset_mem_codes), unpainted_cons hnone, unpainted_cons h, ih]

theorem unpainted_paint_append (style : Style) (text : String) (t : List Char) :
    unpainted ((style.paint text).toList ++ t) = unpainted text.toList ++ unpainted t := by
  rw [paint, String.toList_ofList, List.append_assoc, List.append_assoc, unpainted_code style.code_mem_codes,
    unpainted_append _ (breaks_code reset_mem_codes t), unpainted_code reset_mem_codes, unpainted_restarted]

end Style

open Style

def shownLine (color : Bool) (line : List Span) : List Char :=
  line.flatMap fun span => (span.shown color).toList

theorem unpainted_showLines (color : Bool) (lines : List (List Span)) :
    unpainted (showLines color lines).toList =
      lines.flatMap fun line => unpainted (shownLine color line) ++ ['\n'] := by
  have hlines : (showLines color lines).toList = lines.flatMap fun line => shownLine color line ++ ['\n'] := by
    simp [showLines, shownLine, String.toList_join, List.flatMap_map]
  rw [hlines]
  clear hlines
  induction lines
  case nil => simp [unpainted]
  case cons line rest ih =>
    have hbreaks : Breaks (['\n'] ++ rest.flatMap fun line => shownLine color line ++ ['\n']) :=
      breaks_cons (by decide) _
    rw [List.flatMap_cons, List.flatMap_cons, List.append_assoc, unpainted_append _ hbreaks,
      unpainted_append_of_not_mem (by decide), ih, List.append_assoc]

-- A line whose colors leave no trace.
def Fades (line : List Span) : Prop :=
  ∀ color, unpainted (shownLine color line) = unpainted (shownLine false line)

namespace Report

theorem fades_plainLine (text : String) : Fades (plainLine text) :=
  fun _ => rfl

theorem fades_styledLine (style : Style) (text : String) : Fades (styledLine style text) := by
  intro color
  cases color
  case false => rfl
  case true => simpa [shownLine, styledLine, Span.shown, unpainted] using unpainted_paint_append style text []

-- The site may start in the middle of a code and the name may end in one, but a blank stands on either
-- side of the site.
theorem fades_defectLines (defect : Defect) : ∀ line ∈ defectLines defect, Fades line := by
  intro line hline color
  obtain ⟨location, _, rfl⟩ := List.mem_map.mp hline
  cases color
  case false => rfl
  case true =>
    have hblank : '\x1b' ∉ "  ".toList := by decide
    have hbreaks : Breaks (" - " ++ defect.name).toList := by
      rw [String.toList_append]
      exact breaks_cons (by decide) _
    simp only [shownLine, Span.shown, List.flatMap_cons, List.flatMap_nil, List.append_nil, if_true,
      Bool.false_eq_true, if_false]
    rw [unpainted_append_of_not_mem hblank, unpainted_append_of_not_mem hblank, unpainted_paint_append,
      unpainted_append _ hbreaks]

theorem fades_findingLines (kind : Kind) (category : Category) (defects : List Defect) :
    ∀ line ∈ findingLines kind category defects, Fades line := by
  rw [findingLines]
  split
  case isTrue => exact List.forall_mem_singleton.mpr <| fades_styledLine _ _
  case isFalse =>
    refine List.forall_mem_append.mpr ⟨List.forall_mem_cons.mpr ⟨fades_styledLine _ _, ?_⟩, ?_⟩
    · intro line hline
      obtain ⟨defect, _, hline⟩ := List.mem_flatMap.mp hline
      exact fades_defectLines defect line hline
    · exact List.forall_mem_singleton.mpr <| fades_styledLine _ _

theorem fades_sectionLines (defects : KindDefects) (category : Category) :
    ∀ line ∈ sectionLines defects category, Fades line := by
  refine List.forall_mem_append.mpr ⟨?_, fades_findingLines _ _ _⟩
  simp [ruleLine, fades_plainLine, fades_styledLine]

theorem fades_headerLines (report : Report) (options : RenderOptions) :
    ∀ line ∈ report.headerLines options, Fades line := by
  simp only [headerLines, List.forall_mem_append]
  refine ⟨⟨⟨?title, ?mode⟩, ?output⟩, ?files⟩
  case title  => simp [ruleLine, fades_plainLine, fades_styledLine]
  case mode   => cases options.staged <;> simp [fades_styledLine]
  case output => cases options.outputFile <;> simp [fades_plainLine]
  case files  => simp [fades_plainLine]

theorem fades_footerLines (issues : Nat) : ∀ line ∈ footerLines issues, Fades line := by
  by_cases h : issues = 0 <;> simp [footerLines, h, ruleLine, fades_plainLine, fades_styledLine]

theorem fades_lines (report : Report) (options : RenderOptions) :
    ∀ line ∈ report.lines options, Fades line := by
  simp only [lines, List.forall_mem_append]
  refine ⟨⟨fades_headerLines report options, ?kinds⟩, fades_footerLines _⟩
  case kinds =>
    intro line hline
    obtain ⟨defects, _, hline⟩ := List.mem_flatMap.mp hline
    obtain ⟨category, _, hline⟩ := List.mem_flatMap.mp hline
    exact fades_sectionLines defects category line hline

theorem unpainted_render (report : Report) (options : RenderOptions) :
    unpainted (report.render options).toList = unpainted (report.render options.plain).toList := by
  have hlines : report.lines options.plain = report.lines options := rfl
  rw [render, render, unpainted_showLines, unpainted_showLines, hlines]
  refine List.flatMap_congr fun line hline => ?_
  rw [fades_lines report options line hline options.color]
  rfl

end Report

end CrossRef
