import CrossRef.Proofs.Margin
import Mathlib.Logic.Relation

namespace CrossRef

open Text

namespace Text

-- A text is its first line, a line feed and the other lines, or a last line.
theorem lines_induct {motive : List Char → Prop} (last : ∀ s, '\n' ∉ s → motive s)
    (line : ∀ s rest, '\n' ∉ s → motive rest → motive (s ++ '\n' :: rest)) (s : List Char) : motive s := by
  by_cases h : '\n' ∈ s
  · obtain ⟨first, rest, hs, hfirst⟩ := List.eq_append_cons_of_mem h
    exact hs ▸ line first rest hfirst (lines_induct last line rest)
  · exact last s h
termination_by s.length
decreasing_by simp [hs]; omega

theorem lines_cons {c : Char} {rest : List Char} (hc : c ≠ '\n') (hr : c = '\r' → rest.head? ≠ some '\n') :
    lines (c :: rest) = (c :: (lines rest).headD []) :: (lines rest).tail := by
  rw [lines]
  · cases lines rest <;> rfl
  · exact hc
  · rintro rest' rfl rfl
    exact hr rfl rfl

theorem lines_of_not_mem {s : List Char} (h : '\n' ∉ s) (hne : s ≠ []) : lines s = [s] := by
  induction s
  case nil => exact absurd rfl hne
  case cons c s ih =>
    simp only [List.mem_cons, not_or] at h
    rw [lines_cons (Ne.symm h.1) fun _ hhead => h.2 (List.mem_of_head? hhead)]
    by_cases hs : s = []
    · simp [hs]
    · simp [ih h.2 hs]

-- A line comes without the carriage return before its line feed.
theorem exists_lines_append {s : List Char} (h : '\n' ∉ s) (rest : List Char) :
    ∃ line, lines (s ++ '\n' :: rest) = line :: lines rest ∧ (s = line ∨ s = line ++ ['\r']) := by
  induction s
  case nil => exact ⟨[], rfl, .inl rfl⟩
  case cons c s ih =>
    simp only [List.mem_cons, not_or] at h
    by_cases hr : c = '\r' ∧ s = []
    · obtain ⟨rfl, rfl⟩ := hr
      exact ⟨[], rfl, .inr rfl⟩
    · obtain ⟨line, hl, hs⟩ := ih h.2
      have hhead (hc : c = '\r') : (s ++ '\n' :: rest).head? ≠ some '\n' := by
        rw [List.head?_append_of_ne_nil _ fun hs => hr ⟨hc, hs⟩]
        exact fun hhead => h.2 (List.mem_of_head? hhead)
      refine ⟨c :: line, ?_, by simpa using hs⟩
      rw [List.cons_append, lines_cons (Ne.symm h.1) hhead, hl]
      rfl

theorem length_pieces {α : Type} [DecidableEq α] (sep : α) (s : List α) :
    (pieces sep s).length = s.count sep + 1 := by
  induction s
  case nil => rfl
  case cons c s ih =>
    have := pieces_ne_nil sep s
    grind [pieces]

end Text

-- An occurrence that many lines further down.
def Occurrence.shift (n : Nat) (o : Occurrence) : Occurrence :=
  { o with location.line := o.location.line + n }

section

variable {rules : List Rule} {allow : Allowlist} {file : String} {cls : FileClass}

theorem extractLine_shift (number n : Nat) (line : List Char) :
    extractLine rules allow file (number + n) line =
      (extractLine rules allow file number line).map (Occurrence.shift n) := by
  simp only [extractLine, List.map_flatMap, List.map_filterMap]
  refine List.flatMap_congr fun rule _ => List.filterMap_congr fun chars _ => ?_
  split <;> rfl

theorem extractLines_shift (number n : Nat) (lines : List (List Char)) :
    extractLines rules allow file cls (number + n) lines =
      (extractLines rules allow file cls number lines).map (Occurrence.shift n) := by
  induction lines generalizing number
  case nil => rfl
  case cons line lines ih =>
    rw [extractLines, extractLines, List.map_append, extractLine_shift, Nat.add_right_comm, ih]

theorem extractLines_eq_flatMap (number : Nat) (lines : List (List Char)) :
    extractLines rules allow file cls number lines =
      (lines.zipIdx number).flatMap fun (line, n) => extractLine rules allow file n (cls.significant line) := by
  induction lines generalizing number
  case nil => rfl
  case cons line lines ih => simp [extractLines, ih]

theorem extractLines_append (number : Nat) (first rest : List (List Char)) :
    extractLines rules allow file cls number (first ++ rest) =
      extractLines rules allow file cls number first ++
        extractLines rules allow file cls (number + first.length) rest := by
  induction first generalizing number
  case nil => rfl
  case cons line first ih => simp [extractLines, ih, Nat.add_assoc, Nat.add_comm 1]

theorem extractLines_nil_singleton (number : Nat) : extractLines rules allow file cls number [[]] = [] := by
  have hline : cls.significant [] = [] := by cases cls <;> rfl
  simp [extractLines, extractLine, hline, Pattern.names, Pattern.namesFrom]

variable (hr : ∀ rule ∈ rules, rule.pattern.isAnchored = true)
include hr

-- Carriage returns and the end of the last line make no difference: what counts is what stands between the
-- line feeds.
theorem extractLines_lines (number : Nat) (s : List Char) :
    extractLines rules allow file cls number (lines s) =
      extractLines rules allow file cls number (pieces '\n' s) := by
  induction s using lines_induct generalizing number
  case last s h =>
    by_cases hs : s = []
    · rw [hs]
      exact extractLines_nil_singleton number |>.symm
    · rw [lines_of_not_mem h hs, pieces_of_not_mem h]
  case line s rest h ih =>
    obtain ⟨line, hl, hs⟩ := exists_lines_append h rest
    have hline : extractLine rules allow file number (cls.significant s) =
        extractLine rules allow file number (cls.significant line) := by
      obtain rfl | rfl := hs
      · rfl
      · have hreturn : ∀ c ∈ ['\r'], isBlank c = true := List.forall_mem_singleton.mpr (by decide)
        simpa using @extractLine_of_margins cls [] _ rules allow file hr (by simp) hreturn number line
    rw [hl, pieces_append, pieces_of_not_mem h, List.singleton_append, extractLines, extractLines, ih, hline]

-- Nor does a byte order mark.
theorem extractLines_byteOrderMark (number : Nat) (s : List Char) :
    extractLines rules allow file cls number (pieces '\n' (byteOrderMark :: s)) =
      extractLines rules allow file cls number (pieces '\n' s) := by
  have hmark : byteOrderMark ≠ '\n' := by decide
  have ⟨line, more, hs⟩ := List.exists_cons_of_ne_nil (pieces_ne_nil '\n' s)
  have hmargin : ∀ c ∈ [byteOrderMark], isMargin c = true := List.forall_mem_singleton.mpr (by decide)
  have hline := @extractLine_of_margins cls _ [] rules allow file hr hmargin (by simp) number line
  rw [List.append_nil, List.singleton_append] at hline
  simp [pieces, hmark, hs, extractLines, hline]

end

theorem extract_eq_pieces {checker : Checker} {allow : Allowlist} {file : String} {cls : FileClass}
    (hcls : FileClass.ofPath? file = some cls) (content : String) :
    extract checker.rules allow file content =
      extractLines (applicable checker.rules cls file) allow file cls 1 (pieces '\n' content.toList) := by
  simp only [extract, hcls]
  rw [extractLines_lines fun _ => Checker.isAnchored_of_mem_applicable]
  cases content.toList
  case nil => rfl
  case cons c s =>
    rw [dropByteOrderMark]
    split
    · rename_i hc
      rw [hc, extractLines_byteOrderMark fun _ => Checker.isAnchored_of_mem_applicable]
    · rfl

theorem extract_congr {checker : Checker} {allow : Allowlist} {file c c' : String}
    (h : ∀ cls, FileClass.ofPath? file = some cls →
      extractLines (applicable checker.rules cls file) allow file cls 1 (pieces '\n' c.toList) =
        extractLines (applicable checker.rules cls file) allow file cls 1 (pieces '\n' c'.toList)) :
    extract checker.rules allow file c = extract checker.rules allow file c' := by
  cases hcls : FileClass.ofPath? file
  case none => simp [extract, hcls]
  case some cls => rw [extract_eq_pieces hcls, extract_eq_pieces hcls, h cls hcls]

-- A text can be cut after any line feed: quotations and blocks do not go on, and a byte order mark after the
-- cut counts as little as one in front.
theorem extract_append (checker : Checker) (allow : Allowlist) (file : String) {c₁ : String}
    (h : c₁ = "" ∨ ∃ s, c₁ = s ++ "\n") (c₂ : String) :
    extract checker.rules allow file (c₁ ++ c₂) =
      extract checker.rules allow file c₁ ++
        (extract checker.rules allow file c₂).map (Occurrence.shift (c₁.toList.count '\n')) := by
  cases hcls : FileClass.ofPath? file
  case none => simp [extract, hcls]
  case some cls =>
    simp only [extract_eq_pieces hcls]
    obtain rfl | ⟨s, rfl⟩ := h
    · have hshift : Occurrence.shift 0 = id := rfl
      simp [hshift, pieces, extractLines_nil_singleton]
    · have hlines : (s ++ "\n").toList.count '\n' = (pieces '\n' s.toList).length := by
        simp [length_pieces]
      have hwhole : pieces '\n' (s ++ "\n" ++ c₂).toList = pieces '\n' s.toList ++ pieces '\n' c₂.toList := by
        simpa using pieces_append '\n' s.toList c₂.toList
      have hfirst : pieces '\n' (s ++ "\n").toList = pieces '\n' s.toList ++ [[]] := by
        simpa [pieces] using pieces_append '\n' s.toList []
      rw [hwhole, hfirst, hlines, extractLines_append, extractLines_append, extractLines_nil_singleton,
        List.append_nil, extractLines_shift]

-- The first part ends inside of a quotation and of a block, and the second one starts with a byte order mark.
theorem extract_append_openBlock :
    let first := "localization_key = a\ntext = \x7b localization_key = \"b #\n"
    let second := "\uFEFFlocalization_key = c # \x7d\n\nlocalization_key = d"
    (first = "" ∨ ∃ s, first = s ++ "\n") ∧
    extract Checker.scriptedLocalisation.rules .standard "a.txt" (first ++ second) =
      [⟨.scriptedLocalisation, "a", ⟨"a.txt", 1⟩, .set⟩, ⟨.scriptedLocalisation, "b", ⟨"a.txt", 2⟩, .set⟩,
       ⟨.scriptedLocalisation, "c", ⟨"a.txt", 3⟩, .set⟩, ⟨.scriptedLocalisation, "d", ⟨"a.txt", 5⟩, .set⟩] := by
  intro first second
  have h : first = "" ∨ ∃ s, first = s ++ "\n" := .inr ⟨"localization_key = a\ntext = \x7b localization_key = \"b #", rfl⟩
  refine ⟨h, ?_⟩
  rw [extract_append _ _ _ h second]
  decide +kernel

-- What stands before a line. The byte order mark is no part of the first one.
def IsLineStart (s : List Char) : Prop := s = [] ∨ s = [byteOrderMark] ∨ ∃ r, s = r ++ ['\n']

-- What stands after a line: its line feed, with or without a carriage return, or nothing.
def IsLineEnd (t : List Char) : Prop := t = [] ∨ (∃ u, t = '\n' :: u) ∨ ∃ u, t = '\r' :: '\n' :: u

section

variable {s t : List Char}

theorem exists_pieces_of_line (hs : IsLineStart s) (ht : IsLineEnd t) :
    ∃ init front back more, (∀ c ∈ front, isMargin c = true) ∧ (∀ c ∈ back, isBlank c = true) ∧
      ∀ line, '\n' ∉ line → pieces '\n' (s ++ line ++ t) = init ++ (front ++ line ++ back) :: more := by
  obtain ⟨init, front, hfront, hnl, hs⟩ : ∃ init front, (∀ c ∈ front, isMargin c = true) ∧ '\n' ∉ front ∧
      ∀ u, pieces '\n' (s ++ u) = init ++ pieces '\n' (front ++ u) := by
    obtain rfl | rfl | ⟨r, rfl⟩ := hs
    · exact ⟨[], [], by simp, by simp, fun u => rfl⟩
    · exact ⟨[], [byteOrderMark], List.forall_mem_singleton.mpr (by decide), by decide, fun u => rfl⟩
    · exact ⟨pieces '\n' r, [], by simp, by simp, fun u => by simpa using pieces_append '\n' r u⟩
  obtain ⟨back, more, hback, ht⟩ : ∃ back more, (∀ c ∈ back, isBlank c = true) ∧
      ∀ line, '\n' ∉ line → pieces '\n' (line ++ t) = (line ++ back) :: more := by
    obtain rfl | ⟨u, rfl⟩ | ⟨u, rfl⟩ := ht
    · exact ⟨[], [], by simp, fun line h => by simp [pieces_of_not_mem h]⟩
    · exact ⟨[], pieces '\n' u, by simp, fun line h => by simp [pieces_append, pieces_of_not_mem h]⟩
    · refine ⟨['\r'], pieces '\n' u, List.forall_mem_singleton.mpr (by decide), fun line h => ?_⟩
      have h : '\n' ∉ line ++ ['\r'] := by simp [h]
      simpa [pieces_of_not_mem h] using pieces_append '\n' (line ++ ['\r']) u
  refine ⟨init, front, back, more, hfront, hback, fun line h => ?_⟩
  rw [List.append_assoc, hs, ← List.append_assoc, ht]
  simp [hnl, h]

theorem exists_line_after (t : List Char) : ∃ line u, t = line ++ u ∧ '\n' ∉ line ∧ IsLineEnd u := by
  by_cases h : '\n' ∈ t
  · obtain ⟨line, rest, hs, hline⟩ := List.eq_append_cons_of_mem h
    exact ⟨line, '\n' :: rest, hs, hline, .inr (.inl ⟨rest, rfl⟩)⟩
  · exact ⟨t, [], by simp, h, .inl rfl⟩

theorem exists_line_before (s : List Char) : ∃ r line, s = r ++ line ∧ '\n' ∉ line ∧ IsLineStart r := by
  by_cases h : '\n' ∈ s
  · obtain ⟨line, r, hs, hline⟩ := List.eq_append_cons_of_mem (List.mem_reverse.mpr h)
    refine ⟨r.reverse ++ ['\n'], line.reverse, ?_, by simpa using hline, .inr (.inr ⟨_, rfl⟩)⟩
    simpa using congrArg List.reverse hs
  · exact ⟨[], s, rfl, h, .inl rfl⟩

end

-- Only what counts on a line matters.
theorem extract_congr_line {checker : Checker} {allow : Allowlist} {file : String} {s t line line' : List Char}
    (hs : IsLineStart s) (ht : IsLineEnd t) (hline : '\n' ∉ line) (hline' : '\n' ∉ line')
    (h : ∀ cls, FileClass.ofPath? file = some cls → ∀ number,
      extractLine (applicable checker.rules cls file) allow file number (cls.significant line) =
        extractLine (applicable checker.rules cls file) allow file number (cls.significant line')) :
    extract checker.rules allow file (String.ofList (s ++ line ++ t)) =
      extract checker.rules allow file (String.ofList (s ++ line' ++ t)) := by
  have ⟨init, front, back, more, hfront, hback, hpieces⟩ := exists_pieces_of_line hs ht
  refine extract_congr fun cls hcls => ?_
  simp only [String.toList_ofList, hpieces _ hline, hpieces _ hline', extractLines_append, extractLines,
    extractLine_of_margins (fun _ => Checker.isAnchored_of_mem_applicable) hfront hback, h cls hcls]

-- One change to the layout of a text: a byte order mark in front of it, or white space before or after a line.
inductive Relays : List Char → List Char → Prop
  | mark (s) : Relays s (byteOrderMark :: s)
  | indent {s blanks} (t) : IsLineStart s → (∀ c ∈ blanks, isBlank c = true ∧ c ≠ '\n') →
    Relays (s ++ t) (s ++ blanks ++ t)
  | trail (s) {t blanks} : IsLineEnd t → (∀ c ∈ blanks, isBlank c = true ∧ c ≠ '\n') →
    Relays (s ++ t) (s ++ blanks ++ t)

section

variable {checker : Checker} {allow : Allowlist} {file : String}

theorem extract_of_margins {s t front line back : List Char} (hs : IsLineStart s) (ht : IsLineEnd t)
    (hline : '\n' ∉ line) (hfront : ∀ c ∈ front, isBlank c = true ∧ c ≠ '\n')
    (hback : ∀ c ∈ back, isBlank c = true ∧ c ≠ '\n') :
    extract checker.rules allow file (String.ofList (s ++ (front ++ line ++ back) ++ t)) =
      extract checker.rules allow file (String.ofList (s ++ line ++ t)) := by
  have hnl : '\n' ∉ front ++ line ++ back := by
    simp only [List.mem_append, not_or]
    exact ⟨⟨fun hm => (hfront _ hm).2 rfl, hline⟩, fun hm => (hback _ hm).2 rfl⟩
  have hmargin : ∀ c ∈ front, isMargin c = true := fun c hc => isMargin_of_isBlank (hfront c hc).1
  refine extract_congr_line hs ht hnl hline fun cls _ number => ?_
  exact extractLine_of_margins (fun _ => Checker.isAnchored_of_mem_applicable) hmargin
    (fun c hc => (hback c hc).1) number line

theorem Relays.extract_eq {s s' : List Char} (h : Relays s s') :
    extract checker.rules allow file (String.ofList s') = extract checker.rules allow file (String.ofList s) := by
  cases h
  case mark =>
    refine extract_congr fun cls _ => ?_
    simpa using extractLines_byteOrderMark (fun _ => Checker.isAnchored_of_mem_applicable) 1 s
  case indent s blanks t hs hb =>
    obtain ⟨line, u, rfl, hline, hu⟩ := exists_line_after t
    simpa using @extract_of_margins checker allow file s u blanks line [] hs hu hline hb (by simp)
  case trail s t blanks ht hb =>
    obtain ⟨r, line, rfl, hline, hr⟩ := exists_line_before s
    simpa using @extract_of_margins checker allow file r t [] line blanks hr ht hline (by simp) hb

end

-- The text with a carriage return before each line feed.
def withReturns (s : List Char) : List Char := s.flatMap fun c => if c = '\n' then ['\r', '\n'] else [c]

theorem relays_withReturns (s : List Char) : Relation.ReflTransGen Relays s (withReturns s) := by
  suffices hrest : ∀ done, Relation.ReflTransGen Relays (done ++ s) (done ++ withReturns s) from hrest []
  induction s
  case nil => exact fun done => .refl
  case cons c s ih =>
    intro done
    by_cases hc : c = '\n'
    · subst hc
      have hstep : Relays (done ++ '\n' :: s) (done ++ ['\r'] ++ '\n' :: s) :=
        .trail done (.inr (.inl ⟨s, rfl⟩)) (List.forall_mem_singleton.mpr (by decide))
      simpa [withReturns] using (ih (done ++ ['\r', '\n'])).head (by simpa using hstep)
    · simpa [withReturns, hc] using ih (done ++ [c])

-- The layout of a text does not matter.
theorem extract_relaid (checker : Checker) (allow : Allowlist) (file : String) :
    (∀ c c' : String, Relation.ReflTransGen Relays c.toList c'.toList →
      extract checker.rules allow file c' = extract checker.rules allow file c) ∧
    ∀ c : String, ∀ s ∈ [c.toList, withReturns c.toList], ∀ mark ∈ [[], [byteOrderMark]],
      extract checker.rules allow file (String.ofList (mark ++ s)) = extract checker.rules allow file c := by
  have hrelaid {s s' : List Char} (h : Relation.ReflTransGen Relays s s') :
      extract checker.rules allow file (String.ofList s') = extract checker.rules allow file (String.ofList s) := by
    induction h
    case refl => rfl
    case tail hstep ih => exact hstep.extract_eq.trans ih
  refine ⟨fun c c' h => by simpa using hrelaid h, fun c s hs mark hmark => ?_⟩
  have hs : Relation.ReflTransGen Relays c.toList s := by
    obtain rfl | rfl : s = c.toList ∨ s = withReturns c.toList := by simpa using hs
    · exact .refl
    · exact relays_withReturns c.toList
  obtain rfl | rfl : mark = [] ∨ mark = [byteOrderMark] := by simpa using hmark
  · simpa using hrelaid hs
  · simpa using hrelaid (hs.tail (.mark s))

-- White space after the first line and before the second one, and a byte order mark.
theorem extract_relaid_indented :
    let first := "localization_key = a"
    let second := "localization_key = b"
    Relation.ReflTransGen Relays (first ++ "\n" ++ second).toList
      ("\uFEFF" ++ first ++ " \r" ++ "\n" ++ "\u3000" ++ second).toList ∧
    extract Checker.scriptedLocalisation.rules .standard "a.txt"
        ("\uFEFF" ++ first ++ " \r" ++ "\n" ++ "\u3000" ++ second) =
      [⟨.scriptedLocalisation, "a", ⟨"a.txt", 1⟩, .set⟩, ⟨.scriptedLocalisation, "b", ⟨"a.txt", 2⟩, .set⟩] := by
  intro first second
  have htrail : Relays (first.toList ++ '\n' :: second.toList)
      (first.toList ++ [' ', '\r'] ++ '\n' :: second.toList) :=
    .trail _ (.inr (.inl ⟨_, rfl⟩)) (by simp; decide)
  have hindent : Relays ((first.toList ++ [' ', '\r', '\n']) ++ second.toList)
      ((first.toList ++ [' ', '\r', '\n']) ++ ['\u3000'] ++ second.toList) :=
    .indent _ (.inr (.inr ⟨first.toList ++ [' ', '\r'], by simp⟩)) (List.forall_mem_singleton.mpr (by decide))
  have hsteps := ((Relation.ReflTransGen.single htrail).tail (by simpa using hindent)).tail (.mark _)
  have h : Relation.ReflTransGen Relays (first ++ "\n" ++ second).toList
      ("\uFEFF" ++ first ++ " \r" ++ "\n" ++ "\u3000" ++ second).toList := by
    simpa [byteOrderMark] using hsteps
  refine ⟨h, ?_⟩
  rw [(extract_relaid _ _ _).1 _ _ h]
  decide +kernel

end CrossRef
