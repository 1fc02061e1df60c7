import CrossRef.Proofs.Scan

namespace CrossRef

open Text

-- What the keywords have in common: all of a keyword could stand in a name, and up to its last character it
-- is a word.
structure IsKeyword (keyword : List Char) : Prop where
  ne_nil : keyword ≠ []
  names  : ∀ c ∈ keyword, isNameChar c = true
  words  : ∀ c ∈ keyword.dropLast, isWord c = true

instance (keyword : List Char) : Decidable (IsKeyword keyword) :=
  decidable_of_iff (keyword ≠ [] ∧ keyword.all isNameChar = true ∧ keyword.dropLast.all isWord = true) <| by
    simp only [List.all_eq_true]
    exact ⟨fun ⟨ne_nil, names, words⟩ => ⟨ne_nil, names, words⟩,
      fun ⟨ne_nil, names, words⟩ => ⟨ne_nil, names, words⟩⟩

theorem getElem?_of_text {s front rest : List Char} (h : s = front ++ rest) (j : Nat) :
    s[front.length + j]? = rest[j]? := by
  rw [h, List.getElem?_append_right (Nat.le_add_right ..), Nat.add_sub_cancel_left]

theorem getElem?_pred_of_text {s front rest : List Char} (h : s = front ++ rest) {i : Nat}
    (hi : front.length = i + 1) : s[i]? = front.getLast? := by
  rw [h, List.getElem?_append_left (by omega), List.getLast?_eq_getElem?, hi, Nat.add_sub_cancel]

-- A place of a line where a keyword stands as a word of its own, linked to a value: the longest run of name
-- characters there.
@[ext]
structure Statement (p : Pattern) (line : List Char) where
  front : List Char
  link  : List Char
  value : List Char
  rest  : List Char
  text  : line = front ++ (p.keyword ++ link ++ (value ++ rest))
  free  : startsWord front.getLast? = true
  links : p.Links link
  run   : IsRun isNameChar value rest

namespace Statement

variable {p : Pattern} {line : List Char}

def start (st : Statement p line) : Nat := st.front.length

def valueStart (st : Statement p line) : Nat := st.start + p.keyword.length + st.link.length

def stop (st : Statement p line) : Nat := st.valueStart + st.value.length

-- The keyword lies inside the value of another statement.
def Inside (st other : Statement p line) : Prop :=
  other.valueStart ≤ st.start ∧ st.start + p.keyword.length ≤ other.stop

def fit (st : Statement p line) : Pattern.Fit p line where
  front := st.front
  body := p.keyword ++ st.link ++ st.value
  hit := ⟨st.value, st.rest⟩
  text := by simpa using st.text
  fits := by simpa using Pattern.hitAt?_of_links st.free st.links st.run

theorem fit_stop (st : Statement p line) : st.fit.stop = st.stop := by
  simp [Pattern.Fit.stop, fit, stop, valueStart, start, Nat.add_assoc]

theorem fit_injective : (fit : Statement p line → _).Injective := by
  intro st other h
  have hfront : st.front = other.front := congrArg (·.front) h
  have hbody : p.keyword ++ st.link ++ st.value = p.keyword ++ other.link ++ other.value :=
    congrArg (·.body) h
  have hvalue : st.value = other.value := congrArg (·.hit.name) h
  have hrest : st.rest = other.rest := congrArg (·.hit.rest) h
  have hlink : st.link = other.link :=
    List.append_cancel_left (List.append_cancel_right (hvalue ▸ hbody))
  exact Statement.ext hfront hlink hvalue hrest

theorem fit_bijective (line : List Char) (hp : p.isStatement = true) :
    (fit : Statement p line → _).Bijective := by
  refine ⟨fit_injective, fun f => ?_⟩
  have ⟨hb, ⟨link, hl, hs⟩, hrun⟩ := Pattern.exists_links_of_hitAt? hp f.fits
  refine ⟨⟨f.front, link, f.hit.name, f.hit.rest, hs ▸ f.text, hb, hl, hrun⟩, ?_⟩
  exact Pattern.Fit.eq_of_start_eq rfl

theorem eq_of_start_eq {st other : Statement p line} (h : st.start = other.start) : st = other :=
  fit_injective (Pattern.Fit.eq_of_start_eq h)

variable {s : List Char}

theorem getElem?_keyword (st : Statement p s) {j : Nat} (hj : j < p.keyword.length) :
    s[st.start + j]? = p.keyword[j]? := by
  have htext : s = st.front ++ (p.keyword ++ (st.link ++ (st.value ++ st.rest))) := by simpa using st.text
  exact (getElem?_of_text htext j).trans (List.getElem?_append_left hj)

theorem getElem?_link (st : Statement p s) {j : Nat} (hj : j < st.link.length) :
    s[st.start + p.keyword.length + j]? = st.link[j]? := by
  have htext : s = (st.front ++ p.keyword) ++ (st.link ++ (st.value ++ st.rest)) := by simpa using st.text
  simpa [start, List.getElem?_append_left hj] using getElem?_of_text htext j

theorem getElem?_value (st : Statement p s) {j : Nat} (hj : j < st.value.length) :
    s[st.valueStart + j]? = st.value[j]? := by
  have htext : s = (st.front ++ p.keyword ++ st.link) ++ (st.value ++ st.rest) := by simpa using st.text
  simpa [valueStart, start, Nat.add_assoc, List.getElem?_append_left hj] using getElem?_of_text htext j

theorem getElem?_rest (st : Statement p s) (j : Nat) : s[st.stop + j]? = st.rest[j]? := by
  have htext : s = (st.front ++ p.keyword ++ st.link ++ st.value) ++ st.rest := by simpa using st.text
  simpa [stop, valueStart, start, Nat.add_assoc] using getElem?_of_text htext j

-- What starts inside of a statement starts in its value: inside the keyword a word character stands before
-- it, and what links the value is no part of a word. As the value goes as far as it can, all of the
-- keyword is in it.
theorem inside_of_lt (hk : IsKeyword p.keyword) {st other : Statement p s} (hlt : other.start < st.start)
    (hin : st.start < other.stop) : st.Inside other := by
  have hpos : 0 < p.keyword.length := List.length_pos_iff.mpr hk.ne_nil
  have hafter : other.start + p.keyword.length ≤ st.start := by
    by_contra hlo
    obtain ⟨j, hj⟩ : ∃ j, st.start = other.start + j + 1 := ⟨st.start - other.start - 1, by omega⟩
    have hmem : p.keyword[j] ∈ p.keyword.dropLast := by
      rw [← List.getElem_dropLast (by simp; omega)]
      exact List.getElem_mem _
    have hlast : st.front.getLast? = some p.keyword[j] := by
      rw [← getElem?_pred_of_text st.text hj, other.getElem?_keyword (by omega)]
      simp
    have hfree := st.free
    simp [hlast, hk.words _ hmem] at hfree
  have hvalue : other.valueStart ≤ st.start := by
    by_contra hlo
    obtain ⟨j, hj⟩ : ∃ j, st.start = other.start + p.keyword.length + j :=
      ⟨st.start - (other.start + p.keyword.length), by omega⟩
    have hlen : j < other.link.length := by
      unfold valueStart at hlo
      omega
    have hc : p.keyword[0]? = some other.link[j] := by
      rw [← st.getElem?_keyword hpos, Nat.add_zero, hj, other.getElem?_link hlen]
      simp [hlen]
    have hno := other.links.isNameChar_eq_false (List.getElem_mem hlen)
    simp [hk.names _ (List.mem_of_getElem? hc)] at hno
  refine ⟨hvalue, ?_⟩
  by_contra hhi
  obtain ⟨j, hj⟩ : ∃ j, other.stop = st.start + j := ⟨other.stop - st.start, by omega⟩
  have hlen : j < p.keyword.length := by omega
  have hc : other.rest.head? = some p.keyword[j] := by
    rw [List.head?_eq_getElem?, ← other.getElem?_rest, Nat.add_zero, hj, st.getElem?_keyword hlen]
    simp
  have hno := other.run.ends _ hc
  simp [hk.names _ (List.getElem_mem hlen)] at hno

-- What links a value is no part of a name, so a keyword in the value of another statement is the end of it.
theorem head?_rest_of_inside {st other : Statement p s} (h : st.Inside other) (hl : st.link ≠ []) :
    other.rest.head? = st.link.head? := by
  have hpos := List.length_pos_iff.mpr hl
  have hlink : s[st.start + p.keyword.length]? = st.link[0]? := st.getElem?_link hpos
  have hend : st.start + p.keyword.length = other.stop := by
    by_contra hne
    obtain ⟨j, hj⟩ : ∃ j, st.start + p.keyword.length = other.valueStart + j :=
      ⟨st.start + p.keyword.length - other.valueStart, by have := h.1; omega⟩
    have hlen : j < other.value.length := by
      have := h.2
      unfold stop at this hne
      omega
    have hc : st.link[0]? = some other.value[j] := by
      rw [← hlink, hj, other.getElem?_value hlen]
      simp [hlen]
    have hno := st.links.isNameChar_eq_false (List.mem_of_getElem? hc)
    simp [other.run.all _ (List.getElem_mem hlen)] at hno
  rw [List.head?_eq_getElem?, ← other.getElem?_rest, Nat.add_zero, ← hend, hlink, List.head?_eq_getElem?]

theorem not_inside_of_start_eq_zero (hk : p.keyword ≠ []) {st other : Statement p s} (h : st.start = 0) :
    ¬st.Inside other := by
  rintro ⟨hlo, _⟩
  have := List.length_pos_iff.mpr hk
  unfold valueStart at hlo
  omega

end Statement

namespace Rule

variable {rule : Rule}

-- A rule yields the values of statements, and it misses none unless the keyword lies in the value of
-- another statement.
theorem exists_statements (rule : Rule) (line : List Char) (hp : rule.pattern.isStatement = true)
    (hk : IsKeyword rule.pattern.keyword) (allow : Allowlist) (file : String) (number : Nat) :
    ∃ found : List (Statement rule.pattern line), found.Pairwise (fun a b => a.start < b.start) ∧
      extractLine [rule] allow file number line =
        found.map (fun st => rule.occurrence file number st.value) ∧
      ∀ st : Statement rule.pattern line, (∀ other, other ≠ st → ¬st.Inside other) →
        (st ∈ found ↔ rule.passes allow st.value = true) := by
  have ⟨found, horder, hyield, hfound⟩ :=
    rule.exists_found (Statement.fit_bijective line hp) allow file number
  refine ⟨found, horder, hyield, fun st hst => hfound st fun other hlt => ?_⟩
  rw [Statement.fit_stop]
  by_contra hin
  refine hst other ?_ (Statement.inside_of_lt hk hlt (Nat.lt_of_not_le hin))
  rintro rfl
  exact Nat.lt_irrefl _ hlt

theorem isKeyword_of_mem_flagsAndTargets (h : rule ∈ flagsAndTargets) (hp : rule.pattern.isStatement = true) :
    IsKeyword rule.pattern.keyword := by
  revert rule
  decide +kernel

theorem passes_iff_of_mem_flagsAndTargets (h : rule ∈ flagsAndTargets) {allow : Allowlist} {name : List Char} :
    rule.passes allow name = true ↔
      (rule.kind = .eventTarget → '.' ∉ name) ∧ allow.isPlaceholder (String.ofList name) = false := by
  have htest : rule.test = if rule.kind = .eventTarget then .unqualified else .any := by
    revert rule
    decide
  by_cases hk : rule.kind = .eventTarget <;>
    simp [passes, htest, hk, NameTest.accepts, isUnqualified]

end Rule

-- A statement is extracted exactly, unless its keyword lies in the value of another one. Names of event
-- targets have no dot: with one they name a scope of the target.
theorem statements_extracted {rule : Rule} {file : String}
    (hr : rule ∈ applicable Rule.flagsAndTargets .script file) (hp : rule.pattern.isStatement = true)
    (allow : Allowlist) (number : Nat) (raw : List Char) :
    let line := FileClass.script.significant raw
    ∃ found : List (Statement rule.pattern line), found.Pairwise (fun a b => a.start < b.start) ∧
      extractLine [rule] allow file number line =
        found.map (fun st => rule.occurrence file number st.value) ∧
      ∀ st : Statement rule.pattern line, (∀ other, other ≠ st → ¬st.Inside other) →
        (st ∈ found ↔ (rule.kind = .eventTarget → '.' ∉ st.value) ∧
          allow.isPlaceholder (String.ofList st.value) = false) := by
  intro line
  have hmem : rule ∈ Rule.flagsAndTargets := List.mem_of_mem_filter hr
  have hk := Rule.isKeyword_of_mem_flagsAndTargets hmem hp
  have ⟨found, horder, hyield, hfound⟩ := rule.exists_statements line hp hk allow file number
  refine ⟨found, horder, hyield, fun st hst => ?_⟩
  rw [hfound st hst, Rule.passes_iff_of_mem_flagsAndTargets hmem]

example : (Rule.flagsAndTargets.filter (·.pattern.isStatement)).map (String.ofList ·.pattern.keyword) =
    ["set_country_flag", "has_country_flag", "clr_country_flag", "set_state_flag", "has_state_flag",
     "clr_state_flag", "set_global_flag", "has_global_flag", "clr_global_flag", "save_event_target_as",
     "save_global_event_target_as", "event_target:", "has_event_target", "global_event_target",
     "clear_global_event_target"] := by decide +kernel

-- References to event targets.
def targetReference : Rule where
  kind := .eventTarget
  action := .use
  scope := { cls := .script, place := .outside Rule.tagAliases }
  pattern := .tagged "event_target:"
  test := .unqualified

theorem targetReference_mem : targetReference ∈ applicable Rule.flagsAndTargets .script "events/a.txt" := by
  decide +kernel

-- The second value holds the keyword, and what follows it there is not extracted once more.
theorem statements_extracted_keyword_in_value :
    let line := FileClass.script.significant
      "event_target:leader = event_target:event_target:x # event_target:y".toList
    targetReference ∈ applicable Rule.flagsAndTargets .script "events/a.txt" ∧
    targetReference.pattern.isStatement = true ∧
    ∃ found : List (Statement targetReference.pattern line),
      found.Pairwise (fun a b => a.start < b.start) ∧
      found.map (fun st => targetReference.occurrence "events/a.txt" 1 st.value) =
        ["leader", "event_target:x"].map (targetReference.occurrence "events/a.txt" 1 ·.toList) := by
  intro line
  have ⟨found, horder, hyield, _⟩ := statements_extracted targetReference_mem rfl .standard 1
    "event_target:leader = event_target:event_target:x # event_target:y".toList
  refine ⟨targetReference_mem, rfl, found, horder, hyield.symm.trans ?_⟩
  decide +kernel

-- With a dot in the value nothing is extracted, although no marker is in it.
def ownerLine : List Char := FileClass.script.significant "event_target:leader.owner = yes".toList

def ownerStatement : Statement targetReference.pattern ownerLine where
  front := []
  link := []
  value := "leader.owner".toList
  rest := " = yes".toList
  text := by decide +kernel
  free := rfl
  links := rfl
  run := by decide +kernel

theorem exists_statement_not_extracted :
    targetReference ∈ applicable Rule.flagsAndTargets .script "events/a.txt" ∧
    (∀ other, other ≠ ownerStatement → ¬ownerStatement.Inside other) ∧
    Allowlist.standard.isPlaceholder (String.ofList ownerStatement.value) = false ∧
    extractLine [targetReference] .standard "events/a.txt" 1 ownerLine = [] := by
  refine ⟨targetReference_mem, ?_, by decide +kernel, by decide +kernel⟩
  exact fun other _ => Statement.not_inside_of_start_eq_zero (by decide +kernel) rfl

end CrossRef
