import CrossRef.Proofs.Extraction
import CrossRef.Proofs.Statement
import Mathlib.Data.List.Infix

namespace CrossRef

open Text

-- A key in brackets is a text of its own and no scripted localisation.
def IsBracketed (name : String) : Prop := ['['] <+: name.toList

instance (name : String) : Decidable (IsBracketed name) := inferInstanceAs (Decidable (_ <+: _))

namespace Allowlist

variable {allow : Allowlist} {name : String}

theorem isPlaceholder_iff : allow.isPlaceholder name = true ↔ ∃ m ∈ allow.markers, m.toList <:+: name.toList :=
  holdsAny_iff

-- The shortest name in brackets is the bracket alone, so its markers are in all of them.
theorem isPlaceholder_of_isBracketed (h : allow.isPlaceholder "[" = true) (hb : IsBracketed name) :
    allow.isPlaceholder name = true := by
  have ⟨m, hm, hin⟩ := isPlaceholder_iff.mp h
  exact isPlaceholder_iff.mpr ⟨m, hm, hin.trans hb.isInfix⟩

-- The empty marker is left out, and no other marker is shorter than the bracket.
theorem isPlaceholder_bracket_iff {markers names : List String} {filters : List (Kind × KindFilter)} :
    { ofMarkers markers names with filters }.isPlaceholder "[" = true ↔ "[" ∈ markers := by
  have hchars : "[".toList = ['['] := by decide
  rw [isPlaceholder_iff]
  constructor
  · rintro ⟨m, hm, hin⟩
    have ⟨hmem, hne⟩ := List.mem_filter.mp hm
    rw [hchars, List.infix_singleton_iff] at hin
    obtain hm | hm := hin
    · simp [String.toList_eq_nil_iff.mp hm] at hne
    · exact String.toList_inj.mp (hm.trans hchars.symm) ▸ hmem
  · intro h
    exact ⟨"[", List.mem_filter.mpr ⟨h, by decide⟩, List.infix_rfl⟩

end Allowlist

-- A line with the shortest definition in brackets.
theorem extract_bracket (allow : Allowlist) (h : allow.isPlaceholder "[" = false) :
    extract Rule.scriptedLocalisations allow "a.txt" "localization_key = [" =
      [⟨.scriptedLocalisation, "[", ⟨"a.txt", 1⟩, .set⟩] := by
  have hall : extract Rule.scriptedLocalisations .empty "a.txt" "localization_key = [" =
      [⟨.scriptedLocalisation, "[", ⟨"a.txt", 1⟩, .set⟩] := by decide +kernel
  rw [extract_eq_filter, hall]
  simp [h]

-- Keys become definitions whether they are in brackets or not. It is the markers that keep those in
-- brackets out, and they do so only if the bracket itself is one of them.
theorem bracketed_keys_undefined_iff (markers names : List String) (filters : List (Kind × KindFilter)) :
    let allow := { Allowlist.ofMarkers markers names with filters }
    ((∀ file content, FileClass.ofPath? file = some .script →
        ∀ o ∈ extract Rule.scriptedLocalisations allow file content,
          o.kind = .scriptedLocalisation → o.action = .set → ¬IsBracketed o.name) ↔ "[" ∈ markers) ∧
    ∀ (file : String) (number : Nat) (raw : List Char),
      let line := FileClass.script.significant raw
      ∃ keys : List (Statement (.quotable "localization_key") line),
        keys.Pairwise (fun a b => a.start < b.start) ∧
        extractLine (applicable Rule.scriptedLocalisations .script file) allow file number line =
          keys.map (fun st => ⟨.scriptedLocalisation, String.ofList st.value, ⟨file, number⟩, .set⟩) ∧
        ∀ st : Statement (.quotable "localization_key") line, (∀ other, other ≠ st → ¬st.Inside other) →
          (st ∈ keys ↔ '.' ∉ st.value ∧ allow.isPlaceholder (String.ofList st.value) = false) := by
  intro allow
  refine ⟨⟨?marker, ?excluded⟩, ?keys⟩
  case marker =>
    intro h
    have hbracket : allow.isPlaceholder "[" = true := by
      by_contra hno
      have hyield := extract_bracket allow (by simpa using hno)
      exact h "a.txt" "localization_key = [" rfl _ (hyield ▸ List.mem_singleton_self _) rfl rfl (by decide)
    exact Allowlist.isPlaceholder_bracket_iff.mp hbracket
  case excluded =>
    intro hm file content _ o ho _ _ hb
    rw [extract_eq_filter] at ho
    have hno := (List.mem_filter.mp ho).2
    have hbracket : allow.isPlaceholder "[" = true := Allowlist.isPlaceholder_bracket_iff.mpr hm
    simp [Allowlist.isPlaceholder_of_isBracketed hbracket hb] at hno
  case keys =>
    intro file number raw line
    -- One rule of the table applies to scripts.
    let rule : Rule :=
      ⟨.scriptedLocalisation, .set, { cls := .script }, .quotable "localization_key", .unqualified⟩
    obtain ⟨keys, horder, hyield, hkeys⟩ := rule.exists_statements line rfl (by decide +kernel) allow file number
    refine ⟨keys, horder, hyield, fun st hst => ?_⟩
    simp [hkeys st hst, Rule.passes, NameTest.accepts, isUnqualified, rule]

-- A configuration can give markers of its own, without the bracket.
theorem exists_bracketed_definition :
    FileClass.ofPath? "common/scripted_localisation/x.txt" = some .script ∧
    ∃ o ∈ extract Rule.scriptedLocalisations (.ofMarkers ["@"] []) "common/scripted_localisation/x.txt"
        "localization_key = \"[regular_key]\"",
      o.kind = .scriptedLocalisation ∧ o.action = .set ∧ IsBracketed o.name := by
  decide +kernel

end CrossRef
