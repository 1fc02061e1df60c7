import CrossRef.Proofs.Layout

namespace CrossRef

open Text

-- Every hash has an odd number of quotation marks before it.
def HashesQuoted (s : List Char) : Prop := ∀ front rest, s = front ++ '#' :: rest → Odd (front.count '"')

section

variable {inQuotes : Bool} {s t : List Char}

theorem uncommentedFrom_isPrefix (inQuotes : Bool) (s : List Char) : uncommentedFrom inQuotes s <+: s := by
  induction s generalizing inQuotes
  case nil => exact List.prefix_rfl
  case cons c s ih =>
    rw [uncommentedFrom]
    split_ifs
    · exact List.cons_prefix_cons.mpr ⟨rfl, ih _⟩
    · exact List.nil_prefix
    · exact List.cons_prefix_cons.mpr ⟨rfl, ih _⟩

theorem uncommentedFrom_uncommentedFrom (inQuotes : Bool) (s : List Char) :
    uncommentedFrom inQuotes (uncommentedFrom inQuotes s) = uncommentedFrom inQuotes s := by
  induction s generalizing inQuotes
  case nil => rfl
  case cons c s ih =>
    rw [uncommentedFrom]
    split_ifs with hquote hhash
    · simp [uncommentedFrom, hquote, ih]
    · rfl
    · simp [uncommentedFrom, hquote, hhash, ih]

-- A comment starts at a hash outside of quotations.
theorem exists_hash_of_ne (h : uncommentedFrom inQuotes s ≠ s) :
    ∃ front rest, s = front ++ '#' :: rest ∧ endsQuoted inQuotes front = false := by
  induction s generalizing inQuotes
  case nil => exact absurd rfl h
  case cons c s ih =>
    rw [uncommentedFrom] at h
    split_ifs at h with hquote hhash
    · obtain ⟨front, rest, rfl, hfront⟩ := ih fun he => h (by rw [he])
      exact ⟨c :: front, rest, rfl, by rwa [hquote, endsQuoted_cons_quote]⟩
    · exact ⟨[], s, by rw [hhash.1]; rfl, by rw [endsQuoted_of_not_mem (by simp), hhash.2]⟩
    · obtain ⟨front, rest, rfl, hfront⟩ := ih fun he => h (by rw [he])
      exact ⟨c :: front, rest, rfl, by rwa [endsQuoted_cons_of_ne hquote]⟩

-- After a text that ends outside of quotations, a hash starts a comment, if none has started before.
theorem uncommentedFrom_append_hash (h : endsQuoted inQuotes s = false) (t : List Char) :
    uncommentedFrom inQuotes (s ++ '#' :: t) = uncommentedFrom inQuotes s := by
  by_cases hs : uncommentedFrom inQuotes s = s
  · rw [uncommentedFrom_append_of_eq hs, h, hs]
    simp [uncommentedFrom]
  · exact uncommentedFrom_append_of_ne hs _

theorem endsQuoted_false_iff : endsQuoted false s = true ↔ Odd (s.count '"') := by simp [endsQuoted]

theorem uncommented_eq_self_iff : uncommented s = s ↔ HashesQuoted s := by
  constructor
  · rintro h front rest rfl
    rw [← endsQuoted_false_iff]
    by_contra hends
    have hcut : uncommented (front ++ '#' :: rest) = uncommented front :=
      uncommentedFrom_append_hash (Bool.eq_false_iff.mpr hends) rest
    have hle := (uncommentedFrom_isPrefix false front).length_le
    have := congrArg List.length (h.symm.trans hcut)
    simp [uncommented] at this
    omega
  · intro h
    by_contra hne
    obtain ⟨front, rest, hs, hends⟩ := exists_hash_of_ne hne
    have := endsQuoted_false_iff.mpr (h front rest hs)
    simp [hends] at this

-- The part of a line before its comment is its longest part in which each hash is quoted.
theorem prefix_uncommented {s p : List Char} (hp : p <+: s) (h : HashesQuoted p) : p <+: uncommented s := by
  obtain ⟨t, rfl⟩ := hp
  rw [uncommented, uncommentedFrom_append_of_eq (uncommented_eq_self_iff.mpr h)]
  exact List.prefix_append ..

end

theorem significant_eq (cls : FileClass) (line : List Char) :
    cls.significant line = if cls = .localisation then line else uncommented line := by
  cases cls <;> rfl

-- Comments cannot influence what is found, and a hash starts one only outside of quotations. Of localised
-- texts the whole lines are read.
theorem comments_without_influence (checker : Checker) (allow : Allowlist) (file : String) :
    (FileClass.ofPath? file = some .script ∨ FileClass.ofPath? file = some .interface →
      ∀ before line comment after : String, IsLineStart before.toList → IsLineEnd after.toList →
        '\n' ∉ line.toList → Even (line.toList.count '"') → '\n' ∉ comment.toList →
        extract checker.rules allow file (before ++ (line ++ "#" ++ comment) ++ after) =
          extract checker.rules allow file (before ++ line ++ after)) ∧
    (∀ line, uncommented line <+: line ∧ HashesQuoted (uncommented line) ∧
      ∀ p, p <+: line → HashesQuoted p → p <+: uncommented line) ∧
    ∀ (cls : FileClass) (content : String), FileClass.ofPath? file = some cls →
      extract checker.rules allow file content =
        ((lines (dropByteOrderMark content.toList)).zipIdx 1).flatMap fun (line, number) =>
          extractLine (applicable checker.rules cls file) allow file number
            (if cls = .localisation then line else uncommented line) := by
  refine ⟨?comment, fun line => ⟨?before, ?quoted, ?longest⟩, ?lines⟩
  case comment =>
    intro hcls before line comment after hs ht hline heven hcomment
    have hcut : uncommented (line.toList ++ '#' :: comment.toList) = uncommented line.toList := by
      refine uncommentedFrom_append_hash (Bool.eq_false_iff.mpr fun hends => ?_) _
      exact Nat.not_odd_iff_even.mpr heven (endsQuoted_false_iff.mp hends)
    have hnl : '\n' ∉ line.toList ++ '#' :: comment.toList := by simp [hline, hcomment]
    have h := @extract_congr_line checker allow file _ _ _ _ hs ht hnl hline fun cls hc number => by
      have hcomments : cls.hasComments = true := by
        obtain hcls | hcls := hcls <;> obtain rfl := Option.some.inj (hc.symm.trans hcls) <;> rfl
      simp only [FileClass.significant, if_pos hcomments, hcut]
    simpa [String.append_assoc] using h
  case before => exact uncommentedFrom_isPrefix false line
  case quoted => exact uncommented_eq_self_iff.mp (uncommentedFrom_uncommentedFrom false line)
  case longest => exact fun p hp h => prefix_uncommented hp h
  case lines =>
    intro cls content hcls
    simp only [extract, hcls, extractLines_eq_flatMap, significant_eq]

-- The line has a hash in a quotation and a comment of its own, and the new comment opens a quotation.
theorem comments_without_influence_quotedHash :
    let before := "text = \"\n"
    let line := "text = \"[a]\" \"#\" text = \"[b]\" # \"[c]\""
    FileClass.ofPath? "a.gui" = some .interface ∧ IsLineStart before.toList ∧ IsLineEnd "\r\n".toList ∧
    Even (line.toList.count '"') ∧
    extract Checker.scriptedLocalisation.rules .standard "a.gui"
        (before ++ (line ++ "#" ++ " \" text = \"[d]\"") ++ "\r\n") =
      [⟨.scriptedLocalisation, "a", ⟨"a.gui", 2⟩, .use⟩, ⟨.scriptedLocalisation, "b", ⟨"a.gui", 2⟩, .use⟩] := by
  intro before line
  have hcls : FileClass.ofPath? "a.gui" = some .interface := rfl
  have hs : IsLineStart before.toList := .inr (.inr ⟨"text = \"".toList, by decide⟩)
  have ht : IsLineEnd "\r\n".toList := .inr (.inr ⟨[], rfl⟩)
  have heven : Even (line.toList.count '"') := by decide
  refine ⟨hcls, hs, ht, heven, ?_⟩
  rw [(comments_without_influence _ _ _).1 (.inr hcls) before line _ _ hs ht (by decide) heven (by decide)]
  decide +kernel

end CrossRef
