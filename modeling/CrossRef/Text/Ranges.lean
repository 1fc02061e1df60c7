namespace CrossRef.Text

def inRanges : List (Nat × Nat) → Nat → Bool
  | [], _ => false
  | (lo, hi) :: rest, n => if n < lo then false else n ≤ hi || inRanges rest n

@[simp] theorem inRanges_nil (n : Nat) : inRanges [] n = false := rfl

theorem exists_range_of_inRanges {ranges : List (Nat × Nat)} {n : Nat} (h : inRanges ranges n = true) :
    ∃ r ∈ ranges, r.1 ≤ n ∧ n ≤ r.2 := by
  induction ranges with
  | nil => simp at h
  | cons r rest ih =>
    simp only [inRanges] at h
    split at h
    case isTrue => simp at h
    case isFalse hlo =>
      rcases Bool.or_eq_true _ _ |>.mp h with hhi | hrest
      · exact ⟨r, by simp, by omega, by simpa using hhi⟩
      · have ⟨r', hmem, hr'⟩ := ih hrest
        exact ⟨r', by simp [hmem], hr'⟩

end CrossRef.Text
