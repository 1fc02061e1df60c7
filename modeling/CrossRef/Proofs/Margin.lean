import CrossRef.Proofs.Extraction
import CrossRef.Proofs.Reference
import Mathlib.Algebra.Ring.Parity

namespace CrossRef

open Text

-- What may stand before the text of a line: white space and the byte order mark.
def isMargin (c : Char) : Bool := isBlank c || c == byteOrderMark

theorem isMargin_of_isBlank {c : Char} (h : isBlank c = true) : isMargin c = true := by simp [isMargin, h]

theorem isWord_of_isMargin {c : Char} (h : isMargin c = true) : isWord c = false := by
  have hmark : isWord byteOrderMark = false := by decide +kernel
  have hapart : ∀ r ∈ blankRanges, ∀ w ∈ wordRanges, r.2 < w.1 ∨ w.2 < r.1 := by decide +kernel
  refine Bool.eq_false_iff.mpr fun hw => ?_
  obtain hb | hc := Bool.or_eq_true _ _ |>.mp h
  · have ⟨r, hr, _, _⟩ := exists_range_of_inRanges hb
    have ⟨w, hmem, _, _⟩ := exists_range_of_inRanges hw
    have := hapart r hr w hmem
    omega
  · simp [beq_iff_eq.mp hc, hmark] at hw

-- Text that ends in something else than white space does not reach into white space at the end.
theorem exists_append_of_solid {s back read t : List Char} (h : s ++ back = read ++ t)
    (hread : ∀ c ∈ read.getLast?, isBlank c = false) (hback : ∀ c ∈ back, isBlank c = true) :
    ∃ tail, s = read ++ tail ∧ t = tail ++ back := by
  obtain ⟨tail, hs, ht⟩ | ⟨past, hr, hrest⟩ := List.append_eq_append_iff.mp h.symm
  · exact ⟨tail, hs, ht⟩
  · obtain rfl | ⟨init, c, rfl⟩ := List.eq_nil_or_concat' past
    · exact ⟨[], by simpa using hr.symm, by simpa using hrest.symm⟩
    · have hc := hread c (by simp [hr])
      simp [hback c (by simp [hrest])] at hc

namespace Hit

-- The hit with more text after it.
def extend (back : List Char) (hit : Hit) : Hit := { hit with rest := hit.rest ++ back }

-- White space after a text changes nothing for a reading that ends in something else.
theorem append_eq_map_extend {f : List Char → Option Hit} (Reads : List Char → List Char → Prop)
    (Ends : List Char → Prop) {back : List Char} (hback : ∀ c ∈ back, isBlank c = true)
    (hf : ∀ s hit, f s = some hit ↔ (∃ read, Reads read hit.name ∧ s = read ++ hit.rest) ∧ Ends hit.rest)
    (hread : ∀ read name, Reads read name → ∀ c ∈ read.getLast?, isBlank c = false)
    (hends : ∀ rest, Ends (rest ++ back) ↔ Ends rest) (s : List Char) :
    f (s ++ back) = (f s).map (extend back) := by
  refine Option.ext fun hit => ?_
  rw [Option.map_eq_some_iff]
  constructor
  · intro h
    have ⟨⟨read, hr, hs⟩, he⟩ := (hf _ _).mp h
    have ⟨tail, hs, ht⟩ := exists_append_of_solid hs (hread _ _ hr) hback
    refine ⟨⟨hit.name, tail⟩, (hf _ _).mpr ⟨⟨read, hr, hs⟩, (hends tail).mp (ht ▸ he)⟩, ?_⟩
    simp [extend, ← ht]
  · rintro ⟨hit, h, rfl⟩
    have ⟨⟨read, hr, hs⟩, he⟩ := (hf _ _).mp h
    exact (hf _ _).mpr ⟨⟨read, hr, by simp [hs, extend]⟩, (hends _).mpr he⟩

end Hit

section

variable {before : Option Char} {back : List Char}

theorem foldCase_of_isBlank {c : Char} (h : isBlank c = true) : foldCase c = c := by
  obtain hlt | hge := Nat.lt_or_ge c.toNat 128
  · have hascii : ∀ n < 128, isBlank (Char.ofNat n) = true → foldCase (Char.ofNat n) = Char.ofNat n := by decide
    simpa using hascii c.toNat hlt (by simpa using h)
  · have hs : c ≠ '\u017F' := by
      rintro rfl
      exact absurd h (by decide)
    have hk : c ≠ '\u212A' := by
      rintro rfl
      exact absurd h (by decide)
    simp [foldCase, hs, hk, toLower_of_le hge]

theorem IsProperty.isBlank_of_mem {property : List Char} (h : IsProperty property) {c : Char}
    (hc : c ∈ property) : isBlank c = false := by
  have hsolid : ".getname".toList.all (!isBlank ·) = true ∧ ".getadjective".toList.all (!isBlank ·) = true := by
    decide +kernel
  refine Bool.eq_false_iff.mpr fun hb => ?_
  have hm : c ∈ property.map foldCase := List.mem_map.mpr ⟨c, hc, foldCase_of_isBlank hb⟩
  cases h
  case inl h => simpa [hb] using List.all_eq_true.mp hsolid.1 c (h ▸ hm)
  case inr h => simpa [hb] using List.all_eq_true.mp hsolid.2 c (h ▸ hm)

theorem isNameChar_of_head?_append_blanks (hback : ∀ c ∈ back, isBlank c = true) (rest : List Char) :
    (∀ c ∈ (rest ++ back).head?, isNameChar c = false) ↔ ∀ c ∈ rest.head?, isNameChar c = false := by
  cases rest
  case nil =>
    refine iff_of_true (fun c hc => ?_) (by simp)
    simp [isNameChar, hback c (List.mem_of_head? hc)]
  case cons => simp

namespace Pattern

variable {p : Pattern}

theorem hitAt?_append_of_isStatement (hp : p.isStatement = true) (hback : ∀ c ∈ back, isBlank c = true)
    (s : List Char) : p.hitAt? before (s ++ back) = (p.hitAt? before s).map (Hit.extend back) := by
  refine Hit.append_eq_map_extend
    (fun read name => startsWord before = true ∧ (∃ link, p.Links link ∧ read = p.keyword ++ link ++ name) ∧
      name ≠ [] ∧ ∀ c ∈ name, isNameChar c = true)
    (fun rest => ∀ c ∈ rest.head?, isNameChar c = false) hback (fun s hit => ⟨?reads, ?hits⟩) ?solid
    (isNameChar_of_head?_append_blanks hback) s
  case reads =>
    intro h
    have ⟨hb, ⟨link, hl, hs⟩, hne, hall, hends⟩ := exists_links_of_hitAt? hp h
    exact ⟨⟨_, ⟨hb, ⟨link, hl, rfl⟩, hne, hall⟩, by simpa using hs⟩, hends⟩
  case hits =>
    rintro ⟨⟨_, ⟨hb, ⟨link, hl, rfl⟩, hne, hall⟩, rfl⟩, hends⟩
    rw [List.append_assoc]
    exact hitAt?_of_links hb hl ⟨hne, hall, hends⟩
  case solid =>
    rintro _ name ⟨_, ⟨link, _, rfl⟩, hne, hall⟩ c hc
    rw [List.getLast?_append_of_ne_nil _ hne] at hc
    exact isBlank_of_isNameChar (hall c (List.mem_of_getLast? hc))

theorem flagInBlock?_of_blanks (hback : ∀ c ∈ back, isBlank c = true) : flagInBlock? before back = none := by
  induction back generalizing before
  case nil => rfl
  case cons c back ih =>
    have hno : assigned? ['f', 'l', 'a', 'g'] before (c :: back) = none :=
      @hitAt?_append_of_isStatement before (c :: back) (.assigned "flag") rfl hback []
    have hc : c ≠ '}' := by
      rintro rfl
      exact absurd (hback '}' (List.mem_cons_self ..)) (by decide)
    simpa [flagInBlock?, hno, hc] using ih fun c hc => hback c (List.mem_cons_of_mem _ hc)

theorem flagInBlock?_append_blanks (hback : ∀ c ∈ back, isBlank c = true) (s : List Char) :
    flagInBlock? before (s ++ back) = (flagInBlock? before s).map (Hit.extend back) := by
  induction s generalizing before
  case nil => exact flagInBlock?_of_blanks hback
  case cons c s ih =>
    have hflag : assigned? ['f', 'l', 'a', 'g'] before (c :: (s ++ back)) =
        (assigned? ['f', 'l', 'a', 'g'] before (c :: s)).map (Hit.extend back) :=
      @hitAt?_append_of_isStatement before back (.assigned "flag") rfl hback (c :: s)
    simp only [List.cons_append, flagInBlock?, hflag]
    cases assigned? ['f', 'l', 'a', 'g'] before (c :: s)
    case some hit => rfl
    case none =>
      simp only [Option.map_none]
      split
      · rfl
      · exact ih

theorem hitAt?_flagged_iff {keyword : String} {s : List Char} {hit : Hit} :
    (flagged keyword).hitAt? before s = some hit ↔ startsWord before = true ∧
      ∃ link body, IsEquals link ∧ s = keyword.toList ++ link ++ '{' :: body ∧
        flagInBlock? (some '{') body = some hit := by
  simp only [hitAt?]
  constructor
  · intro h
    split at h
    · rename_i body hk
      obtain ⟨hb, ⟨link, hl, hs⟩, _⟩ := bind_afterEquals?_eq_some_iff.mp hk
      exact ⟨hb, link, body, hl, hs, h⟩
    · simp at h
  · rintro ⟨hb, link, body, hl, hs, h⟩
    rw [bind_afterEquals?_eq_some_iff.mpr ⟨hb, ⟨link, hl, hs⟩, by simp; decide⟩]
    exact h

theorem hitAt?_flagged_append (hback : ∀ c ∈ back, isBlank c = true) (keyword : String) (s : List Char) :
    (flagged keyword).hitAt? before (s ++ back) =
      ((flagged keyword).hitAt? before s).map (Hit.extend back) := by
  refine Option.ext fun hit => ?_
  simp only [Option.map_eq_some_iff, hitAt?_flagged_iff]
  constructor
  · rintro ⟨hb, link, body, hl, hs, h⟩
    have htext : s ++ back = (keyword.toList ++ link ++ ['{']) ++ body := by simpa using hs
    obtain ⟨tail, hs', rfl⟩ := exists_append_of_solid htext (by simp; decide) hback
    rw [flagInBlock?_append_blanks hback, Option.map_eq_some_iff] at h
    have ⟨hit, h, hext⟩ := h
    exact ⟨hit, ⟨hb, link, tail, hl, by simpa using hs', h⟩, hext⟩
  · rintro ⟨hit, ⟨hb, link, body, hl, rfl, h⟩, rfl⟩
    refine ⟨hb, link, body ++ back, hl, by simp, ?_⟩
    rw [flagInBlock?_append_blanks hback, h]
    rfl

theorem hitAt?_quotedReference_append (hback : ∀ c ∈ back, isBlank c = true) (keyword : String) (s : List Char) :
    (quotedReference keyword).hitAt? before (s ++ back) =
      ((quotedReference keyword).hitAt? before s).map (Hit.extend back) := by
  refine Hit.append_eq_map_extend (f := (quotedReference keyword).hitAt? before)
    (fun read name => startsWord before = true ∧
      (∃ link, IsEquals link ∧ read = keyword.toList ++ link ++ '"' :: '[' :: name ++ [']', '"']) ∧
      name ≠ [] ∧ ∀ c ∈ name, isReferenceChar c = true)
    (fun _ => True) hback (fun s hit => hitAt?_quotedReference_iff.trans ⟨?reads, ?hits⟩) ?solid (fun _ => Iff.rfl) s
  case reads =>
    rintro ⟨hb, ⟨link, hl, rfl⟩, hname⟩
    exact ⟨⟨_, ⟨hb, ⟨link, hl, rfl⟩, hname⟩, by simp⟩, trivial⟩
  case hits =>
    rintro ⟨⟨_, ⟨hb, ⟨link, hl, rfl⟩, hname⟩, rfl⟩, _⟩
    exact ⟨hb, ⟨link, hl, by simp⟩, hname⟩
  case solid =>
    rintro _ name ⟨_, ⟨link, _, rfl⟩, _⟩
    rw [List.getLast?_append]
    simp
    decide

theorem hitAt?_reference_append (hback : ∀ c ∈ back, isBlank c = true) (s : List Char) :
    reference.hitAt? before (s ++ back) = (reference.hitAt? before s).map (Hit.extend back) := by
  refine Hit.append_eq_map_extend (f := reference.hitAt? before)
    (fun read name => read = '[' :: name ++ [']'] ∧ name ≠ [] ∧ ∀ c ∈ name, isReferenceChar c = true)
    (fun _ => True) hback (fun s hit => hitAt?_reference_iff.trans ?_) ?_ (fun _ => Iff.rfl) s
  · simp [and_comm]
  · rintro _ name ⟨rfl, _⟩
    rw [List.getLast?_append]
    simp
    decide

theorem hitAt?_displayed_append (hback : ∀ c ∈ back, isBlank c = true) (s : List Char) :
    displayed.hitAt? before (s ++ back) = (displayed.hitAt? before s).map (Hit.extend back) := by
  refine Hit.append_eq_map_extend (f := displayed.hitAt? before)
    (fun read name => (∃ property, IsProperty property ∧ read = '[' :: (name ++ property)) ∧
      name ≠ [] ∧ ∀ c ∈ name, isDisplayChar c = true)
    (fun _ => True) hback (fun s hit => hitAt?_displayed_iff.trans ⟨?reads, ?hits⟩) ?solid (fun _ => Iff.rfl) s
  case reads =>
    rintro ⟨⟨property, hp, rfl⟩, hname⟩
    exact ⟨⟨_, ⟨⟨property, hp, rfl⟩, hname⟩, by simp⟩, trivial⟩
  case hits =>
    rintro ⟨⟨_, ⟨⟨property, hp, rfl⟩, hname⟩, rfl⟩, _⟩
    exact ⟨⟨property, hp, by simp⟩, hname⟩
  case solid =>
    rintro _ name ⟨⟨property, hp, rfl⟩, hne, hall⟩ c hc
    have hm : c ∈ '[' :: (name ++ property) := List.mem_of_getLast? hc
    obtain rfl | hm := List.mem_cons.mp hm
    · decide
    obtain hm | hm := List.mem_append.mp hm
    · exact isBlank_of_isDisplayChar (hall c hm)
    · exact hp.isBlank_of_mem hm

theorem hitAt?_append_blanks (hback : ∀ c ∈ back, isBlank c = true) (s : List Char) :
    p.hitAt? before (s ++ back) = (p.hitAt? before s).map (Hit.extend back) := by
  cases p
  case assigned => exact hitAt?_append_of_isStatement rfl hback s
  case tagged => exact hitAt?_append_of_isStatement rfl hback s
  case quotable => exact hitAt?_append_of_isStatement rfl hback s
  case flagged keyword => exact hitAt?_flagged_append hback keyword s
  case quotedReference keyword => exact hitAt?_quotedReference_append hback keyword s
  case reference => exact hitAt?_reference_append hback s
  case displayed => exact hitAt?_displayed_append hback s

-- What stands first wherever a pattern fits.
def opening : Pattern → List Char
  | reference | displayed => ['[']
  | p => p.keyword

-- Patterns that open with a word or a bracket.
def isAnchored (p : Pattern) : Bool := p.opening.head?.any fun c => isWord c || c == '['

theorem opening_prefix_of_hitAt? {s : List Char} {hit : Hit} (h : p.hitAt? before s = some hit) :
    p.opening <+: s := by
  cases p
  case flagged =>
    obtain ⟨_, link, body, _, rfl, _⟩ := hitAt?_flagged_iff.mp h
    exact ⟨_, (List.append_assoc ..).symm⟩
  case quotedReference =>
    obtain ⟨_, ⟨link, _, rfl⟩, _⟩ := hitAt?_quotedReference_iff.mp h
    exact ⟨_, (List.append_assoc ..).symm⟩
  case reference => exact ⟨_, (hitAt?_reference_iff.mp h).1.symm⟩
  case displayed =>
    obtain ⟨⟨_, _, rfl⟩, _⟩ := hitAt?_displayed_iff.mp h
    exact ⟨_, rfl⟩
  all_goals
    obtain ⟨_, ⟨link, _, rfl⟩, _⟩ := exists_links_of_hitAt? rfl h
    exact ⟨_, (List.append_assoc ..).symm⟩

theorem hitAt?_of_isMargin (hp : p.isAnchored = true) {c : Char} (hc : isMargin c = true) (s : List Char) :
    p.hitAt? before (c :: s) = none := by
  have hbracket : isMargin '[' = false := by decide
  by_contra hsome
  obtain ⟨hit, h⟩ := Option.ne_none_iff_exists'.mp hsome
  have hopen := opening_prefix_of_hitAt? h
  cases ho : p.opening
  case nil => simp [isAnchored, ho] at hp
  case cons d rest =>
    obtain rfl : d = c := (List.cons_prefix_cons.mp (ho ▸ hopen)).1
    obtain hw | rfl : isWord d = true ∨ d = '[' := by simpa [isAnchored, ho] using hp
    · simp [isWord_of_isMargin hc] at hw
    · simp [hc] at hbracket

theorem hitAt?_congr {before' : Option Char} (h : startsWord before = startsWord before') (s : List Char) :
    p.hitAt? before s = p.hitAt? before' s := by
  have hk (keyword : List Char) : afterKeyword? keyword before s = afterKeyword? keyword before' s := by
    simp [afterKeyword?, h]
  cases p
  case reference => exact Option.ext fun hit => hitAt?_reference_iff.trans hitAt?_reference_iff.symm
  case displayed => exact Option.ext fun hit => hitAt?_displayed_iff.trans hitAt?_displayed_iff.symm
  all_goals simp only [hitAt?, assigned?, hk]

theorem namesFrom_congr {before' : Option Char} (h : startsWord before = startsWord before') (skip : Nat)
    (s : List Char) : p.namesFrom skip before s = p.namesFrom skip before' s := by
  cases s
  case nil => simp [namesFrom]
  case cons c s =>
    cases skip
    case succ => simp [namesFrom]
    case zero => simp [namesFrom, hitAt?_congr h]

theorem namesFrom_of_isMargin (hp : p.isAnchored = true) (skip : Nat) {s : List Char}
    (h : ∀ c ∈ s, isMargin c = true) : p.namesFrom skip before s = [] := by
  induction s generalizing skip before
  case nil => simp [namesFrom]
  case cons c s ih =>
    obtain ⟨hc, hs⟩ := List.forall_mem_cons.mp h
    cases skip
    case succ skip => exact ih skip hs
    case zero => simpa [namesFrom, hitAt?_of_isMargin hp hc] using ih 0 hs

theorem namesFrom_margin_append (hp : p.isAnchored = true) {front : List Char}
    (h : ∀ c ∈ front, isMargin c = true) (hb : startsWord before = true) (s : List Char) :
    p.namesFrom 0 before (front ++ s) = p.namesFrom 0 none s := by
  induction front generalizing before
  case nil => exact namesFrom_congr hb 0 s
  case cons c front ih =>
    obtain ⟨hc, hfront⟩ := List.forall_mem_cons.mp h
    simpa [namesFrom, hitAt?_of_isMargin hp hc] using ih hfront (by simp [isWord_of_isMargin hc])

theorem namesFrom_append_blanks (hp : p.isAnchored = true) (hback : ∀ c ∈ back, isBlank c = true) (skip : Nat)
    (s : List Char) : p.namesFrom skip before (s ++ back) = p.namesFrom skip before s := by
  induction s generalizing skip before
  case nil =>
    simp only [namesFrom]
    exact namesFrom_of_isMargin hp skip fun c hc => isMargin_of_isBlank (hback c hc)
  case cons c s ih =>
    cases skip
    case succ skip => exact ih skip
    case zero =>
      have hhit := @hitAt?_append_blanks before back p hback (c :: s)
      rw [List.cons_append] at hhit
      simp only [List.cons_append, namesFrom, hhit]
      cases p.hitAt? before (c :: s)
      case none => exact ih 0
      case some hit => simp [Hit.extend, ih, Nat.add_sub_add_right]

-- What stands around the text of a line gives no names and hides none.
theorem names_of_margins (hp : p.isAnchored = true) {front : List Char}
    (hfront : ∀ c ∈ front, isMargin c = true) (hback : ∀ c ∈ back, isBlank c = true) (s : List Char) :
    p.names (front ++ s ++ back) = p.names s := by
  rw [names, namesFrom_append_blanks hp hback, namesFrom_margin_append hp hfront rfl, names]

end Pattern

end

section

variable {inQuotes : Bool} {s : List Char}

-- Whether a text ends inside of a quotation, read from inside or outside of one.
def endsQuoted (inQuotes : Bool) (s : List Char) : Bool := inQuotes ^^ decide (Odd (s.count '"'))

theorem endsQuoted_cons_quote : endsQuoted inQuotes ('"' :: s) = endsQuoted (!inQuotes) s := by
  have hodd : Odd (('"' :: s).count '"') ↔ ¬Odd (s.count '"') := by rw [List.count_cons_self, Nat.odd_add_one]
  rw [endsQuoted, decide_eq_decide.mpr hodd, decide_not, Bool.xor_not, ← Bool.not_xor]
  rfl

theorem endsQuoted_cons_of_ne {c : Char} (h : c ≠ '"') : endsQuoted inQuotes (c :: s) = endsQuoted inQuotes s := by
  rw [endsQuoted, List.count_cons_of_ne h]
  rfl

theorem endsQuoted_of_not_mem (h : '"' ∉ s) : endsQuoted inQuotes s = inQuotes := by
  simp [endsQuoted, List.count_eq_zero.mpr h]

theorem uncommentedFrom_of_not_mem (hq : '"' ∉ s) (hh : '#' ∉ s) : uncommentedFrom inQuotes s = s := by
  induction s
  case nil => rfl
  case cons c s ih =>
    simp only [List.mem_cons, not_or] at hq hh
    simp [uncommentedFrom, Ne.symm hq.1, Ne.symm hh.1, ih hq.2 hh.2]

-- A text without a comment is read on after it.
theorem uncommentedFrom_append_of_eq (h : uncommentedFrom inQuotes s = s) (t : List Char) :
    uncommentedFrom inQuotes (s ++ t) = s ++ uncommentedFrom (endsQuoted inQuotes s) t := by
  induction s generalizing inQuotes
  case nil => rw [endsQuoted_of_not_mem (by simp), List.nil_append, List.nil_append]
  case cons c s ih =>
    simp only [uncommentedFrom, List.cons_append] at h ⊢
    split_ifs at h ⊢ with hquote hhash
    · rw [ih (List.cons.inj h).2, hquote, endsQuoted_cons_quote]
    · rw [ih (List.cons.inj h).2, endsQuoted_cons_of_ne hquote]

-- A comment goes on to the end of the text.
theorem uncommentedFrom_append_of_ne (h : uncommentedFrom inQuotes s ≠ s) (t : List Char) :
    uncommentedFrom inQuotes (s ++ t) = uncommentedFrom inQuotes s := by
  induction s generalizing inQuotes
  case nil => exact absurd rfl h
  case cons c s ih =>
    simp only [uncommentedFrom, List.cons_append] at h ⊢
    split_ifs at h ⊢ with hquote hhash
    · rw [ih fun he => h (by rw [he])]
    · rfl
    · rw [ih fun he => h (by rw [he])]

end

section

variable {cls : FileClass} {front back : List Char}

theorem exists_significant_of_margins (hfront : ∀ c ∈ front, isMargin c = true)
    (hback : ∀ c ∈ back, isBlank c = true) (s : List Char) :
    ∃ back', (∀ c ∈ back', isBlank c = true) ∧
      cls.significant (front ++ s ++ back) = front ++ cls.significant s ++ back' := by
  have hmarks : isMargin '"' = false ∧ isMargin '#' = false := by decide
  have hclear {t : List Char} (ht : ∀ c ∈ t, isMargin c = true) : '"' ∉ t ∧ '#' ∉ t :=
    ⟨fun hm => by simp [ht _ hm] at hmarks, fun hm => by simp [ht _ hm] at hmarks⟩
  have hbefore := hclear hfront
  have hafter := hclear fun c hc => isMargin_of_isBlank (hback c hc)
  by_cases hc : cls.hasComments = true
  case neg => exact ⟨back, hback, by simp [FileClass.significant, hc]⟩
  simp only [FileClass.significant, if_pos hc, uncommented, List.append_assoc]
  rw [uncommentedFrom_append_of_eq (uncommentedFrom_of_not_mem hbefore.1 hbefore.2),
    endsQuoted_of_not_mem hbefore.1]
  by_cases hs : uncommentedFrom false s = s
  · refine ⟨back, hback, ?_⟩
    rw [uncommentedFrom_append_of_eq hs, uncommentedFrom_of_not_mem hafter.1 hafter.2, hs]
  · exact ⟨[], by simp, by simp [uncommentedFrom_append_of_ne hs]⟩

variable {rules : List Rule} {allow : Allowlist} {file : String}

theorem extractLine_of_margins (hr : ∀ rule ∈ rules, rule.pattern.isAnchored = true)
    (hfront : ∀ c ∈ front, isMargin c = true) (hback : ∀ c ∈ back, isBlank c = true) (number : Nat)
    (line : List Char) :
    extractLine rules allow file number (cls.significant (front ++ line ++ back)) =
      extractLine rules allow file number (cls.significant line) := by
  have ⟨_, hblank, hline⟩ := @exists_significant_of_margins cls _ _ hfront hback line
  rw [hline]
  refine List.flatMap_congr fun rule hrule => ?_
  rw [Pattern.names_of_margins (hr rule hrule) hfront hblank]

end

theorem Checker.isAnchored_of_mem_applicable {checker : Checker} {cls : FileClass} {file : String} {rule : Rule}
    (h : rule ∈ applicable checker.rules cls file) : rule.pattern.isAnchored = true := by
  have htable : ∀ rule ∈ checker.rules, rule.pattern.isAnchored = true := by cases checker <;> decide +kernel
  exact htable rule (List.mem_of_mem_filter h)

end CrossRef
