import CrossRef.Pattern
import Mathlib.Data.List.TakeDrop
import Mathlib.Data.List.TakeWhile

namespace CrossRef

open Text

theorem isBlank_of_isIdentChar {c : Char} (h : isIdentChar c = true) : isBlank c = false := by
  have hc : 48 ≤ c.toNat ∧ c.toNat ≤ 122 := by
    simp only [isIdentChar, Bool.or_eq_true, Bool.and_eq_true, decide_eq_true_eq, beq_iff_eq] at h
    rcases h with ((⟨hl, hu⟩ | ⟨hl, hu⟩) | ⟨hl, hu⟩) | rfl
    case inr => decide
    all_goals exact ⟨Nat.le_trans (by decide) (UInt32.le_iff_toNat_le.mp hl),
      Nat.le_trans (UInt32.le_iff_toNat_le.mp hu) (by decide)⟩
  -- No range of white space meets the range from `0` to `z`.
  have hranges : ∀ r ∈ blankRanges, r.2 < 48 ∨ 122 < r.1 := by decide
  refine Bool.eq_false_iff.mpr fun hb => ?_
  have ⟨r, hr, hlo, hhi⟩ := exists_range_of_inRanges hb
  have := hranges r hr
  omega

theorem isBlank_of_isNameChar {c : Char} (h : isNameChar c = true) : isBlank c = false := by
  simp only [isNameChar, Bool.and_eq_true, Bool.not_eq_eq_eq_not, Bool.not_true] at h
  exact h.1.1.1.1.1.1

theorem isBlank_of_isReferenceChar {c : Char} (h : isReferenceChar c = true) : isBlank c = false := by
  simp only [isReferenceChar, Bool.or_eq_true, beq_iff_eq] at h
  cases h
  case inl h => exact isBlank_of_isIdentChar h
  case inr h => exact h ▸ by decide

theorem isBlank_of_isDisplayChar {c : Char} (h : isDisplayChar c = true) : isBlank c = false := by
  simp only [isDisplayChar, Bool.or_eq_true, beq_iff_eq] at h
  rcases h with (h | rfl) | rfl
  case inl.inl => exact isBlank_of_isIdentChar h
  all_goals decide

-- A name that is followed by a rest is a longest run of characters of a class.
structure IsRun (cls : Char → Bool) (name rest : List Char) : Prop where
  ne_nil : name ≠ []
  all    : ∀ c ∈ name, cls c = true
  ends   : ∀ c ∈ rest.head?, cls c = false

instance (cls : Char → Bool) (name rest : List Char) : Decidable (IsRun cls name rest) :=
  decidable_of_iff (name ≠ [] ∧ name.all cls = true ∧ rest.head?.all (!cls ·) = true) <| by
    simp only [List.all_eq_true, Option.all_eq_true, Bool.not_eq_true']
    exact ⟨fun ⟨ne_nil, all, ends⟩ => ⟨ne_nil, all, ends⟩, fun ⟨ne_nil, all, ends⟩ => ⟨ne_nil, all, ends⟩⟩

-- An equals sign with white space on its sides: it is all that is left without the white space.
def IsEquals (s : List Char) : Prop := (s.filter fun c => !isBlank c) = ['=']

instance (s : List Char) : Decidable (IsEquals s) := inferInstanceAs (Decidable (_ = _))

section

variable {cls : Char → Bool} {s t link name rest : List Char}

theorem IsRun.isBlank_of_head? (h : IsRun isNameChar name rest) :
    ∀ c ∈ (name ++ rest).head?, isBlank c = false := by
  cases name
  case nil => exact absurd rfl h.ne_nil
  case cons c _ =>
    rintro _ ⟨⟩
    exact isBlank_of_isNameChar (h.all c (List.mem_cons_self ..))

theorem isRun_append_iff (h : ∀ c ∈ t.head?, cls c = false) :
    IsRun cls name (rest ++ t) ↔ IsRun cls name rest where
  mp  := fun ⟨ne_nil, all, ends⟩ => ⟨ne_nil, all, by cases rest <;> simp_all⟩
  mpr := fun ⟨ne_nil, all, ends⟩ => ⟨ne_nil, all, by cases rest <;> simp_all⟩

theorem isEquals_iff : IsEquals s ↔
    ∃ l r, s = l ++ '=' :: r ∧ (∀ c ∈ l, isBlank c = true) ∧ ∀ c ∈ r, isBlank c = true := by
  have hequals : isBlank '=' = false := by decide
  simp [IsEquals, List.filter_eq_cons_iff, hequals]

theorem IsEquals.of_mem (h : IsEquals s) {c : Char} (hc : c ∈ s) : isBlank c = true ∨ c = '=' := by
  by_contra hno
  have hmem : c ∈ s.filter fun c => !isBlank c := List.mem_filter.mpr ⟨hc, by simp_all⟩
  rw [show (s.filter fun c => !isBlank c) = ['='] from h] at hmem
  simp_all

theorem skipBlanks_append_of_all (h : ∀ c ∈ s, isBlank c = true) : skipBlanks (s ++ t) = skipBlanks t :=
  List.dropWhile_append_of_pos h

theorem skipBlanks_of_head? (h : ∀ c ∈ s.head?, isBlank c = false) : skipBlanks s = s := by
  cases s
  case nil => rfl
  case cons c _ => simp [skipBlanks, h c rfl]

theorem isBlank_of_head?_skipBlanks : ∀ c ∈ (skipBlanks s).head?, isBlank c = false := by
  intro c hc
  have := List.head?_dropWhile_not isBlank s
  rw [skipBlanks] at hc
  simp_all

theorem afterEquals?_eq_some_iff : afterEquals? s = some t ↔
    (∃ link, IsEquals link ∧ s = link ++ t) ∧ ∀ c ∈ t.head?, isBlank c = false := by
  constructor
  · intro h
    unfold afterEquals? at h
    split at h
    · rename_i rest hrest
      obtain rfl := Option.some.inj h
      refine ⟨⟨s.takeWhile isBlank ++ '=' :: rest.takeWhile isBlank, ?equals, ?text⟩, isBlank_of_head?_skipBlanks⟩
      case equals =>
        exact isEquals_iff.mpr
          ⟨_, _, rfl, fun _ => List.mem_takeWhile_imp, fun _ => List.mem_takeWhile_imp⟩
      case text =>
        calc s = s.takeWhile isBlank ++ skipBlanks s := (List.takeWhile_append_dropWhile ..).symm
          _ = s.takeWhile isBlank ++ '=' :: (rest.takeWhile isBlank ++ skipBlanks rest) := by
            rw [hrest, skipBlanks, List.takeWhile_append_dropWhile]
          _ = _ := by simp
    · simp at h
  · rintro ⟨⟨link, hl, rfl⟩, ht⟩
    obtain ⟨l, r, rfl, hleft, hright⟩ := isEquals_iff.mp hl
    have hequals : skipBlanks ('=' :: (r ++ t)) = '=' :: (r ++ t) :=
      skipBlanks_of_head? (by simp; decide)
    simp [afterEquals?, skipBlanks_append_of_all hleft, hequals, skipBlanks_append_of_all hright,
      skipBlanks_of_head? ht]

theorem afterKeyword?_eq_some_iff {keyword : List Char} {before : Option Char} :
    afterKeyword? keyword before s = some t ↔ startsWord before = true ∧ s = keyword ++ t := by
  rw [← afterLiteral?_eq_some_iff]
  unfold afterKeyword?
  split <;> grind

-- A keyword and an equals sign.
theorem bind_afterEquals?_eq_some_iff {keyword : List Char} {before : Option Char} :
    (afterKeyword? keyword before s).bind afterEquals? = some t ↔
      startsWord before = true ∧ (∃ link, IsEquals link ∧ s = keyword ++ link ++ t) ∧
        ∀ c ∈ t.head?, isBlank c = false := by
  simp only [Option.bind_eq_some_iff, afterKeyword?_eq_some_iff, afterEquals?_eq_some_iff]
  constructor
  · rintro ⟨_, ⟨hb, rfl⟩, ⟨link, hl, rfl⟩, ht⟩
    exact ⟨hb, ⟨link, hl, by simp⟩, ht⟩
  · rintro ⟨hb, ⟨link, hl, rfl⟩, ht⟩
    exact ⟨link ++ t, ⟨hb, by simp⟩, ⟨link, hl, rfl⟩, ht⟩

-- A literal in which upper and lower case letters are alike.
theorem afterLiteralIgnoringCase?_eq_some_iff {lit : List Char} :
    afterLiteralIgnoringCase? lit s = some t ↔ ∃ word, s = word ++ t ∧ word.map Char.toLower = lit := by
  induction lit generalizing s
  case nil => simp [afterLiteralIgnoringCase?, eq_comm]
  case cons c lit ih =>
    cases s
    case nil => simp [afterLiteralIgnoringCase?]
    case cons d s =>
      simp only [afterLiteralIgnoringCase?]
      constructor
      · intro h
        split_ifs at h with hc
        obtain ⟨word, rfl, rfl⟩ := ih.mp h
        exact ⟨d :: word, rfl, by simp [hc]⟩
      · rintro ⟨_ | ⟨d', word⟩, hs, hw⟩
        · simp at hw
        · simp only [List.cons_append, List.map_cons, List.cons.injEq] at hs hw
          rw [if_pos (hs.1 ▸ hw.1.symm)]
          exact ih.mpr ⟨word, hs.2, hw.2⟩

namespace Hit

variable {hit hit' : Hit}

theorem run?_eq_some_iff :
    run? cls s = some hit ↔ s = hit.name ++ hit.rest ∧ IsRun cls hit.name hit.rest := by
  have hrun : run? cls s =
      if s.takeWhile cls = [] then none else some ⟨s.takeWhile cls, s.dropWhile cls⟩ := by
    unfold run?
    rw [List.span_eq_takeWhile_dropWhile]
    split <;> simp_all
  rw [hrun]
  constructor
  · intro h
    split_ifs at h with hnil
    obtain rfl := Option.some.inj h
    refine ⟨(List.takeWhile_append_dropWhile ..).symm, hnil, fun _ => List.mem_takeWhile_imp, ?_⟩
    intro c (hc : (s.dropWhile cls).head? = some c)
    simpa [hc] using List.head?_dropWhile_not cls s
  · rintro ⟨rfl, h⟩
    have hends : hit.rest.takeWhile cls = [] ∧ hit.rest.dropWhile cls = hit.rest := by
      cases hr : hit.rest
      case nil => simp
      case cons c _ => simp [h.ends c (by simp [hr])]
    simp [List.takeWhile_append_of_pos h.all, List.dropWhile_append_of_pos h.all, hends, h.ne_nil]

theorem followedBy?_eq_some_iff {lit : List Char} :
    hit.followedBy? lit = some hit' ↔ hit'.name = hit.name ∧ hit.rest = lit ++ hit'.rest := by
  simp only [followedBy?, Option.map_eq_some_iff, afterLiteral?_eq_some_iff]
  constructor
  · rintro ⟨rest, hr, rfl⟩
    exact ⟨rfl, hr⟩
  · rintro ⟨hn, hr⟩
    exact ⟨_, hr, by rw [← hn]⟩

end Hit

theorem assigned?_eq_some_iff {keyword : List Char} {before : Option Char} {hit : Hit} :
    assigned? keyword before s = some hit ↔ startsWord before = true ∧
      (∃ link, IsEquals link ∧ s = keyword ++ link ++ (hit.name ++ hit.rest)) ∧
        IsRun isNameChar hit.name hit.rest := by
  rw [assigned?, ← Option.bind_assoc, Option.bind_eq_some_iff]
  simp only [bind_afterEquals?_eq_some_iff, Hit.run?_eq_some_iff]
  constructor
  · rintro ⟨_, ⟨hb, hl, _⟩, rfl, hrun⟩
    exact ⟨hb, hl, hrun⟩
  · rintro ⟨hb, hl, hrun⟩
    exact ⟨_, ⟨hb, hl, hrun.isBlank_of_head?⟩, rfl, hrun⟩

end

-- A run up to a literal that is no part of it.
theorem bind_followedBy?_eq_some_iff {cls : Char → Bool} {d : Char} {lit s : List Char} {hit : Hit}
    (hd : cls d = false) :
    ((Hit.run? cls s).bind fun read => read.followedBy? (d :: lit)) = some hit ↔
      s = hit.name ++ (d :: lit ++ hit.rest) ∧ hit.name ≠ [] ∧ ∀ c ∈ hit.name, cls c = true := by
  simp only [Option.bind_eq_some_iff, Hit.run?_eq_some_iff, Hit.followedBy?_eq_some_iff]
  constructor
  · rintro ⟨read, ⟨hs, hrun⟩, hname, hrest⟩
    exact ⟨by rw [hs, hname, hrest], hname ▸ hrun.ne_nil, hname ▸ hrun.all⟩
  · rintro ⟨hs, hne, hall⟩
    exact ⟨⟨hit.name, d :: lit ++ hit.rest⟩, ⟨hs, hne, hall, by simp [hd]⟩, rfl, rfl⟩

-- A property that follows a name, in any case.
theorem readProperty_eq_some_iff {hit hit' : Hit} :
    ((afterLiteralIgnoringCase? ['.', 'g', 'e', 't'] hit.rest).bind fun verb =>
        match afterLiteralIgnoringCase? ['n', 'a', 'm', 'e'] verb with
        | some rest => some { hit with rest }
        | none =>
          (afterLiteralIgnoringCase? ['a', 'd', 'j', 'e', 'c', 't', 'i', 'v', 'e'] verb).map
            fun rest => { hit with rest }) = some hit' ↔
      hit'.name = hit.name ∧ ∃ get word, hit.rest = get ++ word ++ hit'.rest ∧
        get.map Char.toLower = ['.', 'g', 'e', 't'] ∧
        (word.map Char.toLower = ['n', 'a', 'm', 'e'] ∨
          word.map Char.toLower = ['a', 'd', 'j', 'e', 'c', 't', 'i', 'v', 'e']) := by
  constructor
  · intro h
    have ⟨_, hget, h⟩ := Option.bind_eq_some_iff.mp h
    have ⟨get, hverb, hg⟩ := afterLiteralIgnoringCase?_eq_some_iff.mp hget
    split at h
    · rename_i hword
      obtain rfl := Option.some.inj h
      have ⟨word, hrest, hw⟩ := afterLiteralIgnoringCase?_eq_some_iff.mp hword
      exact ⟨rfl, get, word, by simp [hverb, hrest], hg, .inl hw⟩
    · obtain ⟨_, hword, rfl⟩ := Option.map_eq_some_iff.mp h
      have ⟨word, hrest, hw⟩ := afterLiteralIgnoringCase?_eq_some_iff.mp hword
      exact ⟨rfl, get, word, by simp [hverb, hrest], hg, .inr hw⟩
  · rintro ⟨hname, get, word, hrest, hg, hw⟩
    refine Option.bind_eq_some_iff.mpr ⟨word ++ hit'.rest, ?_, ?_⟩
    · exact afterLiteralIgnoringCase?_eq_some_iff.mpr ⟨get, by simpa using hrest, hg⟩
    cases hw
    case inl hw =>
      rw [afterLiteralIgnoringCase?_eq_some_iff.mpr ⟨word, rfl, hw⟩]
      simp [← hname]
    case inr hw =>
      have hno : afterLiteralIgnoringCase? ['n', 'a', 'm', 'e'] (word ++ hit'.rest) = none := by
        by_contra hsome
        have ⟨t, ht⟩ := Option.ne_none_iff_exists'.mp hsome
        have ⟨other, hs, ho⟩ := afterLiteralIgnoringCase?_eq_some_iff.mp ht
        simpa [hw, ho] using congrArg (List.map Char.toLower) hs
      rw [hno, afterLiteralIgnoringCase?_eq_some_iff.mpr ⟨word, rfl, hw⟩]
      simp [← hname]

namespace Pattern

-- The word with which a pattern starts.
def keyword : Pattern → List Char
  | assigned k | tagged k | flagged k | quotable k | quotedReference k => k.toList
  | reference | displayed => []

-- Patterns in which a keyword is linked to one value.
def isStatement : Pattern → Bool
  | assigned _ | tagged _ | quotable _ => true
  | _ => false

-- What may stand between the keyword and the value.
def Links : Pattern → List Char → Prop
  | assigned _, link => IsEquals link
  | tagged _,   link => link = []
  | quotable _, link => IsEquals link ∨ ∃ equals, IsEquals equals ∧ link = equals ++ ['"']
  | _,          _    => False

variable {p : Pattern} {before : Option Char} {s link : List Char}

theorem Links.isNameChar_eq_false (h : p.Links link) {c : Char} (hc : c ∈ link) : isNameChar c = false := by
  have hmarks : isNameChar '=' = false ∧ isNameChar '"' = false := by decide
  have hequals {s : List Char} (hs : IsEquals s) (hc : c ∈ s) : isNameChar c = false := by
    cases hs.of_mem hc
    case inl hb => simp [isNameChar, hb]
    case inr hc => exact hc ▸ hmarks.1
  cases p
  case assigned => exact hequals h hc
  case tagged => simp [show link = [] from h] at hc
  case quotable =>
    obtain h | ⟨equals, h, rfl⟩ := h
    · exact hequals h hc
    · obtain hc | hc := List.mem_append.mp hc
      · exact hequals h hc
      · exact List.mem_singleton.mp hc ▸ hmarks.2
  all_goals exact h.elim

theorem hitAt?_of_links {name rest : List Char} (hb : startsWord before = true) (hl : p.Links link)
    (hrun : IsRun isNameChar name rest) :
    p.hitAt? before (p.keyword ++ link ++ (name ++ rest)) = some ⟨name, rest⟩ := by
  cases p
  case assigned => exact assigned?_eq_some_iff.mpr ⟨hb, ⟨link, hl, rfl⟩, hrun⟩
  case tagged =>
    obtain rfl : link = [] := hl
    refine Option.bind_eq_some_iff.mpr ⟨name ++ rest, afterKeyword?_eq_some_iff.mpr ⟨hb, ?_⟩, ?_⟩
    · simp [keyword]
    · exact Hit.run?_eq_some_iff.mpr ⟨rfl, hrun⟩
  case quotable k =>
    have hread : Hit.run? isNameChar (name ++ rest) = some ⟨name, rest⟩ :=
      Hit.run?_eq_some_iff.mpr ⟨rfl, hrun⟩
    obtain hl | ⟨equals, hl, rfl⟩ := hl
    · have hk : (afterKeyword? k.toList before (k.toList ++ link ++ (name ++ rest))).bind afterEquals? =
          some (name ++ rest) :=
        bind_afterEquals?_eq_some_iff.mpr ⟨hb, ⟨link, hl, rfl⟩, hrun.isBlank_of_head?⟩
      cases name
      case nil => exact absurd rfl hrun.ne_nil
      case cons c name =>
        have hc : c ≠ '"' := by
          rintro rfl
          exact absurd (hrun.all '"' (List.mem_cons_self ..)) (by decide)
        simp only [hitAt?, keyword, hk]
        simpa [hc] using hread
    · have hk : (afterKeyword? k.toList before (k.toList ++ (equals ++ ['"']) ++ (name ++ rest))).bind
          afterEquals? = some ('"' :: (name ++ rest)) :=
        bind_afterEquals?_eq_some_iff.mpr ⟨hb, ⟨equals, hl, by simp⟩, by simp; decide⟩
      simpa only [hitAt?, keyword, hk] using hread
  all_goals exact hl.elim

theorem exists_links_of_hitAt? {hit : Hit} (hp : p.isStatement = true) (h : p.hitAt? before s = some hit) :
    startsWord before = true ∧ (∃ link, p.Links link ∧ s = p.keyword ++ link ++ (hit.name ++ hit.rest)) ∧
      IsRun isNameChar hit.name hit.rest := by
  cases p
  case assigned => exact assigned?_eq_some_iff.mp h
  case tagged =>
    obtain ⟨_, hk, h⟩ := Option.bind_eq_some_iff.mp h
    obtain ⟨hb, hs⟩ := afterKeyword?_eq_some_iff.mp hk
    obtain ⟨ht, hrun⟩ := Hit.run?_eq_some_iff.mp h
    exact ⟨hb, ⟨[], rfl, by simp [hs, ht, keyword]⟩, hrun⟩
  case quotable =>
    simp only [hitAt?] at h
    split at h
    · rename_i hk
      obtain ⟨hb, ⟨link, hl, hs⟩, _⟩ := bind_afterEquals?_eq_some_iff.mp hk
      obtain ⟨ht, hrun⟩ := Hit.run?_eq_some_iff.mp h
      exact ⟨hb, ⟨link ++ ['"'], .inr ⟨link, hl, rfl⟩, by simp [hs, ht, keyword]⟩, hrun⟩
    · rename_i hk
      obtain ⟨hb, ⟨link, hl, hs⟩, _⟩ := bind_afterEquals?_eq_some_iff.mp hk
      obtain ⟨ht, hrun⟩ := Hit.run?_eq_some_iff.mp h
      exact ⟨hb, ⟨link, .inl hl, by simp [hs, ht, keyword]⟩, hrun⟩
    · simp at h
  all_goals simp [isStatement] at hp

variable {hit : Hit}

theorem hitAt?_reference_iff : reference.hitAt? before s = some hit ↔
    s = '[' :: (hit.name ++ ']' :: hit.rest) ∧ hit.name ≠ [] ∧ ∀ c ∈ hit.name, isReferenceChar c = true := by
  have hopen {t : List Char} : reference.hitAt? before ('[' :: t) = some hit ↔
      t = hit.name ++ ']' :: hit.rest ∧ hit.name ≠ [] ∧ ∀ c ∈ hit.name, isReferenceChar c = true :=
    bind_followedBy?_eq_some_iff (by decide)
  constructor
  · intro h
    unfold hitAt? at h
    split at h <;> cases ‹reference = _›
    · obtain ⟨ht, hname⟩ := hopen.mp h
      exact ⟨by rw [ht], hname⟩
    · simp at h
  · rintro ⟨rfl, hname⟩
    exact hopen.mpr ⟨rfl, hname⟩

theorem hitAt?_quotedReference_iff {keyword : String} :
    (quotedReference keyword).hitAt? before s = some hit ↔ startsWord before = true ∧
      (∃ link, IsEquals link ∧
        s = keyword.toList ++ link ++ '"' :: '[' :: (hit.name ++ ']' :: '"' :: hit.rest)) ∧
      hit.name ≠ [] ∧ ∀ c ∈ hit.name, isReferenceChar c = true := by
  have hread {t : List Char} := @bind_followedBy?_eq_some_iff isReferenceChar ']' ['"'] t hit (by decide)
  constructor
  · intro h
    simp only [hitAt?] at h
    split at h
    · rename_i hk
      obtain ⟨hb, ⟨link, hl, hs⟩, _⟩ := bind_afterEquals?_eq_some_iff.mp hk
      obtain ⟨ht, hname⟩ := hread.mp h
      exact ⟨hb, ⟨link, hl, by simp [hs, ht]⟩, hname⟩
    · simp at h
  · rintro ⟨hb, ⟨link, hl, rfl⟩, hname⟩
    have hquote : ∀ c ∈ ('"' :: '[' :: (hit.name ++ ']' :: '"' :: hit.rest)).head?, isBlank c = false := by
      rintro c ⟨⟩
      decide
    simp only [hitAt?, bind_afterEquals?_eq_some_iff.mpr ⟨hb, ⟨link, hl, rfl⟩, hquote⟩]
    exact hread.mpr ⟨by simp, hname⟩

end Pattern

end CrossRef
