import CrossRef.Proofs.Statement

namespace CrossRef

open Text

theorem exists_append_of_not_mem {α : Type} {d : α} {s rest read t : List α} (h : s ++ rest = read ++ t)
    (hread : d ∉ read) (hends : ∀ c ∈ rest.head?, c = d) : ∃ tail, s = read ++ tail ∧ t = tail ++ rest := by
  obtain ⟨tail, hs, ht⟩ | ⟨past, hr, hrest⟩ := List.append_eq_append_iff.mp h.symm
  · exact ⟨tail, hs, ht⟩
  · cases past
    case nil => exact ⟨[], by simpa using hr.symm, by simpa using hrest.symm⟩
    case cons c past =>
      have hc : c = d := hends c (by simp [hrest])
      exact absurd (by simp [hr, hc]) hread

-- The text after an opening brace, split where the block ends.
theorem exists_body (s : List Char) :
    ∃ body rest, s = body ++ rest ∧ '}' ∉ body ∧ ∀ c ∈ rest.head?, c = '}' := by
  refine ⟨s.takeWhile (· ≠ '}'), s.dropWhile (· ≠ '}'), (List.takeWhile_append_dropWhile ..).symm, ?_, ?_⟩
  · intro hm
    simpa using List.mem_takeWhile_imp hm
  · intro c hc
    have := List.head?_dropWhile_not (· ≠ '}') s
    simp_all

section

variable {before : Option Char} {s rest : List Char}

-- Nothing is read across the end of a block.
theorem assigned?_append_eq_some_iff {keyword : List Char} (hk : '}' ∉ keyword)
    (hends : ∀ c ∈ rest.head?, c = '}') {hit : Hit} :
    assigned? keyword before (s ++ rest) = some hit ↔
      ∃ tail, hit.rest = tail ++ rest ∧ assigned? keyword before s = some ⟨hit.name, tail⟩ := by
  have hbrace : isNameChar '}' = false := by decide
  have hstop : ∀ c ∈ rest.head?, isNameChar c = false := fun c hc => hends c hc ▸ hbrace
  simp only [assigned?_eq_some_iff]
  constructor
  · rintro ⟨hb, ⟨link, hl, hs⟩, hrun⟩
    have hread : '}' ∉ keyword ++ link ++ hit.name := by
      have hlink : '}' ∉ link := fun hm => absurd (hl.of_mem hm) (by decide)
      have hname : '}' ∉ hit.name := fun hm => by simp [hrun.all _ hm] at hbrace
      simp [hk, hlink, hname]
    have htext : s ++ rest = (keyword ++ link ++ hit.name) ++ hit.rest := by simpa using hs
    have ⟨tail, hs, htail⟩ := exists_append_of_not_mem htext hread hends
    exact ⟨tail, htail, hb, ⟨link, hl, by simpa using hs⟩, (isRun_append_iff hstop).mp (htail ▸ hrun)⟩
  · rintro ⟨tail, htail, hb, ⟨link, hl, rfl⟩, hrun⟩
    exact ⟨hb, ⟨link, hl, by simp [htail]⟩, htail ▸ (isRun_append_iff hstop).mpr hrun⟩

end

-- A flag that is read at some place of a body is a statement there.
theorem assigned?_flag_iff {before : Option Char} {body front s rest : List Char} (hs : body = front ++ s)
    (hb : startsWord before = startsWord front.getLast?) (hends : ∀ c ∈ rest.head?, c = '}') {hit : Hit} :
    assigned? ['f', 'l', 'a', 'g'] before (s ++ rest) = some hit ↔
      ∃ st : Statement (.assigned "flag") body, st.start = front.length ∧ hit = ⟨st.value, st.rest ++ rest⟩ := by
  rw [assigned?_append_eq_some_iff (by decide) hends]
  simp only [assigned?_eq_some_iff]
  constructor
  · rintro ⟨tail, htail, hfree, ⟨link, hl, htext⟩, hrun⟩
    refine ⟨⟨front, link, hit.name, tail, htext ▸ hs, hb ▸ hfree, hl, hrun⟩, rfl, ?_⟩
    rw [← htail]
  · rintro ⟨st, hstart, rfl⟩
    have ⟨hfront, htext⟩ := List.append_inj (st.text.symm.trans hs) hstart
    exact ⟨st.rest, rfl, hb ▸ hfront ▸ st.free, ⟨st.link, st.links, htext.symm⟩, st.run⟩

-- The search in a block, from some place of its body on: it finds the first flag that starts there or later.
theorem flagInBlock?_cases {before : Option Char} {body front s rest : List Char} (hs : body = front ++ s)
    (hb : startsWord before = startsWord front.getLast?) (hopen : '}' ∉ s)
    (hends : ∀ c ∈ rest.head?, c = '}') :
    (∃ st : Statement (.assigned "flag") body, front.length ≤ st.start ∧
      (∀ other : Statement (.assigned "flag") body, front.length ≤ other.start → st.start ≤ other.start) ∧
      flagInBlock? before (s ++ rest) = some ⟨st.value, st.rest ++ rest⟩) ∨
    (∀ st : Statement (.assigned "flag") body, st.start < front.length) ∧
      flagInBlock? before (s ++ rest) = none := by
  induction s generalizing before front
  case nil =>
    have hno (st : Statement (.assigned "flag") body) : st.start < front.length := by
      have hlt : st.start < body.length := st.fit.start_lt_length
      simpa [hs] using hlt
    refine .inr ⟨hno, ?_⟩
    cases rest
    case nil => rfl
    case cons c rest =>
      obtain rfl : c = '}' := hends c rfl
      cases ha : assigned? ['f', 'l', 'a', 'g'] before ('}' :: rest)
      case none => simp [flagInBlock?, ha]
      case some hit =>
        obtain ⟨st, hst, _⟩ := (assigned?_flag_iff hs hb hends).mp ha
        exact absurd hst (Nat.ne_of_lt (hno st))
  case cons c s ih =>
    have hc : c ≠ '}' := fun h => hopen (h ▸ List.mem_cons_self ..)
    cases ha : assigned? ['f', 'l', 'a', 'g'] before (c :: s ++ rest)
    case some hit =>
      obtain ⟨st, hst, rfl⟩ := (assigned?_flag_iff hs hb hends).mp ha
      refine .inl ⟨st, Nat.le_of_eq hst.symm, fun other ho => hst ▸ ho, ?_⟩
      simp only [List.cons_append] at ha
      simp [flagInBlock?, ha]
    case none =>
      have hno (st : Statement (.assigned "flag") body) : st.start ≠ front.length := fun hst =>
        Option.some_ne_none _ (((assigned?_flag_iff hs hb hends).mpr ⟨st, hst, rfl⟩).symm.trans ha)
      have hnext : flagInBlock? before (c :: s ++ rest) = flagInBlock? (some c) (s ++ rest) := by
        simp only [List.cons_append] at ha
        simp [flagInBlock?, ha, hc]
      have htext : body = (front ++ [c]) ++ s := by simpa using hs
      have hword : startsWord (some c) = startsWord (front ++ [c]).getLast? := by simp
      have hlen : (front ++ [c]).length = front.length + 1 := by simp
      rw [hnext]
      obtain ⟨st, hle, hfirst, hfound⟩ | ⟨hall, hnone⟩ := ih htext hword fun hm => hopen (.tail _ hm)
      · refine .inl ⟨st, by omega, fun other ho => hfirst other ?_, hfound⟩
        have := hno other
        omega
      · refine .inr ⟨fun st => ?_, hnone⟩
        have := hno st
        have := hall st
        omega

-- The same for all of the body.
theorem flagInBlock?_brace_cases {body rest : List Char} (hopen : '}' ∉ body)
    (hends : ∀ c ∈ rest.head?, c = '}') :
    (∃ st : Statement (.assigned "flag") body,
      (∀ other : Statement (.assigned "flag") body, st.start ≤ other.start) ∧
      flagInBlock? (some '{') (body ++ rest) = some ⟨st.value, st.rest ++ rest⟩) ∨
    IsEmpty (Statement (.assigned "flag") body) ∧ flagInBlock? (some '{') (body ++ rest) = none := by
  have hword : startsWord (some '{') = startsWord ([] : List Char).getLast? := by decide
  obtain ⟨st, _, hfirst, hfound⟩ | ⟨hall, hnone⟩ := flagInBlock?_cases rfl hword hopen hends
  · exact .inl ⟨st, fun other => hfirst other (Nat.zero_le _), hfound⟩
  · exact .inr ⟨⟨fun st => Nat.not_lt_zero _ (hall st)⟩, hnone⟩

-- A place of a line where a keyword stands as a word of its own and opens a block. The block ends at the next
-- closing brace, or with the line.
@[ext]
structure BlockStatement (keyword : String) (line : List Char) where
  front    : List Char
  link     : List Char
  body     : List Char
  rest     : List Char
  text     : line = front ++ (keyword.toList ++ link ++ '{' :: (body ++ rest))
  free     : startsWord front.getLast? = true
  links    : IsEquals link
  unclosed : '}' ∉ body
  ends     : ∀ c ∈ rest.head?, c = '}'

namespace BlockStatement

variable {keyword : String} {line : List Char}

def start (b : BlockStatement keyword line) : Nat := b.front.length

theorem afterEquals (b : BlockStatement keyword line) :
    (afterKeyword? keyword.toList b.front.getLast? (keyword.toList ++ b.link ++ '{' :: (b.body ++ b.rest))).bind
      afterEquals? = some ('{' :: (b.body ++ b.rest)) :=
  bind_afterEquals?_eq_some_iff.mpr ⟨b.free, ⟨b.link, b.links, rfl⟩, by simp; decide⟩

theorem eq_of_front_eq {b other : BlockStatement keyword line} (h : b.front = other.front) : b = other := by
  have htext := List.append_cancel_left (h ▸ b.text.symm.trans other.text)
  have hopen : '{' :: (b.body ++ b.rest) = '{' :: (other.body ++ other.rest) := by
    have hb := b.afterEquals
    rw [htext, h, other.afterEquals] at hb
    exact (Option.some.inj hb).symm
  have hlink : b.link = other.link :=
    List.append_cancel_left (List.append_cancel_right (hopen ▸ htext))
  have ⟨tail, hbody, hrest⟩ := exists_append_of_not_mem (List.cons.inj hopen).2 other.unclosed b.ends
  obtain rfl : tail = [] := by
    by_contra hne
    have ⟨c, tail, hc⟩ := List.exists_cons_of_ne_nil hne
    obtain rfl : c = '}' := other.ends c (by simp [hrest, hc])
    exact b.unclosed (by simp [hbody, hc])
  exact BlockStatement.ext h hlink (by simpa using hbody) (by simpa using hrest.symm)

-- An opening brace is no name, so no plain value is read where a block starts.
theorem hitAt?_assigned (b : BlockStatement keyword line) :
    (Pattern.assigned keyword).hitAt? b.front.getLast? (line.drop b.start) = none := by
  have hdrop : line.drop b.start = keyword.toList ++ b.link ++ '{' :: (b.body ++ b.rest) :=
    (congrArg (List.drop b.front.length) b.text).trans List.drop_left
  have hbrace : isNameChar '{' = false := by decide
  rw [hdrop, Pattern.hitAt?, assigned?, ← Option.bind_assoc, b.afterEquals]
  simp [Hit.run?, List.span_eq_takeWhile_dropWhile, hbrace]

end BlockStatement

-- A block with a flag in it: the first one counts.
structure FlagStatement (keyword : String) (line : List Char) extends BlockStatement keyword line where
  flag  : Statement (.assigned "flag") body
  first : ∀ other : Statement (.assigned "flag") body, flag.start ≤ other.start

namespace FlagStatement

variable {keyword : String} {line : List Char}

def value (b : FlagStatement keyword line) : List Char := b.flag.value

-- The end of the value.
def stop (b : FlagStatement keyword line) : Nat :=
  b.start + keyword.toList.length + b.link.length + 1 + b.flag.stop

-- What stands from the keyword on, split after the value.
theorem text_eq (b : FlagStatement keyword line) :
    keyword.toList ++ b.link ++ '{' :: (b.body ++ b.rest) =
      (keyword.toList ++ b.link ++ '{' :: (b.flag.front ++ "flag".toList ++ b.flag.link ++ b.value)) ++
        (b.flag.rest ++ b.rest) := by
  have hbody : b.body ++ b.rest = (b.flag.front ++ "flag".toList ++ b.flag.link ++ b.value) ++
      (b.flag.rest ++ b.rest) :=
    (congrArg (· ++ b.rest) b.flag.text).trans (by simp [Pattern.keyword, value])
  simp [hbody]

theorem flagInBlock?_eq (b : FlagStatement keyword line) :
    flagInBlock? (some '{') (b.body ++ b.rest) = some ⟨b.value, b.flag.rest ++ b.rest⟩ := by
  obtain ⟨st, hfirst, hfound⟩ | ⟨hnone, _⟩ := flagInBlock?_brace_cases b.unclosed b.ends
  · have hst : st = b.flag := Statement.eq_of_start_eq (Nat.le_antisymm (hfirst b.flag) (b.first st))
    rw [hst] at hfound
    exact hfound
  · exact hnone.elim b.flag

def fit (b : FlagStatement keyword line) : Pattern.Fit (.flagged keyword) line where
  front := b.front
  body := keyword.toList ++ b.link ++ '{' :: (b.flag.front ++ "flag".toList ++ b.flag.link ++ b.value)
  hit := ⟨b.value, b.flag.rest ++ b.rest⟩
  text := b.text_eq ▸ b.text
  fits := by
    rw [← b.text_eq]
    simp only [Pattern.hitAt?, b.afterEquals]
    exact b.flagInBlock?_eq

theorem fit_stop (b : FlagStatement keyword line) : b.fit.stop = b.stop := by
  simp [Pattern.Fit.stop, fit, stop, BlockStatement.start, value, Statement.stop, Statement.valueStart,
    Statement.start, Pattern.keyword]
  omega

theorem fit_injective : (fit : FlagStatement keyword line → _).Injective := by
  intro b other h
  have hfront : b.front = other.front := congrArg (·.front) h
  obtain ⟨block, flag, first⟩ := b
  obtain ⟨block', flag', first'⟩ := other
  obtain rfl : block = block' := BlockStatement.eq_of_front_eq hfront
  obtain rfl : flag = flag' := Statement.eq_of_start_eq (Nat.le_antisymm (first flag') (first' flag))
  rfl

theorem fit_bijective (keyword : String) (line : List Char) :
    (fit : FlagStatement keyword line → _).Bijective := by
  refine ⟨fit_injective, fun f => ?_⟩
  have hfits := f.fits
  simp only [Pattern.hitAt?] at hfits
  split at hfits
  · rename_i tail htail
    have ⟨hb, ⟨link, hl, hs⟩, _⟩ := bind_afterEquals?_eq_some_iff.mp htail
    obtain ⟨body, rest, rfl, hopen, hends⟩ := exists_body tail
    obtain ⟨st, hfirst, _⟩ | ⟨_, hnone⟩ := flagInBlock?_brace_cases hopen hends
    · let b : FlagStatement keyword line :=
        ⟨⟨f.front, link, body, rest, hs ▸ f.text, hb, hl, hopen, hends⟩, st, hfirst⟩
      exact ⟨b, Pattern.Fit.eq_of_start_eq rfl⟩
    · simp [hnone] at hfits
  · simp at hfits

end FlagStatement

-- The commands that may have a block.
def blockCommands : List (Kind × Action × String) :=
  [(.countryFlag, .set, "set_country_flag"), (.countryFlag, .use, "has_country_flag"),
   (.countryFlag, .use, "modify_country_flag"),
   (.stateFlag, .set, "set_state_flag"), (.stateFlag, .use, "has_state_flag"),
   (.stateFlag, .use, "modify_state_flag"),
   (.globalFlag, .set, "set_global_flag"), (.globalFlag, .use, "has_global_flag"),
   (.globalFlag, .use, "modify_global_flag")]

def blockRule (kind : Kind) (action : Action) (keyword : String) : Rule :=
  { kind, action, scope := { cls := .script }, pattern := .flagged keyword }

theorem blockRule_mem_applicable {kind : Kind} {action : Action} {keyword : String}
    (h : (kind, action, keyword) ∈ blockCommands) (file : String) :
    blockRule kind action keyword ∈ applicable Rule.flagsAndTargets .script file := by
  have htable : ∀ c ∈ blockCommands, blockRule c.1 c.2.1 c.2.2 ∈ Rule.flagsAndTargets := by decide +kernel
  exact List.mem_filter.mpr ⟨htable _ h, rfl⟩

-- A block is extracted exactly, unless it starts inside of another one that is read as far as its value.
theorem blocks_extracted {kind : Kind} {action : Action} {keyword : String}
    (h : (kind, action, keyword) ∈ blockCommands) (allow : Allowlist) (file : String) (number : Nat)
    (raw : List Char) :
    let rule := blockRule kind action keyword
    let line := FileClass.script.significant raw
    rule ∈ applicable Rule.flagsAndTargets .script file ∧
    (∃ found : List (FlagStatement keyword line), found.Pairwise (fun a b => a.start < b.start) ∧
      extractLine [rule] allow file number line =
        found.map (fun b => rule.occurrence file number b.value) ∧
      ∀ b : FlagStatement keyword line,
        (∀ other : FlagStatement keyword line, other ≠ b → ¬(other.start ≤ b.start ∧ b.start < other.stop)) →
        (b ∈ found ↔ allow.isPlaceholder (String.ofList b.value) = false)) ∧
    ∀ b : BlockStatement keyword line,
      (Pattern.assigned keyword).hitAt? b.front.getLast? (line.drop b.start) = none := by
  intro rule line
  refine ⟨blockRule_mem_applicable h file, ?_, fun b => b.hitAt?_assigned⟩
  have ⟨found, horder, hyield, hfound⟩ :=
    rule.exists_found (FlagStatement.fit_bijective keyword line) allow file number
  refine ⟨found, horder, hyield, fun b hb => ?_⟩
  have hmem := hfound b fun other hlt => other.fit_stop.trans_le <| by
    by_contra hin
    refine hb other ?_ ⟨Nat.le_of_lt hlt, Nat.lt_of_not_le hin⟩
    rintro rfl
    exact Nat.lt_irrefl _ hlt
  simp [hmem, Rule.passes, rule, blockRule, NameTest.accepts, FlagStatement.fit]

-- The first of the blocks has a word before its flag that ends like it, and the second is not closed.
theorem blocks_extracted_unclosed :
    let rule := blockRule .stateFlag .use "has_state_flag"
    let line := FileClass.script.significant
      "has_state_flag = \x7b is_flag = a flag = b flag = c \x7d has_state_flag=\x7bflag=d#\x7d".toList
    (.stateFlag, .use, "has_state_flag") ∈ blockCommands ∧
    ∃ found : List (FlagStatement "has_state_flag" line), found.Pairwise (fun a b => a.start < b.start) ∧
      found.map (fun b => rule.occurrence "events/a.txt" 1 b.value) =
        [rule.occurrence "events/a.txt" 1 ['b'], rule.occurrence "events/a.txt" 1 ['d']] := by
  intro rule line
  have hmem : (.stateFlag, .use, "has_state_flag") ∈ blockCommands := by decide
  have ⟨_, ⟨found, horder, hyield, _⟩, _⟩ := blocks_extracted hmem .standard "events/a.txt" 1
    "has_state_flag = \x7b is_flag = a flag = b flag = c \x7d has_state_flag=\x7bflag=d#\x7d".toList
  refine ⟨hmem, found, horder, hyield.symm.trans ?_⟩
  decide +kernel

end CrossRef
