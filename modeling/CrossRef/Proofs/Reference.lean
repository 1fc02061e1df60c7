import CrossRef.Checker
import CrossRef.Proofs.Statement

namespace CrossRef

open Text

theorem isIdentChar_iff {c : Char} : isIdentChar c = true ↔ c.isAlphanum = true ∨ c = '_' := by
  have hranges : c.isAlphanum =
      (decide ('A' ≤ c ∧ c ≤ 'Z') || ('a' ≤ c && c ≤ 'z') || ('0' ≤ c && c ≤ '9')) := rfl
  simp only [isIdentChar, hranges, Bool.or_eq_true, Bool.and_eq_true, decide_eq_true_eq, beq_iff_eq]
  exact or_congr_left (or_congr_left or_comm)

theorem isReferenceChar_iff {c : Char} :
    isReferenceChar c = true ↔ c.isAlphanum = true ∨ c = '_' ∨ c = '.' := by
  simp [isReferenceChar, isIdentChar_iff, or_assoc]

theorem isNameChar_of_isReferenceChar {c : Char} (h : isReferenceChar c = true) : isNameChar c = true := by
  have hmarks : ['#', '"', '{', '}', '=', ']'].all (!isReferenceChar ·) = true := by decide
  have hne {d : Char} (hd : d ∈ ['#', '"', '{', '}', '=', ']']) : c ≠ d := by
    rintro rfl
    simpa [h] using List.all_eq_true.mp hmarks c hd
  simp [isNameChar, isBlank_of_isReferenceChar h, hne]

-- The simple case folding of a character, as far as it ends in ASCII: besides the ASCII letters only the
-- long s and the Kelvin sign are folded to an ASCII letter.
def foldCase (c : Char) : Char :=
  if c = '\u017F' then 's' else if c = '\u212A' then 'k' else c.toLower

theorem toLower_of_le {c : Char} (h : 128 ≤ c.toNat) : c.toLower = c := by
  unfold Char.toLower
  split
  · rename_i hu
    have hval := UInt32.le_iff_toNat_le.mp hu.2
    have : c.toNat = c.val.toNat := rfl
    simp at hval
    omega
  · rfl

theorem isIdentChar_toLower (c : Char) : isIdentChar c.toLower = isIdentChar c := by
  obtain hlt | hge := Nat.lt_or_ge c.toNat 128
  · have hascii : ∀ n < 128, isIdentChar (Char.ofNat n).toLower = isIdentChar (Char.ofNat n) := by decide
    simpa using hascii c.toNat hlt
  · rw [toLower_of_le hge]

theorem isDisplayChar_iff {c : Char} :
    isDisplayChar c = true ↔ (foldCase c).isAlphanum = true ∨ foldCase c = '_' := by
  rw [← isIdentChar_iff, foldCase]
  split_ifs with hs hk
  · exact hs ▸ by decide
  · exact hk ▸ by decide
  · simp [isDisplayChar, hs, hk, isIdentChar_toLower]

-- Words without `s` and `k` are folded from ASCII letters only.
theorem map_foldCase_eq_iff {word lit : List Char} (hlit : ∀ c ∈ ['s', 'k', '\u017F', '\u212A'], c ∉ lit) :
    word.map foldCase = lit ↔ word.map Char.toLower = lit := by
  have hlong : foldCase '\u017F' = 's' ∧ Char.toLower '\u017F' = '\u017F' := by decide
  have hkelvin : foldCase '\u212A' = 'k' ∧ Char.toLower '\u212A' = '\u212A' := by decide
  have hsame (hno : '\u017F' ∉ word ∧ '\u212A' ∉ word) : word.map foldCase = word.map Char.toLower := by
    refine List.map_congr_left fun c hc => ?_
    have hs : c ≠ '\u017F' := fun h => hno.1 (h ▸ hc)
    have hk : c ≠ '\u212A' := fun h => hno.2 (h ▸ hc)
    simp [foldCase, hs, hk]
  constructor
  · intro h
    refine (hsame ⟨fun hm => ?_, fun hm => ?_⟩).symm.trans h
    · exact hlit 's' (by simp) (h ▸ hlong.1 ▸ List.mem_map_of_mem hm)
    · exact hlit 'k' (by simp) (h ▸ hkelvin.1 ▸ List.mem_map_of_mem hm)
  · intro h
    refine (hsame ⟨fun hm => ?_, fun hm => ?_⟩).trans h
    · exact hlit '\u017F' (by simp) (h ▸ hlong.2 ▸ List.mem_map_of_mem hm)
    · exact hlit '\u212A' (by simp) (h ▸ hkelvin.2 ▸ List.mem_map_of_mem hm)

-- The properties that are displayed, in any case.
def IsProperty (s : List Char) : Prop :=
  s.map foldCase = ".getname".toList ∨ s.map foldCase = ".getadjective".toList

instance (s : List Char) : Decidable (IsProperty s) := inferInstanceAs (Decidable (_ ∨ _))

theorem isProperty_iff {s : List Char} : IsProperty s ↔
    ∃ get word, s = get ++ word ∧ get.map Char.toLower = ['.', 'g', 'e', 't'] ∧
      (word.map Char.toLower = ['n', 'a', 'm', 'e'] ∨
        word.map Char.toLower = ['a', 'd', 'j', 'e', 'c', 't', 'i', 'v', 'e']) := by
  have hlit : ∀ c ∈ ['s', 'k', '\u017F', '\u212A'], c ∉ ".getname".toList ∧ c ∉ ".getadjective".toList := by
    simp
  have hname : ".getname".toList = ['.', 'g', 'e', 't'] ++ ['n', 'a', 'm', 'e'] := rfl
  have hadjective : ".getadjective".toList =
      ['.', 'g', 'e', 't'] ++ ['a', 'd', 'j', 'e', 'c', 't', 'i', 'v', 'e'] := rfl
  rw [IsProperty, map_foldCase_eq_iff fun c hc => (hlit c hc).1,
    map_foldCase_eq_iff fun c hc => (hlit c hc).2, hname, hadjective, List.map_eq_append_iff,
    List.map_eq_append_iff]
  constructor
  · rintro (⟨get, word, hs, hg, hw⟩ | ⟨get, word, hs, hg, hw⟩)
    · exact ⟨get, word, hs, hg, .inl hw⟩
    · exact ⟨get, word, hs, hg, .inr hw⟩
  · rintro ⟨get, word, hs, hg, hw | hw⟩
    · exact .inl ⟨get, word, hs, hg, hw⟩
    · exact .inr ⟨get, word, hs, hg, hw⟩

theorem IsProperty.isDisplayChar_head? {s t : List Char} (h : IsProperty s) :
    ∀ c ∈ (s ++ t).head?, isDisplayChar c = false := by
  cases s
  case nil => exact absurd h (by decide +kernel)
  case cons c s =>
    have hdot : foldCase c = '.' := by
      cases h
      case inl h => exact (List.cons.inj h).1
      case inr h => exact (List.cons.inj h).1
    rintro _ ⟨⟩
    rw [Bool.eq_false_iff, ne_eq, isDisplayChar_iff, hdot]
    decide

namespace Pattern

variable {before : Option Char} {s : List Char} {hit : Hit}

theorem hitAt?_displayed_iff : displayed.hitAt? before s = some hit ↔
    (∃ property, IsProperty property ∧ s = '[' :: (hit.name ++ (property ++ hit.rest))) ∧
      hit.name ≠ [] ∧ ∀ c ∈ hit.name, isDisplayChar c = true := by
  constructor
  · intro h
    unfold hitAt? at h
    split at h <;> cases ‹displayed = _›
    · obtain ⟨read, hr, h⟩ := Option.bind_eq_some_iff.mp h
      obtain ⟨hs, hrun⟩ := Hit.run?_eq_some_iff.mp hr
      obtain ⟨hname, get, word, hrest, hp⟩ := readProperty_eq_some_iff.mp h
      exact ⟨⟨get ++ word, isProperty_iff.mpr ⟨get, word, rfl, hp⟩, by rw [hs, hname, hrest]⟩,
        hname ▸ hrun.ne_nil, hname ▸ hrun.all⟩
    · simp at h
  · rintro ⟨⟨property, hp, rfl⟩, hne, hall⟩
    have hrun : IsRun isDisplayChar hit.name (property ++ hit.rest) :=
      ⟨hne, hall, hp.isDisplayChar_head?⟩
    refine Option.bind_eq_some_iff.mpr ⟨⟨hit.name, property ++ hit.rest⟩, ?_, ?_⟩
    · exact Hit.run?_eq_some_iff.mpr ⟨rfl, hrun⟩
    · obtain ⟨get, word, rfl, hw⟩ := isProperty_iff.mp hp
      exact readProperty_eq_some_iff.mpr ⟨rfl, get, word, rfl, hw⟩

end Pattern

-- Places that start with a character that they do not hold again do not overlap.
theorem Pattern.Fit.stop_le_start {p : Pattern} {s : List Char} {f g : Fit p s} {d : Char}
    {tail tail' : List Char} (hf : f.body = d :: tail) (hd : d ∉ tail) (hg : g.body = d :: tail')
    (hlt : f.start < g.start) : f.stop ≤ g.start := by
  by_contra hin
  obtain ⟨j, hj⟩ : ∃ j, g.start = f.start + (j + 1) := ⟨g.start - f.start - 1, by omega⟩
  have hlen : j + 1 < f.body.length := by
    unfold stop at hin
    unfold start at hj hin
    omega
  have hc : tail[j]? = some d := by
    calc tail[j]? = f.body[j + 1]? := by simp [hf]
      _ = (f.body ++ f.hit.rest)[j + 1]? := (List.getElem?_append_left hlen).symm
      _ = s[f.start + (j + 1)]? := (getElem?_of_text f.text _).symm
      _ = s[g.start + 0]? := by simp only [hj, Nat.add_zero]
      _ = (g.body ++ g.hit.rest)[0]? := getElem?_of_text g.text 0
      _ = some d := by simp [hg]
  exact hd (List.mem_of_getElem? hc)

-- A reference in brackets.
@[ext]
structure Reference (line : List Char) where
  front  : List Char
  name   : List Char
  rest   : List Char
  text   : line = front ++ '[' :: (name ++ ']' :: rest)
  ne_nil : name ≠ []
  chars  : ∀ c ∈ name, c.isAlphanum = true ∨ c = '_' ∨ c = '.'

namespace Reference

variable {line : List Char}

def start (r : Reference line) : Nat := r.front.length

def fit (r : Reference line) : Pattern.Fit .reference line where
  front := r.front
  body := '[' :: (r.name ++ [']'])
  hit := ⟨r.name, r.rest⟩
  text := by simpa using r.text
  fits := Pattern.hitAt?_reference_iff.mpr
    ⟨by simp, r.ne_nil, fun c hc => isReferenceChar_iff.mpr (r.chars c hc)⟩

theorem fit_bijective (line : List Char) : (fit : Reference line → _).Bijective := by
  constructor
  · intro r other h
    exact Reference.ext (congrArg (·.front) h) (congrArg (·.hit.name) h) (congrArg (·.hit.rest) h)
  · intro f
    obtain ⟨hs, hne, hall⟩ := Pattern.hitAt?_reference_iff.mp f.fits
    exact ⟨⟨f.front, f.hit.name, f.hit.rest, hs ▸ f.text, hne, fun c hc => isReferenceChar_iff.mp (hall c hc)⟩,
      Pattern.Fit.eq_of_start_eq rfl⟩

theorem stop_le_start {r other : Reference line} (h : other.start < r.start) : other.fit.stop ≤ r.fit.start := by
  refine Pattern.Fit.stop_le_start rfl ?_ rfl h
  intro hm
  obtain hm | hm := List.mem_append.mp hm
  · exact absurd (other.chars _ hm) (by decide)
  · simp at hm

end Reference

-- A reference in brackets and quotation marks that is assigned to a keyword.
@[ext]
structure QuotedReference (keyword : String) (line : List Char) where
  front  : List Char
  link   : List Char
  name   : List Char
  rest   : List Char
  text   : line = front ++ (keyword.toList ++ link ++ '"' :: '[' :: (name ++ ']' :: '"' :: rest))
  free   : startsWord front.getLast? = true
  links  : IsEquals link
  ne_nil : name ≠ []
  chars  : ∀ c ∈ name, c.isAlphanum = true ∨ c = '_' ∨ c = '.'

namespace QuotedReference

variable {keyword : String} {line : List Char}

def start (r : QuotedReference keyword line) : Nat := r.front.length

def fit (r : QuotedReference keyword line) : Pattern.Fit (.quotedReference keyword) line where
  front := r.front
  body := keyword.toList ++ r.link ++ '"' :: '[' :: (r.name ++ [']', '"'])
  hit := ⟨r.name, r.rest⟩
  text := by simpa using r.text
  fits := Pattern.hitAt?_quotedReference_iff.mpr ⟨r.free, ⟨r.link, r.links, by simp⟩, r.ne_nil,
    fun c hc => isReferenceChar_iff.mpr (r.chars c hc)⟩

theorem fit_bijective (keyword : String) (line : List Char) :
    (fit : QuotedReference keyword line → _).Bijective := by
  constructor
  · intro r other h
    have hname : r.name = other.name := congrArg (·.hit.name) h
    have hbody : r.fit.body = other.fit.body := congrArg (·.body) h
    have hlink : r.link = other.link := by simpa [fit, hname] using hbody
    exact QuotedReference.ext (congrArg (·.front) h) hlink hname (congrArg (·.hit.rest) h)
  · intro f
    obtain ⟨hb, ⟨link, hl, hs⟩, hne, hall⟩ := Pattern.hitAt?_quotedReference_iff.mp f.fits
    exact ⟨⟨f.front, link, f.hit.name, f.hit.rest, hs ▸ f.text, hb, hl, hne,
      fun c hc => isReferenceChar_iff.mp (hall c hc)⟩, Pattern.Fit.eq_of_start_eq rfl⟩

-- Up to the closing bracket a quoted reference is a statement.
def statement (r : QuotedReference keyword line) : Statement (.quotable keyword) line where
  front := r.front
  link := r.link ++ ['"']
  value := '[' :: r.name
  rest := ']' :: '"' :: r.rest
  text := by simpa [Pattern.keyword] using r.text
  free := r.free
  links := .inr ⟨r.link, r.links, rfl⟩
  run := by
    refine ⟨by simp, fun c hc => ?_, by rintro c ⟨⟩; decide⟩
    obtain rfl | hc := List.mem_cons.mp hc
    · decide
    · exact isNameChar_of_isReferenceChar (isReferenceChar_iff.mpr (r.chars c hc))

-- One quoted reference does not start inside of another one. Inside the statement it would be the end of the
-- value, and a bracket is what ends it; the marks that follow are no part of a keyword.
theorem stop_le_start (hk : IsKeyword (Pattern.quotable keyword).keyword)
    {r other : QuotedReference keyword line} (h : other.start < r.start) :
    other.fit.stop ≤ r.fit.start := by
  by_contra hin
  obtain hlt | hge := Nat.lt_or_ge r.start other.statement.stop
  · have hinside : r.statement.Inside other.statement := Statement.inside_of_lt hk h hlt
    have hhead : some ']' = (r.link ++ ['"']).head? :=
      Statement.head?_rest_of_inside hinside (by simp [statement])
    obtain hm | hm := List.mem_append.mp (List.mem_of_head? hhead.symm)
    · exact absurd (r.links.of_mem hm) (by decide)
    · exact absurd hm (by decide)
  · have hstop : other.fit.stop = other.statement.stop + 2 := by
      simp [Pattern.Fit.stop, fit, statement, Statement.stop, Statement.valueStart, Statement.start,
        Pattern.keyword]
      omega
    obtain ⟨j, hj⟩ : ∃ j, r.start = other.statement.stop + j := ⟨r.start - other.statement.stop, by omega⟩
    have hpos := List.length_pos_iff.mpr hk.ne_nil
    have hc : (Pattern.quotable keyword).keyword[0]? = (']' :: '"' :: other.rest)[j]? := by
      rw [← r.statement.getElem?_keyword hpos]
      exact (congrArg (getElem? line) hj).trans (other.statement.getElem?_rest j)
    have hno {c : Char} (hc : (Pattern.quotable keyword).keyword[0]? = some c) : isNameChar c = true :=
      hk.names c (List.mem_of_getElem? hc)
    obtain rfl | rfl : j = 0 ∨ j = 1 := by
      have : r.fit.start = r.start := rfl
      omega
    · exact absurd (hno hc) (by decide)
    · exact absurd (hno hc) (by decide)

end QuotedReference

-- The start of a displayed property.
@[ext]
structure Display (line : List Char) where
  front    : List Char
  name     : List Char
  property : List Char
  rest     : List Char
  text     : line = front ++ '[' :: (name ++ (property ++ rest))
  ne_nil   : name ≠ []
  chars    : ∀ c ∈ name, (foldCase c).isAlphanum = true ∨ foldCase c = '_'
  shown    : IsProperty property

namespace Display

variable {line : List Char}

def start (d : Display line) : Nat := d.front.length

def fit (d : Display line) : Pattern.Fit .displayed line where
  front := d.front
  body := '[' :: (d.name ++ d.property)
  hit := ⟨d.name, d.rest⟩
  text := by simpa using d.text
  fits := Pattern.hitAt?_displayed_iff.mpr ⟨⟨d.property, d.shown, by simp⟩, d.ne_nil,
    fun c hc => isDisplayChar_iff.mpr (d.chars c hc)⟩

theorem fit_bijective (line : List Char) : (fit : Display line → _).Bijective := by
  constructor
  · intro d other h
    have hname : d.name = other.name := congrArg (·.hit.name) h
    have hbody : d.fit.body = other.fit.body := congrArg (·.body) h
    have hproperty : d.property = other.property := by simpa [fit, hname] using hbody
    exact Display.ext (congrArg (·.front) h) hname hproperty (congrArg (·.hit.rest) h)
  · intro f
    obtain ⟨⟨property, hp, hs⟩, hne, hall⟩ := Pattern.hitAt?_displayed_iff.mp f.fits
    exact ⟨⟨f.front, f.hit.name, property, f.hit.rest, hs ▸ f.text, hne,
      fun c hc => isDisplayChar_iff.mp (hall c hc), hp⟩, Pattern.Fit.eq_of_start_eq rfl⟩

theorem stop_le_start {d other : Display line} (h : other.start < d.start) : other.fit.stop ≤ d.fit.start := by
  refine Pattern.Fit.stop_le_start rfl ?_ rfl h
  intro hm
  obtain hm | hm := List.mem_append.mp hm
  · exact absurd (other.chars _ hm) (by decide)
  · have hfold : '[' ∈ other.property.map foldCase := List.mem_map.mpr ⟨_, hm, by decide⟩
    cases other.shown
    case inl hp => exact absurd (hp ▸ hfold) (by decide +kernel)
    case inr hp => exact absurd (hp ▸ hfold) (by decide +kernel)

end Display

-- What a rule yields if no two places of its pattern overlap: the names of all places that pass.
theorem Rule.exists_found_all (rule : Rule) {line : List Char} {α : Type}
    {fit : α → Pattern.Fit rule.pattern line} (hfit : fit.Bijective)
    (hapart : ∀ a b, (fit b).start < (fit a).start → (fit b).stop ≤ (fit a).start)
    (allow : Allowlist) (file : String) (number : Nat) :
    ∃ found : List α, found.Pairwise (fun a b => (fit a).start < (fit b).start) ∧
      extractLine [rule] allow file number line =
        found.map (fun a => rule.occurrence file number (fit a).hit.name) ∧
      ∀ a, a ∈ found ↔ rule.passes allow (fit a).hit.name = true := by
  have ⟨found, horder, hyield, hfound⟩ := rule.exists_found hfit allow file number
  exact ⟨found, horder, hyield, fun a => hfound a (hapart a)⟩

theorem isScriptedReference_iff {name : List Char} : isScriptedReference name = true ↔
    '.' ∉ name ∧ ∃ ending ∈ ["_scripted_loc", "_scl"], ending.toList <:+ name := by
  simp [isScriptedReference, isUnqualified, scriptedEndings]

-- References are extracted exactly: all of them, and nothing else. Of localised text all is significant.
theorem references_extracted (allow : Allowlist) (file : String) (number : Nat) (raw : List Char) :
    (∃ uses : List (Reference raw), uses.Pairwise (fun a b => a.start < b.start) ∧
      extractLine (applicable Checker.scriptedLocalisation.rules .localisation file) allow file number
          (FileClass.localisation.significant raw) =
        uses.map (fun r => ⟨.scriptedLocalisation, String.ofList r.name, ⟨file, number⟩, .use⟩) ∧
      ∀ r, r ∈ uses ↔ '.' ∉ r.name ∧ (∃ ending ∈ ["_scripted_loc", "_scl"], ending.toList <:+ r.name) ∧
        allow.isPlaceholder (String.ofList r.name) = false) ∧
    (let line := FileClass.interface.significant raw
      ∃ uses : List (QuotedReference "text" line), uses.Pairwise (fun a b => a.start < b.start) ∧
        extractLine (applicable Checker.scriptedLocalisation.rules .interface file) allow file number line =
          uses.map (fun r => ⟨.scriptedLocalisation, String.ofList r.name, ⟨file, number⟩, .use⟩) ∧
        ∀ r, r ∈ uses ↔ '.' ∉ r.name ∧ allow.isPlaceholder (String.ofList r.name) = false) ∧
    ∃ mentions : List (Display raw), mentions.Pairwise (fun a b => a.start < b.start) ∧
      extractLine (applicable Checker.flagsAndTargets.rules .localisation file) allow file number
          (FileClass.localisation.significant raw) =
        mentions.map (fun d => ⟨.eventTarget, String.ofList d.name, ⟨file, number⟩, .mention⟩) ∧
      ∀ d, d ∈ mentions ↔ allow.isPlaceholder (String.ofList d.name) = false := by
  -- In each case one rule of the table applies to the files of the class.
  refine ⟨?localised, ?interface, ?displayed⟩
  case localised =>
    let rule : Rule := ⟨.scriptedLocalisation, .use, { cls := .localisation }, .reference, .scriptedReference⟩
    obtain ⟨uses, horder, hyield, huses⟩ := rule.exists_found_all
      (Reference.fit_bijective raw) (fun _ _ => Reference.stop_le_start) allow file number
    refine ⟨uses, horder, hyield, fun r => ?_⟩
    simp [huses, Rule.passes, NameTest.accepts, isScriptedReference_iff, Reference.fit, and_assoc, rule]
  case interface =>
    intro line
    let rule : Rule := ⟨.scriptedLocalisation, .use, { cls := .interface }, .quotedReference "text", .unqualified⟩
    have hk : IsKeyword (Pattern.quotable "text").keyword := by decide +kernel
    obtain ⟨uses, horder, hyield, huses⟩ := rule.exists_found_all (QuotedReference.fit_bijective "text" line)
      (fun _ _ => QuotedReference.stop_le_start hk) allow file number
    refine ⟨uses, horder, hyield, fun r => ?_⟩
    simp [huses, Rule.passes, NameTest.accepts, isUnqualified, QuotedReference.fit, rule]
  case displayed =>
    let rule : Rule := ⟨.eventTarget, .mention, { cls := .localisation }, .displayed, .unqualified⟩
    obtain ⟨mentions, horder, hyield, hmentions⟩ := rule.exists_found_all
      (Display.fit_bijective raw) (fun _ _ => Display.stop_le_start) allow file number
    refine ⟨mentions, horder, hyield, fun d => ?_⟩
    have hdot : '.' ∉ d.name := fun hm => absurd (d.chars _ hm) (by decide)
    simp [hmentions, Rule.passes, NameTest.accepts, isUnqualified, Display.fit, hdot, rule]

end CrossRef
