import CrossRef.Extraction
import CrossRef.Proofs.Reading
import Mathlib.Data.List.Basic

namespace CrossRef

open Text

section

variable {before : Option Char} {s : List Char} {hit : Hit}

theorem exists_text_of_assigned? {keyword : List Char} (h : assigned? keyword before s = some hit) :
    hit.name ≠ [] ∧ ∃ pre post, s = pre ++ hit.name ++ post ++ hit.rest := by
  have ⟨_, ⟨link, _, hs⟩, hrun⟩ := assigned?_eq_some_iff.mp h
  exact ⟨hrun.ne_nil, keyword ++ link, [], by simpa using hs⟩

theorem exists_text_of_flagInBlock? (h : flagInBlock? before s = some hit) :
    hit.name ≠ [] ∧ ∃ pre post, s = pre ++ hit.name ++ post ++ hit.rest := by
  induction s generalizing before <;> simp only [flagInBlock?] at h
  case nil => simp at h
  case cons c rest ih =>
    split at h
    · rename_i ha
      exact Option.some.inj h ▸ exists_text_of_assigned? ha
    · split at h
      · simp at h
      · obtain ⟨hn, pre, post, hs⟩ := ih h
        exact ⟨hn, c :: pre, post, by simpa using hs⟩

end

namespace Pattern

variable {p : Pattern} {before : Option Char} {s : List Char} {hit : Hit}

-- What a pattern reads has the name in it, and the rest follows.
theorem exists_text_of_hitAt? (h : p.hitAt? before s = some hit) :
    hit.name ≠ [] ∧ ∃ pre post, s = pre ++ hit.name ++ post ++ hit.rest := by
  by_cases hp : p.isStatement = true
  · obtain ⟨_, ⟨link, _, hs⟩, hrun⟩ := exists_links_of_hitAt? hp h
    exact ⟨hrun.ne_nil, p.keyword ++ link, [], by simpa using hs⟩
  cases p
  case flagged keyword =>
    simp only [hitAt?] at h
    split at h
    · rename_i hk
      obtain ⟨_, ⟨link, _, hs⟩, _⟩ := bind_afterEquals?_eq_some_iff.mp hk
      obtain ⟨hn, pre, post, hbody⟩ := exists_text_of_flagInBlock? h
      exact ⟨hn, keyword.toList ++ link ++ '{' :: pre, post, by simp [hs, hbody]⟩
    · simp at h
  case quotedReference keyword =>
    obtain ⟨_, ⟨link, _, hs⟩, hn, _⟩ := hitAt?_quotedReference_iff.mp h
    exact ⟨hn, keyword.toList ++ link ++ ['"', '['], [']', '"'], by simp [hs]⟩
  case reference =>
    obtain ⟨hs, hn, _⟩ := hitAt?_reference_iff.mp h
    exact ⟨hn, ['['], [']'], by simp [hs]⟩
  case displayed =>
    unfold hitAt? at h
    split at h <;> cases ‹displayed = _›
    · obtain ⟨read, hr, h⟩ := Option.bind_eq_some_iff.mp h
      obtain ⟨ht, hrun⟩ := Hit.run?_eq_some_iff.mp hr
      obtain ⟨hname, get, word, hrest, _⟩ := readProperty_eq_some_iff.mp h
      exact ⟨hname ▸ hrun.ne_nil, ['['], get ++ word, by simp [ht, hname, hrest]⟩
    · simp at h
  all_goals exact absurd rfl hp

-- A place of a line where a pattern fits: what stands before it, what it reads, and what it finds.
@[ext]
structure Fit (p : Pattern) (line : List Char) where
  front : List Char
  body  : List Char
  hit   : Hit
  text  : line = front ++ (body ++ hit.rest)
  fits  : p.hitAt? front.getLast? (body ++ hit.rest) = some hit

namespace Fit

variable {line : List Char}

def start (f : Fit p line) : Nat := f.front.length

def stop (f : Fit p line) : Nat := f.front.length + f.body.length

theorem eq_of_start_eq {f g : Fit p line} (h : f.start = g.start) : f = g := by
  have ⟨hfront, htail⟩ := List.append_inj (f.text.symm.trans g.text) h
  have hhit : f.hit = g.hit := by
    have hf := f.fits
    rw [hfront, htail, g.fits] at hf
    exact (Option.some.inj hf).symm
  exact Fit.ext hfront (List.append_cancel_right (hhit ▸ htail)) hhit

theorem body_ne_nil (f : Fit p line) : f.body ≠ [] := by
  intro hnil
  have ⟨hn, pre, post, hs⟩ := exists_text_of_hitAt? f.fits
  have hl := congrArg List.length hs
  have := List.length_pos_iff.mpr hn
  simp [hnil] at hl
  omega

theorem start_lt_stop (f : Fit p line) : f.start < f.stop :=
  Nat.lt_add_of_pos_right (List.length_pos_iff.mpr f.body_ne_nil)

theorem start_lt_length (f : Fit p line) : f.start < line.length := by
  refine Nat.lt_of_lt_of_le f.start_lt_stop ?_
  simp [congrArg List.length f.text, stop]

end Fit

-- What a scan from position `lo` on takes: places from left to right that do not overlap, and every place
-- that does not start inside of one of them.
structure Takes (p : Pattern) (line : List Char) (lo : Nat) (taken : List (Fit p line)) : Prop where
  apart    : taken.Pairwise fun f g => f.stop ≤ g.start
  starts   : ∀ f ∈ taken, lo ≤ f.start
  complete : ∀ f, lo ≤ f.start → f ∈ taken ∨ ∃ g ∈ taken, g.start < f.start ∧ f.start < g.stop

namespace Takes

variable {line : List Char} {lo : Nat} {taken : List (Fit p line)}

theorem nil (h : line.length ≤ lo) : Takes p line lo [] where
  apart := .nil
  starts := by simp
  complete f hf := by
    have := f.start_lt_length
    omega

theorem skip (h : Takes p line (lo + 1) taken) (hno : ∀ f : Fit p line, f.start ≠ lo) :
    Takes p line lo taken where
  apart := h.apart
  starts f hf := Nat.le_of_succ_le (h.starts f hf)
  complete f hf := h.complete f (Nat.lt_of_le_of_ne hf (hno f).symm)

theorem cons (f : Fit p line) (h : Takes p line f.stop taken) : Takes p line f.start (f :: taken) where
  apart := List.pairwise_cons.mpr ⟨h.starts, h.apart⟩
  starts g hg := by
    cases List.mem_cons.mp hg
    case inl hg => exact hg ▸ Nat.le_refl _
    case inr hg => exact Nat.le_trans (Nat.le_add_right ..) (h.starts g hg)
  complete g hg := by
    obtain heq | hlt := Nat.eq_or_lt_of_le hg
    · exact .inl (Fit.eq_of_start_eq heq ▸ List.mem_cons_self ..)
    obtain hin | hout := Nat.lt_or_ge g.start f.stop
    · exact .inr ⟨f, List.mem_cons_self .., hlt, hin⟩
    cases h.complete g hout
    case inl hg => exact .inl (List.mem_cons_of_mem _ hg)
    case inr hg =>
      have ⟨f', hf', hover⟩ := hg
      exact .inr ⟨f', List.mem_cons_of_mem _ hf', hover⟩

end Takes

theorem exists_takes_namesFrom {line : List Char} (front : List Char) (skip : Nat) (hs : line = front ++ s) :
    ∃ taken, Takes p line (front.length + skip) taken ∧
      p.namesFrom skip front.getLast? s = taken.map (·.hit.name) := by
  induction s generalizing front skip
  case nil => exact ⟨[], .nil (by simp [hs]), by simp [namesFrom]⟩
  case cons c rest ih =>
    have hnext : line = (front ++ [c]) ++ rest := by simpa using hs
    cases skip
    case succ skip =>
      obtain ⟨taken, ht, hn⟩ := ih _ skip hnext
      have hlo : (front ++ [c]).length + skip = front.length + (skip + 1) := by simp; omega
      exact ⟨taken, hlo ▸ ht, by simpa [namesFrom] using hn⟩
    case zero =>
      cases hhit : p.hitAt? front.getLast? (c :: rest)
      case none =>
        obtain ⟨taken, ht, hn⟩ := ih _ 0 hnext
        refine ⟨taken, .skip (by simpa using ht) fun f hf => ?_, by simpa [namesFrom, hhit] using hn⟩
        obtain ⟨hfront, htail⟩ := List.append_inj (f.text.symm.trans hs) hf
        exact Option.some_ne_none _ (f.fits.symm.trans (hfront ▸ htail ▸ hhit))
      case some hit =>
        obtain ⟨_, pre, post, hbody⟩ := exists_text_of_hitAt? hhit
        let f : Fit p line := ⟨front, pre ++ hit.name ++ post, hit, hbody ▸ hs, hbody ▸ hhit⟩
        have hlen : f.stop = (front ++ [c]).length + (rest.length - hit.rest.length) := by
          have hl := congrArg List.length hbody
          have := List.length_pos_iff.mpr f.body_ne_nil
          simp [f, Fit.stop] at hl this ⊢
          omega
        obtain ⟨taken, ht, hn⟩ := ih _ (rest.length - hit.rest.length) hnext
        refine ⟨f :: taken, .cons f (hlen ▸ ht), ?_⟩
        simpa [namesFrom, hhit, f] using hn

theorem exists_takes_names (p : Pattern) (line : List Char) :
    ∃ taken, Takes p line 0 taken ∧ p.names line = taken.map (·.hit.name) :=
  exists_takes_namesFrom [] 0 rfl

end Pattern

namespace Rule

-- What a rule makes of a name that it finds on a line.
def occurrence (rule : Rule) (file : String) (number : Nat) (name : List Char) : Occurrence :=
  ⟨rule.kind, String.ofList name, ⟨file, number⟩, rule.action⟩

-- Whether the rule yields a name where it finds it.
def passes (rule : Rule) (allow : Allowlist) (name : List Char) : Bool :=
  rule.test.accepts name && !allow.isPlaceholder (String.ofList name)

variable {line : List Char}

theorem extractLine_singleton (rule : Rule) (allow : Allowlist) (file : String) (number : Nat)
    (line : List Char) : extractLine [rule] allow file number line =
      ((rule.pattern.names line).filter (rule.passes allow)).map (rule.occurrence file number) := by
  rw [extractLine, List.flatMap_singleton, ← List.filterMap_eq_map, List.filterMap_filter]
  rfl

-- What a rule yields on a line, told by descriptions of the places where its pattern fits. A place that
-- does not start inside of another one is found exactly if its name passes.
theorem exists_found (rule : Rule) {α : Type} {fit : α → Pattern.Fit rule.pattern line}
    (hfit : fit.Bijective) (allow : Allowlist) (file : String) (number : Nat) :
    ∃ found : List α, found.Pairwise (fun a b => (fit a).start < (fit b).start) ∧
      extractLine [rule] allow file number line =
        found.map (fun a => rule.occurrence file number (fit a).hit.name) ∧
      ∀ a, (∀ b, (fit b).start < (fit a).start → (fit b).stop ≤ (fit a).start) →
        (a ∈ found ↔ rule.passes allow (fit a).hit.name = true) := by
  have ⟨fits, hfits, hnames⟩ := rule.pattern.exists_takes_names line
  obtain ⟨taken, rfl⟩ := List.map_surjective_iff.mpr hfit.surjective fits
  refine ⟨taken.filter fun a => rule.passes allow (fit a).hit.name, ?order, ?yield, fun a ha => ?taken⟩
  case order =>
    refine (List.pairwise_map.mp hfits.apart).sublist List.filter_sublist |>.imp fun {a b} h => ?_
    exact Nat.lt_of_lt_of_le (fit a).start_lt_stop h
  case yield =>
    rw [extractLine_singleton, hnames, List.map_map, List.filter_map, List.map_map]
    rfl
  case taken =>
    have hmem : a ∈ taken := by
      cases hfits.complete (fit a) (Nat.zero_le _)
      case inl h => exact (List.mem_map_of_injective hfit.injective).mp h
      case inr h =>
        have ⟨_, hb, hlt, hin⟩ := h
        obtain ⟨b, _, rfl⟩ := List.mem_map.mp hb
        exact absurd hin (Nat.not_lt.mpr (ha b hlt))
    simp [hmem]

end Rule

end CrossRef
