import CrossRef.Defect
import CrossRef.Proofs.Ledger
import Mathlib.Data.List.Sort
import Mathlib.Data.Prod.Lex
import Mathlib.Data.String.Basic
import Mathlib.Order.WithBot

namespace CrossRef

namespace Location

-- Locations as pairs, whose lexicographic order is theirs.
def rank (l : Location) : String ×ₗ Nat := toLex (l.file, l.line)

theorem lt_iff_rank_lt {a b : Location} : a < b ↔ a.rank < b.rank := by
  rw [rank, rank, Prod.Lex.toLex_lt_toLex]
  rfl

theorem rank_injective : Function.Injective rank := by
  intro a b h
  have ⟨hf, hl⟩ := Prod.mk.inj (toLex.injective h)
  cases a
  cases b
  simp_all

end Location

namespace Defect

-- The strict order of defects that have locations: by first location and then by name.
def Before (a b : Defect) : Prop :=
  ∃ x y, a.locations.head? = some x ∧ b.locations.head? = some y ∧ (x < y ∨ (x = y ∧ a.name < b.name))

-- What the order of defects compares. A defect without locations has the least first place.
def rank (d : Defect) : WithBot (String ×ₗ Nat) ×ₗ String :=
  toLex (d.locations.head?.elim ⊥ fun l => (l.rank : WithBot _), d.name)

theorem le_iff_rank_le {a b : Defect} : a.le b = true ↔ a.rank ≤ b.rank := by
  rw [rank, rank, Prod.Lex.toLex_le_toLex, le]
  cases a.locations.head? <;> cases b.locations.head?
  case none.none => simp [-String.lt_iff_ltb]
  case none.some => simp
  case some.none => simp
  case some.some x y =>
    simp [-String.lt_iff_ltb, Location.lt_iff_rank_lt, Location.rank_injective.eq_iff]

theorem before_iff_rank_lt {a b : Defect} (ha : a.locations ≠ []) (hb : b.locations ≠ []) :
    a.Before b ↔ a.rank < b.rank := by
  have ⟨x, xs, hx⟩ := List.exists_cons_of_ne_nil ha
  have ⟨y, ys, hy⟩ := List.exists_cons_of_ne_nil hb
  rw [rank, rank, Prod.Lex.toLex_lt_toLex]
  simp [-String.lt_iff_ltb, Before, hx, hy, Location.lt_iff_rank_lt, Location.rank_injective.eq_iff]

theorem Before.asymm {a b : Defect} (h : a.Before b) : ¬b.Before a := by
  intro h'
  have ⟨x, y, hx, hy, _⟩ := h
  have ha : a.locations ≠ [] := fun ha => by simp [ha] at hx
  have hb : b.locations ≠ [] := fun hb => by simp [hb] at hy
  exact lt_asymm ((before_iff_rank_lt ha hb).mp h) ((before_iff_rank_lt hb ha).mp h')

theorem pairwise_rank_mergeSort (ds : List Defect) :
    (ds.mergeSort le).Pairwise fun a b => a.rank ≤ b.rank := by
  have h := @List.pairwise_mergeSort _ le
    (fun a b c hab hbc => le_iff_rank_le.mpr <| (le_iff_rank_le.mp hab).trans (le_iff_rank_le.mp hbc))
    (fun a b => by simpa [le_iff_rank_le] using le_total a.rank b.rank) ds
  exact h.imp le_iff_rank_le.mp

end Defect

-- A list that shows each symbol of a kind that has `present`, none of `absent` and a name that is not
-- skipped. It shows the symbol once, with all places of `present`.
structure ListsGaps (os : List Occurrence) (kind : Kind) (present : Action) (absent : List Action)
    (skip : String → Bool) (ds : List Defect) : Prop where
  nodup     : (ds.map (·.name)).Nodup
  mem_iff   : ∀ name, name ∈ ds.map (·.name) ↔
    Occurs os kind name present ∧ (∀ action ∈ absent, ¬Occurs os kind name action) ∧ skip name = false
  kinds     : ∀ d ∈ ds, d.kind = kind
  locations : ∀ d ∈ ds, d.locations = sitesIn os kind d.name present

-- The list of gaps is in the order of defects.
structure IsGapList (os : List Occurrence) (kind : Kind) (present : Action) (absent : List Action)
    (skip : String → Bool) (ds : List Defect) : Prop
    extends ListsGaps os kind present absent skip ds where
  sorted : ds.Pairwise Defect.Before

namespace ListsGaps

variable {os : List Occurrence} {kind : Kind} {present : Action} {absent : List Action}
variable {skip : String → Bool} {ds ds' : List Defect}

theorem perm (h : ListsGaps os kind present absent skip ds) (hp : ds'.Perm ds) :
    ListsGaps os kind present absent skip ds' where
  nodup := (hp.map _).nodup_iff.mpr h.nodup
  mem_iff name := (hp.map _).mem_iff.trans (h.mem_iff name)
  kinds d hd := h.kinds d (hp.mem_iff.mp hd)
  locations d hd := h.locations d (hp.mem_iff.mp hd)

theorem locations_ne_nil (h : ListsGaps os kind present absent skip ds) {d : Defect} (hd : d ∈ ds) :
    d.locations ≠ [] := by
  rw [h.locations d hd, sitesIn_ne_nil_iff]
  exact (h.mem_iff d.name).mp (List.mem_map_of_mem hd) |>.1

theorem mergeSort (h : ListsGaps os kind present absent skip ds) :
    IsGapList os kind present absent skip (ds.mergeSort Defect.le) where
  toListsGaps := h.perm (List.mergeSort_perm ds Defect.le)
  sorted := by
    have h := h.perm (List.mergeSort_perm ds Defect.le)
    have hn := List.pairwise_map.mp h.nodup
    refine (Defect.pairwise_rank_mergeSort ds).and hn |>.imp_of_mem fun {a b} ha hb ⟨hle, hname⟩ => ?_
    refine (Defect.before_iff_rank_lt (h.locations_ne_nil ha) (h.locations_ne_nil hb)).mpr ?_
    exact lt_of_le_of_ne hle fun he => hname (Prod.mk.inj (toLex.injective he)).2

end ListsGaps

namespace IsGapList

variable {os os' : List Occurrence} {k : Kind} {present : Action} {absent : List Action}
variable {skip : String → Bool} {ds ds' : List Defect}

-- A symbol with the same places in both has the same defect in two lists that show it.
theorem mem_of_name_mem (h : IsGapList os k present absent skip ds)
    (h' : IsGapList os' k present absent skip ds') {d : Defect} (hd : d ∈ ds)
    (hn : d.name ∈ ds'.map (·.name))
    (hs : sitesIn os' k d.name present = sitesIn os k d.name present) : d ∈ ds' := by
  have ⟨d', hd', he⟩ := List.mem_map.mp hn
  have hl : d'.locations = d.locations := by rw [h.locations d hd, h'.locations d' hd', he, hs]
  have hk : d'.kind = d.kind := by rw [h.kinds d hd, h'.kinds d' hd']
  cases d
  cases d'
  simp_all

theorem mem_of_mem (h : IsGapList os k present absent skip ds)
    (h' : IsGapList os k present absent skip ds') {d : Defect} (hd : d ∈ ds) : d ∈ ds' := by
  have hn := (h'.mem_iff d.name).mpr <| (h.mem_iff d.name).mp <| List.mem_map_of_mem hd
  exact h.mem_of_name_mem h' hd hn rfl

-- The places of the symbols determine the list of gaps.
theorem unique (h : IsGapList os k present absent skip ds)
    (h' : IsGapList os k present absent skip ds') : ds = ds' := by
  refine List.Perm.eq_of_pairwise (fun a b _ _ hab hba => absurd hba hab.asymm) h.sorted h'.sorted ?_
  refine (List.perm_ext_iff_of_nodup h.nodup.of_map h'.nodup.of_map).mpr fun d => ?_
  exact ⟨h.mem_of_mem h', h'.mem_of_mem h⟩

-- More occurrences of actions that must be absent only take symbols off the list.
theorem sublist (h : IsGapList os k present absent skip ds)
    (h' : IsGapList os' k present absent skip ds')
    (hp : ∀ name, sitesIn os' k name present = sitesIn os k name present)
    (ha : ∀ name, ∀ action ∈ absent, Occurs os k name action → Occurs os' k name action) :
    ds'.Sublist ds := by
  have hsub : ds' ⊆ ds := by
    intro d hd
    have ⟨ho, hno, hs⟩ := (h'.mem_iff d.name).mp (List.mem_map_of_mem hd)
    rw [← sitesIn_ne_nil_iff, hp, sitesIn_ne_nil_iff] at ho
    have hn := (h.mem_iff d.name).mpr ⟨ho, fun a hm => mt (ha d.name a hm) (hno a hm), hs⟩
    exact h'.mem_of_name_mem h hd hn (hp d.name).symm
  have : Std.Antisymm Defect.Before := ⟨fun a b hab hba => absurd hba hab.asymm⟩
  exact List.sublist_of_subperm_of_pairwise (List.subperm_of_subset h'.nodup.of_map hsub) h'.sorted h.sorted

-- Symbols whose names are skipped do not matter for a list of gaps.
theorem congr (h : IsGapList os k present absent skip ds)
    (hs : ∀ name action, skip name = false → sitesIn os k name action = sitesIn os' k name action) :
    IsGapList os' k present absent skip ds where
  nodup := h.nodup
  mem_iff name := by
    rw [h.mem_iff]
    cases hn : skip name
    case true  => simp
    case false => simp only [← sitesIn_ne_nil_iff, hs name _ hn]
  kinds := h.kinds
  locations d hd := by
    have hn := (h.mem_iff d.name).mp (List.mem_map_of_mem hd) |>.2.2
    rw [h.locations d hd, hs d.name present hn]
  sorted := h.sorted

theorem filter (h : IsGapList os k present absent skip ds) (skip' : String → Bool) :
    IsGapList os k present absent (fun name => skip name || skip' name)
      (ds.filter fun d => !skip' d.name) where
  nodup := h.nodup.sublist <| List.filter_sublist.map _
  mem_iff name := by
    have hm := h.mem_iff name
    simp only [List.mem_map, List.mem_filter, Bool.not_eq_eq_eq_not, Bool.not_true] at hm ⊢
    grind
  kinds d hd := h.kinds d (List.mem_of_mem_filter hd)
  locations d hd := h.locations d (List.mem_of_mem_filter hd)
  sorted := h.sorted.filter _

end IsGapList

theorem Ledger.Records.isGap_iff {ledger : Ledger} {os : List Occurrence} (h : ledger.Records os)
    {kind : Kind} {name : String} {entry : Entry} (hm : (name, entry) ∈ ledger.entries kind)
    (present : Action) (absent : List Action) :
    entry.isGap present absent = true ↔
      Occurs os kind name present ∧ ∀ action ∈ absent, ¬Occurs os kind name action := by
  simp [Entry.isGap, ← h.has_iff_of_mem_entries hm]

theorem Ledger.Records.isGapList_gaps {ledger : Ledger} {os : List Occurrence} (h : ledger.Records os)
    (kind : Kind) (present : Action) (absent : List Action) (skip : String → Bool) :
    IsGapList os kind present absent skip (ledger.gaps kind present absent skip) := by
  unfold gaps
  extract_lets found
  have hfound : ∀ name entry, (name, entry) ∈ found ↔ (name, entry) ∈ ledger.entries kind ∧
      Occurs os kind name present ∧ (∀ a ∈ absent, ¬Occurs os kind name a) ∧ skip name = false := by
    intro name entry
    simp only [found, List.mem_filter, Bool.and_eq_true, Bool.not_eq_eq_eq_not, Bool.not_true]
    refine and_congr_right fun hm => ?_
    rw [h.isGap_iff hm present absent, and_assoc]
  refine ListsGaps.mergeSort ⟨?nodup, ?mem_iff, ?kinds, ?locations⟩
  case nodup =>
    rw [List.map_map]
    exact (ledger.nodup_names kind).sublist <| List.filter_sublist.map _
  case mem_iff =>
    intro name
    simp only [List.map_map, List.mem_map, Function.comp_apply]
    constructor
    · rintro ⟨⟨_, entry⟩, hm, rfl⟩
      exact ((hfound _ entry).mp hm).2
    · intro hg
      have ⟨entry, hm⟩ := h.exists_mem_entries hg.1
      exact ⟨(name, entry), (hfound _ _).mpr ⟨hm, hg⟩, rfl⟩
  case kinds =>
    intro d hd
    obtain ⟨_, _, rfl⟩ := List.mem_map.mp hd
    rfl
  case locations =>
    intro d hd
    obtain ⟨⟨name, entry⟩, hm, rfl⟩ := List.mem_map.mp hd
    exact h.sites_of_mem_entries ((hfound _ _).mp hm).1 present

end CrossRef
