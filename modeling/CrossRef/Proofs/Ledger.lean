import CrossRef.Ledger
import Mathlib.Data.List.Nodup

namespace CrossRef

-- The places where an action is done to a symbol, in the order of the occurrences.
def sitesIn (os : List Occurrence) (kind : Kind) (name : String) (action : Action) : List Location :=
  (os.filter fun o => o.kind = kind ∧ o.name = name ∧ o.action = action).map (·.location)

def Occurs (os : List Occurrence) (kind : Kind) (name : String) (action : Action) : Prop :=
  ∃ o ∈ os, o.kind = kind ∧ o.name = name ∧ o.action = action

-- The names in the occurrences of a kind, with repetitions.
def namesIn (os : List Occurrence) (kind : Kind) : List String :=
  (os.filter fun o => o.kind = kind).map (·.name)

section Sites

variable {os os' : List Occurrence} {kind : Kind} {name : String} {action : Action}

theorem sitesIn_append : sitesIn (os ++ os') kind name action =
    sitesIn os kind name action ++ sitesIn os' kind name action := by
  simp [sitesIn]

theorem sitesIn_ne_nil_iff : sitesIn os kind name action ≠ [] ↔ Occurs os kind name action := by
  simp [sitesIn, Occurs]

theorem sitesIn_eq_nil_iff : sitesIn os kind name action = [] ↔ ¬Occurs os kind name action := by
  rw [← sitesIn_ne_nil_iff, not_not]

theorem sitesIn_snoc (o : Occurrence) : sitesIn (os ++ [o]) kind name action =
    if o.kind = kind ∧ o.name = name ∧ o.action = action then sitesIn os kind name action ++ [o.location]
    else sitesIn os kind name action := by
  by_cases h : o.kind = kind ∧ o.name = name ∧ o.action = action <;> simp [sitesIn, h]

theorem mem_namesIn_iff : name ∈ namesIn os kind ↔ ∃ action, Occurs os kind name action := by
  simp only [namesIn, Occurs, List.mem_map, List.mem_filter, decide_eq_true_eq]
  grind

theorem namesIn_snoc (o : Occurrence) :
    namesIn (os ++ [o]) kind = if o.kind = kind then namesIn os kind ++ [o.name] else namesIn os kind := by
  by_cases h : o.kind = kind <;> simp [namesIn, h]

end Sites

namespace Ledger

def names (ledger : Ledger) (kind : Kind) : List String := (ledger.entries kind).map (·.1)

-- The entry of a symbol, which is empty before the symbol is recorded.
def entry (ledger : Ledger) (kind : Kind) (name : String) : Entry := (ledger.get? kind name).getD {}

section Entries

variable (ledger : Ledger) (o : Occurrence) (kind : Kind)

theorem entries_record : (ledger.record o).entries kind =
    if o.kind = kind then
      IndexMap.modifyIn o.name {} (·.add o.action o.location) (ledger.entries kind)
    else ledger.entries kind := by
  simp only [entries, record, IndexMap.get?_modify]
  by_cases h : o.kind = kind
  case pos =>
    subst h
    cases hk : ledger.kinds.get? o.kind <;> simp [IndexMap.modify]
  case neg => simp [h]

theorem get?_eq_lookup (name : String) : ledger.get? kind name = (ledger.entries kind).lookup name := by
  rw [get?, entries]
  cases ledger.kinds.get? kind <;> rfl

theorem nodup_names : (ledger.names kind).Nodup := by
  rw [names, entries]
  cases ledger.kinds.get? kind
  case none => exact .nil
  case some m => exact m.nodup

theorem size_eq_length_names : ledger.size kind = (ledger.names kind).length := by
  rw [size, names, entries]
  cases ledger.kinds.get? kind <;> simp [IndexMap.size]

variable {ledger kind}

theorem mem_entries_iff {name : String} {entry : Entry} :
    (name, entry) ∈ ledger.entries kind ↔ ledger.get? kind name = some entry := by
  rw [get?_eq_lookup]
  exact IndexMap.mem_iff_lookup_eq_some (ledger.nodup_names kind)

theorem mem_names_iff {name : String} : name ∈ ledger.names kind ↔ (ledger.get? kind name).isSome := by
  simp only [names, List.mem_map, Option.isSome_iff_exists, ← mem_entries_iff]
  grind

theorem isEmpty_iff : ledger.isEmpty = true ↔ ∀ kind, ledger.entries kind = [] := by
  simp only [isEmpty, List.all_eq_true, IndexMap.isEmpty, List.isEmpty_iff]
  constructor
  · intro h kind
    cases hk : ledger.kinds.get? kind
    case none => simp [entries, hk]
    case some m => simpa [entries, hk] using h _ (IndexMap.mem_items_iff.mpr hk)
  · intro h ⟨kind, m⟩ hm
    simpa [entries, IndexMap.mem_items_iff.mp hm] using h kind

end Entries

section Step

variable (ledger : Ledger) (o : Occurrence)

theorem names_record (kind : Kind) : (ledger.record o).names kind =
    if o.kind = kind ∧ o.name ∉ ledger.names kind then ledger.names kind ++ [o.name]
    else ledger.names kind := by
  by_cases h : o.kind = kind
  case neg => simp [names, entries_record, h]
  case pos =>
    have hkeys := IndexMap.keys_modifyIn o.name {} (·.add o.action o.location) (ledger.entries kind)
    by_cases hn : o.name ∈ (ledger.entries kind).map (·.1) <;> simp [names, entries_record, h, hkeys, hn]

theorem get?_record (kind : Kind) (name : String) : (ledger.record o).get? kind name =
    if o.kind = kind ∧ o.name = name then some ((ledger.entry kind name).add o.action o.location)
    else ledger.get? kind name := by
  simp only [entry, get?_eq_lookup, entries_record]
  by_cases hk : o.kind = kind
  case neg => simp [hk]
  case pos =>
    by_cases hn : o.name = name <;> simp [hk, hn, IndexMap.lookup_modifyIn]

theorem sites_entry_record (kind : Kind) (name : String) (action : Action) :
    ((ledger.record o).entry kind name).sites action =
      if o.kind = kind ∧ o.name = name ∧ o.action = action then
        (ledger.entry kind name).sites action ++ [o.location]
      else (ledger.entry kind name).sites action := by
  by_cases h : o.kind = kind ∧ o.name = name
  case pos => simp [entry, get?_record, h, Entry.sites_add]
  case neg =>
    have h' : ¬(o.kind = kind ∧ o.name = name ∧ o.action = action) := fun h' => h ⟨h'.1, h'.2.1⟩
    simp [entry, get?_record, h, h']

end Step

-- What holds of a ledger and the occurrences in it, and goes on to hold after one more of them, holds after
-- any number of them.
theorem extend_induct {motive : Ledger → List Occurrence → Prop}
    (step : ∀ {ledger os}, motive ledger os → ∀ o, motive (ledger.record o) (os ++ [o]))
    {ledger : Ledger} {os : List Occurrence} (h : motive ledger os) (os' : List Occurrence) :
    motive (ledger.extend os') (os ++ os') := by
  induction os' generalizing ledger os
  case nil => simpa [extend] using h
  case cons o rest ih => simpa [extend] using ih (step h o)

-- A ledger records some occurrences if it has exactly the names that occur, and the entries of the symbols
-- list their places.
structure Records (ledger : Ledger) (os : List Occurrence) : Prop where
  names : ∀ kind name, name ∈ ledger.names kind ↔ name ∈ namesIn os kind
  sites : ∀ kind name action, (ledger.entry kind name).sites action = sitesIn os kind name action

namespace Records

variable {ledger : Ledger} {os : List Occurrence}

theorem empty : ({} : Ledger).Records [] where
  names kind name := by simp [Ledger.names, entries, IndexMap.get?, namesIn]
  sites kind name action := Entry.sites_empty action

theorem record (h : ledger.Records os) (o : Occurrence) : (ledger.record o).Records (os ++ [o]) where
  names kind name := by
    rw [names_record, namesIn_snoc]
    have := h.names kind name
    grind
  sites kind name action := by rw [sites_entry_record, sitesIn_snoc, h.sites]

theorem extend (h : ledger.Records os) (os' : List Occurrence) :
    (ledger.extend os').Records (os ++ os') :=
  extend_induct (fun h o => h.record o) h os'

theorem ofOccurrences (os : List Occurrence) : (Ledger.ofOccurrences os).Records os :=
  empty.extend os

variable {kind : Kind}

theorem sites_of_mem_entries (h : ledger.Records os) {name : String} {entry : Entry}
    (hm : (name, entry) ∈ ledger.entries kind) (action : Action) :
    entry.sites action = sitesIn os kind name action := by
  rw [← h.sites, Ledger.entry, mem_entries_iff.mp hm, Option.getD_some]

theorem has_iff_of_mem_entries (h : ledger.Records os) {name : String} {entry : Entry}
    (hm : (name, entry) ∈ ledger.entries kind) (action : Action) :
    entry.has action = true ↔ Occurs os kind name action := by
  rw [← sitesIn_ne_nil_iff, ← h.sites_of_mem_entries hm]
  simp [Entry.has]

theorem exists_mem_entries (h : ledger.Records os) {name : String} {action : Action}
    (ho : Occurs os kind name action) : ∃ entry, (name, entry) ∈ ledger.entries kind := by
  have hn := (h.names kind name).mpr <| mem_namesIn_iff.mpr ⟨action, ho⟩
  obtain ⟨entry, he⟩ := Option.isSome_iff_exists.mp (mem_names_iff.mp hn)
  exact ⟨entry, mem_entries_iff.mpr he⟩

end Records

end Ledger

end CrossRef
