import CrossRef.Proofs.Defect
import CrossRef.Proofs.Index

namespace CrossRef

-- Sequences that do the same to each symbol, action by action. How they mix the symbols and actions may
-- differ.
def SameSites (os os' : List Occurrence) : Prop :=
  ∀ kind name action, sitesIn os kind name action = sitesIn os' kind name action

namespace SameSites

variable {os os' : List Occurrence}

theorem occurs_iff (h : SameSites os os') {kind : Kind} {name : String} {action : Action} :
    Occurs os kind name action ↔ Occurs os' kind name action := by
  rw [← sitesIn_ne_nil_iff, ← sitesIn_ne_nil_iff, h]

theorem mem_namesIn_iff (h : SameSites os os') {kind : Kind} {name : String} :
    name ∈ namesIn os kind ↔ name ∈ namesIn os' kind := by
  simp only [CrossRef.mem_namesIn_iff, h.occurs_iff]

theorem eq_nil_iff (h : SameSites os os') : os = [] ↔ os' = [] := by
  have hnil : ∀ xs : List Occurrence, xs = [] ↔ ∀ kind name action, ¬Occurs xs kind name action := by
    intro xs
    simp only [Occurs, List.eq_nil_iff_forall_not_mem]
    grind
  simp only [hnil, h.occurs_iff]

-- Two neighbours that differ in their symbol or action can change places.
theorem swap (before after : List Occurrence) {o o' : Occurrence}
    (h : o.kind ≠ o'.kind ∨ o.name ≠ o'.name ∨ o.action ≠ o'.action) :
    SameSites (before ++ o :: o' :: after) (before ++ o' :: o :: after) := by
  intro kind name action
  simp only [sitesIn, List.filter_append, List.filter_cons, List.map_append, decide_eq_true_eq]
  have hboth : ¬((o.kind = kind ∧ o.name = name ∧ o.action = action) ∧
      (o'.kind = kind ∧ o'.name = name ∧ o'.action = action)) := by
    rintro ⟨⟨hk, hn, ha⟩, hk', hn', ha'⟩
    obtain hne | hne | hne := h
    · exact hne (hk.trans hk'.symm)
    · exact hne (hn.trans hn'.symm)
    · exact hne (ha.trans ha'.symm)
  split <;> split <;> simp_all

end SameSites

theorem Action.exists_index_eq (i : Fin 4) : ∃ action : Action, action.index = i := by
  have h : ∀ i, ∃ action ∈ all, action.index = i := by decide
  have ⟨action, _, ha⟩ := h i
  exact ⟨action, ha⟩

theorem Entry.eq_of_sites {entry entry' : Entry}
    (h : ∀ action, entry.sites action = entry'.sites action) : entry = entry' := by
  have hslots : entry.slots = entry'.slots := by
    refine Vector.ext fun i hi => ?_
    have ⟨action, ha⟩ := Action.exists_index_eq ⟨i, hi⟩
    simpa [sites, ha] using h action
  cases entry
  cases entry'
  exact congrArg Entry.mk hslots

namespace Ledger

variable {ledger ledger' : Ledger} {os os' : List Occurrence}

-- The entry of a symbol depends on nothing but the places of the symbol.
theorem Records.entry_eq (hl : ledger.Records os) (hl' : ledger'.Records os') (h : SameSites os os')
    (kind : Kind) (name : String) : ledger.entry kind name = ledger'.entry kind name :=
  Entry.eq_of_sites fun action => by rw [hl.sites, hl'.sites, h]

theorem Records.get?_eq (hl : ledger.Records os) (hl' : ledger'.Records os') (h : SameSites os os')
    (kind : Kind) (name : String) : ledger.get? kind name = ledger'.get? kind name := by
  have hsome : (ledger.get? kind name).isSome = (ledger'.get? kind name).isSome := by
    rw [Bool.eq_iff_iff, ← mem_names_iff, ← mem_names_iff, hl.names, hl'.names, h.mem_namesIn_iff]
  have hentry := hl.entry_eq hl' h kind name
  cases hg : ledger.get? kind name <;> cases hg' : ledger'.get? kind name <;> simp_all [entry]

theorem Records.isEmpty_eq (hl : ledger.Records os) (hl' : ledger'.Records os') (h : SameSites os os') :
    ledger.isEmpty = ledger'.isEmpty := by
  rw [Bool.eq_iff_iff, hl.isEmpty_iff, hl'.isEmpty_iff, h.eq_nil_iff]

theorem Tracks.size_eq (hl : ledger.Tracks os) (hl' : ledger'.Tracks os') (h : SameSites os os')
    (kind : Kind) : ledger.size kind = ledger'.size kind := by
  have hset : (namesIn os kind).toFinset = (namesIn os' kind).toFinset := by
    ext name
    simp [h.mem_namesIn_iff]
  rw [hl.size_eq_card, hl'.size_eq_card, hset]

-- The order of the entries may differ. Defects that have the same first location have different names, so
-- sorting leaves only one order for them.
theorem Records.gaps_eq (hl : ledger.Records os) (hl' : ledger'.Records os') (h : SameSites os os')
    (kind : Kind) (present : Action) (absent : List Action) (skip : String → Bool) :
    ledger.gaps kind present absent skip = ledger'.gaps kind present absent skip := by
  have hgaps := hl.isGapList_gaps kind present absent skip
  exact (hgaps.congr fun name action _ => h kind name action).unique <|
    hl'.isGapList_gaps kind present absent skip

theorem Records.analyze_eq (hl : ledger.Records os) (hl' : ledger'.Records os') (h : SameSites os os')
    (kind : Kind) (allow : Allowlist) (checksClear : Bool) :
    ledger.analyze kind allow checksClear = ledger'.analyze kind allow checksClear := by
  simp only [analyze, defectsIn, hl.gaps_eq hl' h]

theorem analysis_ignores_interleaving {os os' : List Occurrence} (h : SameSites os os') :
    let ledger := ofOccurrences os
    let ledger' := ofOccurrences os'
    (∀ kind name, ledger.get? kind name = ledger'.get? kind name) ∧
    (∀ kind, ledger.size kind = ledger'.size kind) ∧
    ledger.isEmpty = ledger'.isEmpty ∧
    (∀ kind present absent skip,
      ledger.gaps kind present absent skip = ledger'.gaps kind present absent skip) ∧
    (∀ kind allow checksClear,
      ledger.analyze kind allow checksClear = ledger'.analyze kind allow checksClear) := by
  intro ledger ledger'
  have hl := Tracks.ofOccurrences os
  have hl' := Tracks.ofOccurrences os'
  have hr := hl.toRecords
  have hr' := hl'.toRecords
  exact ⟨hr.get?_eq hr' h, hl.size_eq hl' h, hr.isEmpty_eq hr' h, hr.gaps_eq hr' h, hr.analyze_eq hr' h⟩

-- Uses of two flags in one line. The second one is recorded first in the second sequence.
def flagUse (name : String) : Occurrence where
  kind := .countryFlag
  name := name
  location := ⟨"a.txt", 1⟩
  action := .use

theorem analysis_ignores_order_of_flagUses :
    let ledger := ofOccurrences [flagUse "b", flagUse "a"]
    let ledger' := ofOccurrences [flagUse "a", flagUse "b"]
    SameSites [flagUse "b", flagUse "a"] [flagUse "a", flagUse "b"] ∧
      ledger.entries .countryFlag ≠ ledger'.entries .countryFlag ∧
      ledger.gaps .countryFlag .use [.set] (fun _ => false) =
        ledger'.gaps .countryFlag .use [.set] (fun _ => false) := by
  have hswap : SameSites [flagUse "b", flagUse "a"] [flagUse "a", flagUse "b"] :=
    .swap [] [] (.inr (.inl (by decide)))
  exact ⟨hswap, by decide, (analysis_ignores_interleaving hswap).2.2.2.1 _ _ _ _⟩

end Ledger

end CrossRef
