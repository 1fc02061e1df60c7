import CrossRef.Proofs.Ledger
import Mathlib.Algebra.GroupWithZero.Nat
import Mathlib.Data.Finset.Card
import Mathlib.Data.Finset.Dedup

namespace CrossRef

-- The elements of `xs`, each of them once and in the order of their first occurrence.
structure FirstSeen (xs ys : List String) : Prop where
  nodup   : ys.Nodup
  mem_iff : ∀ x, x ∈ ys ↔ x ∈ xs
  sorted  : ys.Pairwise fun x y => xs.idxOf x < xs.idxOf y

namespace FirstSeen

variable {xs ys : List String}

theorem nil : FirstSeen [] [] := by
  constructor <;> simp

-- What comes later does not move the first occurrences.
theorem sorted_append (h : FirstSeen xs ys) (zs : List String) :
    ys.Pairwise fun x y => (xs ++ zs).idxOf x < (xs ++ zs).idxOf y := by
  refine h.sorted.imp_of_mem fun {x y} hx hy hlt => ?_
  have hx := (h.mem_iff x).mp hx
  have hy := (h.mem_iff y).mp hy
  simpa [List.idxOf_append_of_mem hx, List.idxOf_append_of_mem hy] using hlt

theorem snoc_of_mem (h : FirstSeen xs ys) {x : String} (hx : x ∈ ys) : FirstSeen (xs ++ [x]) ys where
  nodup := h.nodup
  mem_iff y := by
    have := (h.mem_iff x).mp hx
    grind [h.mem_iff y]
  sorted := h.sorted_append [x]

theorem snoc_of_not_mem (h : FirstSeen xs ys) {x : String} (hx : x ∉ ys) :
    FirstSeen (xs ++ [x]) (ys ++ [x]) where
  nodup := List.nodup_append.mpr ⟨h.nodup, by simp, by grind⟩
  mem_iff y := by simp [h.mem_iff y]
  sorted := by
    have hx : x ∉ xs := mt (h.mem_iff x).mpr hx
    have hlast : (xs ++ [x]).idxOf x = xs.length := by simp [List.idxOf_append_of_notMem hx]
    refine List.pairwise_append.mpr ⟨h.sorted_append [x], by simp, fun y hy z hz => ?_⟩
    have hy := (h.mem_iff y).mp hy
    rw [List.mem_singleton.mp hz, hlast, List.idxOf_append_of_mem hy]
    exact List.idxOf_lt_length_of_mem hy

theorem length_eq (h : FirstSeen xs ys) : ys.length = xs.toFinset.card := by
  have hset : ys.toFinset = xs.toFinset := by
    ext x
    simp [h.mem_iff]
  rw [← hset, List.toFinset_card_of_nodup h.nodup]

end FirstSeen

def Action.all : List Action := [set, use, clear, mention]

-- The number of places in all lists of an entry.
def Entry.size (entry : Entry) : Nat := (Action.all.map fun action => (entry.sites action).length).sum

theorem Entry.size_add (entry : Entry) (action : Action) (location : Location) :
    (entry.add action location).size = entry.size + 1 := by
  cases action <;> simp [size, Action.all, sites_add] <;> omega

namespace Ledger

theorem sum_size_modifyIn (o : Occurrence) (items : List (String × Entry)) :
    ((IndexMap.modifyIn o.name {} (·.add o.action o.location) items).map (·.2.size)).sum =
      (items.map (·.2.size)).sum + 1 := by
  induction items
  case nil => simp [IndexMap.modifyIn, Entry.size_add, show ({} : Entry).size = 0 from rfl]
  case cons item rest ih =>
    by_cases h : item.1 = o.name
    case pos =>
      simp only [IndexMap.modifyIn, if_pos h, List.map_cons, List.sum_cons, Entry.size_add]
      omega
    case neg =>
      simp only [IndexMap.modifyIn, if_neg h, List.map_cons, List.sum_cons, ih]
      omega

-- The number of places in all entries of all kinds.
def total (ledger : Ledger) : Nat :=
  (Kind.all.map fun kind => ((ledger.entries kind).map (·.2.size)).sum).sum

theorem total_record (ledger : Ledger) (o : Occurrence) : (ledger.record o).total = ledger.total + 1 := by
  simp only [total, Kind.all, List.map_cons, List.map_nil, List.sum_cons, List.sum_nil, entries_record]
  cases o.kind <;> simp [sum_size_modifyIn] <;> omega

theorem Records.isEmpty_iff {ledger : Ledger} {os : List Occurrence} (h : ledger.Records os) :
    ledger.isEmpty = true ↔ os = [] := by
  have hnil : ∀ kind, ledger.entries kind = [] ↔ namesIn os kind = [] := by
    intro kind
    rw [← List.map_eq_nil_iff (f := (·.1)), List.eq_nil_iff_forall_not_mem, List.eq_nil_iff_forall_not_mem]
    exact forall_congr' fun name => not_congr (h.names kind name)
  simp only [Ledger.isEmpty_iff, hnil]
  constructor
  · intro hnone
    cases os
    case nil => rfl
    case cons o rest => simpa [namesIn] using hnone o.kind
  · rintro rfl kind
    rfl

-- Beyond what the entries hold: the names of a kind stand in the order of their first occurrence, and each
-- occurrence has put its place into one list.
structure Tracks (ledger : Ledger) (os : List Occurrence) : Prop extends ledger.Records os where
  order : ∀ kind, FirstSeen (namesIn os kind) (ledger.names kind)
  total : ledger.total = os.length

namespace Tracks

variable {ledger : Ledger} {os : List Occurrence}

theorem empty : ({} : Ledger).Tracks [] where
  toRecords := .empty
  order _ := .nil
  total := rfl

theorem record (h : ledger.Tracks os) (o : Occurrence) : (ledger.record o).Tracks (os ++ [o]) where
  toRecords := h.toRecords.record o
  order kind := by
    rw [namesIn_snoc, names_record]
    have hkind := h.order kind
    by_cases hk : o.kind = kind
    case neg => simpa [hk] using hkind
    case pos =>
      by_cases hn : o.name ∈ ledger.names kind
      case pos => simpa [hk, hn] using hkind.snoc_of_mem hn
      case neg => simpa [hk, hn] using hkind.snoc_of_not_mem hn
  total := by rw [total_record, h.total, List.length_append, List.length_singleton]

theorem extend (h : ledger.Tracks os) (os' : List Occurrence) :
    (ledger.extend os').Tracks (os ++ os') :=
  extend_induct (fun h o => h.record o) h os'

theorem ofOccurrences (os : List Occurrence) : (Ledger.ofOccurrences os).Tracks os :=
  empty.extend os

theorem size_eq_card (h : ledger.Tracks os) (kind : Kind) :
    ledger.size kind = (namesIn os kind).toFinset.card := by
  rw [← (h.order kind).length_eq, size_eq_length_names]

end Tracks

end Ledger

-- A call that records: one occurrence, or some of them at once.
inductive Posting
  | record (o : Occurrence)
  | extend (os : List Occurrence)

def Posting.occurrences : Posting → List Occurrence
  | record o  => [o]
  | extend os => os

namespace Ledger

def post (ledger : Ledger) : Posting → Ledger
  | .record o  => ledger.record o
  | .extend os => ledger.extend os

-- The ledger after some calls, from an empty one on.
def ofPostings (calls : List Posting) : Ledger := calls.foldl post {}

theorem Tracks.post {ledger : Ledger} {os : List Occurrence} (h : ledger.Tracks os) (call : Posting) :
    (ledger.post call).Tracks (os ++ call.occurrences) := by
  cases call
  case record o  => exact h.record o
  case extend os => exact h.extend os

theorem Tracks.ofPostings (calls : List Posting) :
    (Ledger.ofPostings calls).Tracks (calls.flatMap Posting.occurrences) := by
  suffices h : ∀ (ledger : Ledger) (os : List Occurrence), ledger.Tracks os →
      (calls.foldl Ledger.post ledger).Tracks (os ++ calls.flatMap Posting.occurrences) from h {} [] .empty
  induction calls
  case nil => simp
  case cons call rest ih =>
    intro ledger os h
    simpa using ih (ledger.post call) (os ++ call.occurrences) (h.post call)

-- What can be asked of a ledger is what the occurrences say.
structure Indexes (ledger : Ledger) (os : List Occurrence) : Prop where
  names   : ∀ kind, FirstSeen (namesIn os kind) ((ledger.entries kind).map (·.1))
  get?    : ∀ kind name entry,
    ledger.get? kind name = some entry ↔ (name, entry) ∈ ledger.entries kind
  sites   : ∀ kind name entry, (name, entry) ∈ ledger.entries kind →
    ∀ action, entry.sites action = sitesIn os kind name action
  has     : ∀ kind name entry, (name, entry) ∈ ledger.entries kind →
    ∀ action, entry.has action = true ↔ sitesIn os kind name action ≠ []
  size    : ∀ kind, ledger.size kind = (namesIn os kind).toFinset.card
  isEmpty : ledger.isEmpty = true ↔ os = []
  total   : (Kind.all.map fun kind => ((ledger.entries kind).map (·.2.size)).sum).sum = os.length

theorem ofPostings_indexes (calls : List Posting) :
    (ofPostings calls).Indexes (calls.flatMap Posting.occurrences) := by
  have h := Tracks.ofPostings calls
  constructor
  case names   => exact h.order
  case get?    => exact fun _ _ _ => mem_entries_iff.symm
  case sites   => exact fun _ _ _ hm action => h.sites_of_mem_entries hm action
  case has     => exact fun _ _ _ hm action => (h.has_iff_of_mem_entries hm action).trans sitesIn_ne_nil_iff.symm
  case size    => exact h.size_eq_card
  case isEmpty => exact h.isEmpty_iff
  case total   => exact h.total

end Ledger

end CrossRef
