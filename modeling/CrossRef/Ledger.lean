import CrossRef.IndexMap
import CrossRef.Symbol

namespace CrossRef

def Action.index : Action → Fin 4
  | set => 0
  | use => 1
  | clear => 2
  | mention => 3

theorem Action.index_inj {action other : Action} : action.index = other.index ↔ action = other := by
  cases action <;> cases other <;> decide

-- One list for each action, in the order of recording.
structure Entry where
  slots : Vector (List Location) 4 := .replicate 4 []
  deriving DecidableEq, Repr

namespace Entry

def sites (entry : Entry) (action : Action) : List Location := entry.slots[action.index]

def has (entry : Entry) (action : Action) : Bool := !(entry.sites action).isEmpty

def add (entry : Entry) (action : Action) (location : Location) : Entry where
  slots := entry.slots.set action.index (entry.sites action ++ [location])

theorem sites_empty (action : Action) : ({} : Entry).sites action = [] := by
  cases action <;> rfl

theorem sites_add (entry : Entry) (action other : Action) (location : Location) :
    (entry.add action location).sites other =
      if action = other then entry.sites other ++ [location] else entry.sites other := by
  by_cases h : action = other
  case pos => simp [add, sites, h]
  case neg =>
    have hi : action.index.val ≠ other.index.val := fun hi => h (Action.index_inj.mp (Fin.ext hi))
    simp [add, sites, h, hi]

end Entry

structure Ledger where
  kinds : IndexMap Kind (IndexMap String Entry) := {}
  deriving DecidableEq, Repr

namespace Ledger

def record (ledger : Ledger) (o : Occurrence) : Ledger where
  kinds := ledger.kinds.modify o.kind {} fun names =>
    names.modify o.name {} fun entry => entry.add o.action o.location

def extend (ledger : Ledger) (os : List Occurrence) : Ledger := os.foldl record ledger

def ofOccurrences (os : List Occurrence) : Ledger := ({} : Ledger).extend os

def entries (ledger : Ledger) (kind : Kind) : List (String × Entry) :=
  (ledger.kinds.get? kind).elim [] (·.items)

def get? (ledger : Ledger) (kind : Kind) (name : String) : Option Entry :=
  (ledger.kinds.get? kind).bind (·.get? name)

def size (ledger : Ledger) (kind : Kind) : Nat := (ledger.kinds.get? kind).elim 0 (·.size)

def isEmpty (ledger : Ledger) : Bool := ledger.kinds.items.all (·.2.isEmpty)

end Ledger

end CrossRef
