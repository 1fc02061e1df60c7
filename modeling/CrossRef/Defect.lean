import CrossRef.Ledger
import CrossRef.Allowlist

namespace CrossRef

structure Defect where
  kind : Kind
  name : String
  locations : List Location
  deriving DecidableEq, Repr

-- By first location, one without locations before all others, then by name.
def Defect.le (a b : Defect) : Bool :=
  match a.locations.head?, b.locations.head? with
  | none, none => !decide (b.name < a.name)
  | none, some _ => true
  | some _, none => false
  | some x, some y => decide (x < y) || (x == y && !decide (b.name < a.name))

def Entry.isGap (present : Action) (absent : List Action) (entry : Entry) : Bool :=
  entry.has present && !absent.any entry.has

def Ledger.gaps (ledger : Ledger) (kind : Kind) (present : Action) (absent : List Action)
    (skip : String → Bool) : List Defect :=
  let found := (ledger.entries kind).filter fun (name, entry) => entry.isGap present absent && !skip name
  (found.map fun (name, entry) => { kind, name, locations := entry.sites present }).mergeSort Defect.le

structure KindDefects where
  kind : Kind
  -- Whether the kind can be cleared at all.
  checksClear : Bool
  cleared : List Defect
  missing : List Defect
  unused : List Defect
  deriving DecidableEq, Repr

namespace KindDefects

def inCategory (defects : KindDefects) : Category → List Defect
  | .clearedNotSet => defects.cleared
  | .missingDefinition => defects.missing
  | .unusedDefinition => defects.unused

def categories (defects : KindDefects) : List Category :=
  Category.all.filter fun category => category != .clearedNotSet || defects.checksClear

def issueCount (defects : KindDefects) : Nat :=
  defects.cleared.length + defects.missing.length + defects.unused.length

end KindDefects

def Ledger.defectsIn (ledger : Ledger) (allow : Allowlist) (kind : Kind) (category : Category) :
    List Defect :=
  ledger.gaps kind category.present category.absent fun name => allow.isIgnored kind name category

def Ledger.analyze (ledger : Ledger) (kind : Kind) (allow : Allowlist) (checksClear : Bool) :
    KindDefects where
  kind := kind
  checksClear := checksClear
  cleared := ledger.defectsIn allow kind .clearedNotSet
  missing := ledger.defectsIn allow kind .missingDefinition
  unused := ledger.defectsIn allow kind .unusedDefinition

end CrossRef
