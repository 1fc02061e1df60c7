import CrossRef.Category
import CrossRef.Text.Fragment

namespace CrossRef

open Text

structure KindFilter where
  ignore : List String := []
  ignoreUnset : List String := []
  ignoreUnused : List String := []
  deriving DecidableEq, Repr

def holdsAny (name : String) (fragments : List String) : Bool := fragments.any (contains name)

theorem holdsAny_iff {name : String} {fragments : List String} :
    holdsAny name fragments = true ↔ ∃ fragment ∈ fragments, fragment.toList <:+: name.toList := by
  simp [holdsAny, contains, occursIn_iff_isInfix]

def KindFilter.forCategory (filter : KindFilter) : Category → List String
  | .clearedNotSet => filter.ignoreUnset
  | .missingDefinition => filter.ignoreUnset
  | .unusedDefinition => filter.ignoreUnused

structure Allowlist where
  markers : List String
  names : List String
  -- The first filter of a kind counts.
  filters : List (Kind × KindFilter)
  deriving DecidableEq, Repr

namespace Allowlist

-- An empty marker marks nothing.
def ofMarkers (markers names : List String) : Allowlist :=
  { markers := markers.filter (· ≠ ""), names, filters := [] }

def withFilter (allow : Allowlist) (kind : Kind) (filter : KindFilter) : Allowlist :=
  { allow with filters := (kind, filter) :: allow.filters }

def defaultMarkers : List String := ["@", "[", "\x7b"]

def defaultNames : List String := ["kr_current_version"]

def standard : Allowlist := ofMarkers defaultMarkers defaultNames

def filter? (allow : Allowlist) (kind : Kind) : Option KindFilter := allow.filters.lookup kind

theorem filter?_withFilter (allow : Allowlist) (kind other : Kind) (filter : KindFilter) :
    (allow.withFilter other filter).filter? kind =
      if kind = other then some filter else allow.filter? kind := by
  by_cases h : kind = other
  case pos => simp [withFilter, filter?, h]
  case neg => simp [withFilter, filter?, List.lookup_cons, beq_eq_false_iff_ne.mpr h, h]

def isPlaceholder (allow : Allowlist) (name : String) : Bool := holdsAny name allow.markers

def isIgnored (allow : Allowlist) (kind : Kind) (name : String) (category : Category) : Bool :=
  allow.isPlaceholder name || allow.names.contains name ||
    match allow.filter? kind with
    | some filter => holdsAny name filter.ignore || holdsAny name (filter.forCategory category)
    | none => false

end Allowlist

end CrossRef
