namespace CrossRef

inductive Kind
  | countryFlag
  | stateFlag
  | globalFlag
  | eventTarget
  | scriptedLocalisation
  deriving DecidableEq, Repr

namespace Kind

def all : List Kind := [countryFlag, stateFlag, globalFlag, eventTarget, scriptedLocalisation]

def key : Kind → String
  | countryFlag => "country_flag"
  | stateFlag => "state_flag"
  | globalFlag => "global_flag"
  | eventTarget => "event_target"
  | scriptedLocalisation => "scripted_localisation"

def ofKey? (s : String) : Option Kind := all.find? (·.key == s)

def label : Kind → String
  | countryFlag => "country flags"
  | stateFlag => "state flags"
  | globalFlag => "global flags"
  | eventTarget => "event targets"
  | scriptedLocalisation => "scripted localisations"

def setVerb : Kind → String
  | scriptedLocalisation => "defined"
  | _ => "set"

theorem mem_all (k : Kind) : k ∈ all := by cases k <;> simp [all]

theorem ofKey?_eq_some_iff {s : String} {kind : Kind} : ofKey? s = some kind ↔ kind.key = s := by
  constructor
  · intro h
    simpa using List.find?_some h
  · rintro rfl
    cases kind <;> rfl

end Kind

-- A mention is a reference from displayed text: it shows that a symbol is used, and does not ask for a
-- definition.
inductive Action
  | set
  | use
  | clear
  | mention
  deriving DecidableEq, Repr

-- Lines count from one, and files are named relative to the mod root.
structure Location where
  file : String
  line : Nat
  deriving DecidableEq, Repr

namespace Location

instance : LT Location where
  lt a b := a.file < b.file ∨ (a.file = b.file ∧ a.line < b.line)

instance (a b : Location) : Decidable (a < b) :=
  inferInstanceAs (Decidable (a.file < b.file ∨ (a.file = b.file ∧ a.line < b.line)))

def site (l : Location) : String := l.file ++ ":" ++ Nat.repr l.line

end Location

structure Occurrence where
  kind : Kind
  name : String
  location : Location
  action : Action
  deriving DecidableEq, Repr

end CrossRef
