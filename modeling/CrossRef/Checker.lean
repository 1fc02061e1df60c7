import CrossRef.Rule

namespace CrossRef

inductive Checker
  | flagsAndTargets
  | scriptedLocalisation
  deriving DecidableEq, Repr

namespace Checker

def all : List Checker := [flagsAndTargets, scriptedLocalisation]

def name : Checker → String
  | flagsAndTargets => "variables"
  | scriptedLocalisation => "scripted-loc"

def title : Checker → String
  | flagsAndTargets => "VARIABLE AND EVENT TARGET VALIDATION"
  | scriptedLocalisation => "SCRIPTED LOCALISATION VALIDATION"

def kinds : Checker → List Kind
  | flagsAndTargets => [.countryFlag, .globalFlag, .stateFlag, .eventTarget]
  | scriptedLocalisation => [.scriptedLocalisation]

def extensions : Checker → List String
  | flagsAndTargets => ["txt", "yml"]
  | scriptedLocalisation => ["txt", "gui", "yml"]

def rules : Checker → List Rule
  | flagsAndTargets => Rule.flagsAndTargets
  | scriptedLocalisation => Rule.scriptedLocalisations

def clears (checker : Checker) (kind : Kind) : Bool :=
  checker.rules.any fun rule => rule.kind == kind && rule.action == .clear

end Checker

end CrossRef
