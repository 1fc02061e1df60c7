import CrossRef.Symbol

namespace CrossRef

inductive Category
  | clearedNotSet
  | missingDefinition
  | unusedDefinition
  deriving DecidableEq, Repr

namespace Category

def all : List Category := [clearedNotSet, missingDefinition, unusedDefinition]

def name : Category → String
  | clearedNotSet => "cleared_not_set"
  | missingDefinition => "missing_definition"
  | unusedDefinition => "unused_definition"

def present : Category → Action
  | clearedNotSet => .clear
  | missingDefinition => .use
  | unusedDefinition => .set

def absent : Category → List Action
  | clearedNotSet => [.set]
  | missingDefinition => [.set]
  | unusedDefinition => [.use, .mention]

theorem mem_all (c : Category) : c ∈ all := by cases c <;> simp [all]

end Category

end CrossRef
