import CrossRef.Symbol
import CrossRef.Source
import CrossRef.Pattern

namespace CrossRef

open Text

inductive Place
  | anywhere
  | within (fragment : String)
  | outside (fragment : String)
  deriving DecidableEq, Repr

def Place.holds (path : String) : Place → Bool
  | anywhere => true
  | within fragment => contains path fragment
  | outside fragment => !contains path fragment

structure Scope where
  cls : FileClass
  place : Place := .anywhere
  deriving DecidableEq, Repr

def Scope.applies (scope : Scope) (cls : FileClass) (path : String) : Bool :=
  scope.cls == cls && scope.place.holds path

def isUnqualified (name : List Char) : Bool := !name.contains '.'

def scriptedEndings : List String := ["_scripted_loc", "_scl"]

def isScriptedReference (name : List Char) : Bool :=
  isUnqualified name && scriptedEndings.any fun ending => ending.toList.isSuffixOf name

inductive NameTest
  | any
  | unqualified
  | scriptedReference
  deriving DecidableEq, Repr

def NameTest.accepts : NameTest → List Char → Bool
  | any, _ => true
  | unqualified, name => isUnqualified name
  | scriptedReference, name => isScriptedReference name

structure Rule where
  kind : Kind
  action : Action
  scope : Scope
  pattern : Pattern
  test : NameTest := .any
  deriving DecidableEq, Repr

namespace Rule

-- `word` is the word of the kind in the commands.
def flags (kind : Kind) (word : String) : List Rule :=
  let rule (action : Action) (shape : String → Pattern) (verb : String) : Rule :=
    { kind, action, scope := { cls := .script }, pattern := shape (verb ++ "_" ++ word ++ "_flag") }
  [rule .set .assigned "set", rule .set .flagged "set",
   rule .use .assigned "has", rule .use .flagged "has",
   rule .use .flagged "modify", rule .clear .assigned "clr"]

-- Files with this fragment in their path define tag aliases, which use event targets and save none.
def tagAliases : String := "tag_aliases"

def eventTargets : List Rule :=
  let rule (action : Action) (scope : Scope) (pattern : Pattern) : Rule :=
    { kind := .eventTarget, action, scope, pattern, test := .unqualified }
  let script : Scope := { cls := .script, place := .outside tagAliases }
  let aliases : Scope := { cls := .script, place := .within tagAliases }
  [rule .set script (.assigned "save_event_target_as"),
   rule .set script (.assigned "save_global_event_target_as"),
   rule .use script (.tagged "event_target:"),
   rule .use script (.assigned "has_event_target"),
   rule .use aliases (.assigned "global_event_target"),
   rule .mention { cls := .localisation } .displayed,
   rule .clear { cls := .script } (.assigned "clear_global_event_target")]

def flagsAndTargets : List Rule :=
  flags .countryFlag "country" ++ flags .stateFlag "state" ++ flags .globalFlag "global" ++ eventTargets

def scriptedLocalisations : List Rule :=
  let rule (action : Action) (cls : FileClass) (pattern : Pattern) (test : NameTest) : Rule :=
    { kind := .scriptedLocalisation, action, scope := { cls }, pattern, test }
  [rule .set .script (.quotable "localization_key") .unqualified,
   rule .use .interface (.quotedReference "text") .unqualified,
   rule .use .localisation .reference .scriptedReference]

end Rule

end CrossRef
