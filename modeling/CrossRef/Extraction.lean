import CrossRef.Rule
import CrossRef.Allowlist
import CrossRef.Text.Lines

namespace CrossRef

open Text

def extractLine (rules : List Rule) (allow : Allowlist) (file : String) (number : Nat)
    (line : List Char) : List Occurrence :=
  rules.flatMap fun rule =>
    (rule.pattern.names line).filterMap fun chars =>
      let name := String.ofList chars
      if rule.test.accepts chars && !allow.isPlaceholder name then
        some { kind := rule.kind, name, location := { file, line := number }, action := rule.action }
      else none

def extractLines (rules : List Rule) (allow : Allowlist) (file : String) (cls : FileClass) :
    (number : Nat) → List (List Char) → List Occurrence
  | _, [] => []
  | number, line :: rest =>
    extractLine rules allow file number (cls.significant line) ++
      extractLines rules allow file cls (number + 1) rest

def applicable (rules : List Rule) (cls : FileClass) (file : String) : List Rule :=
  rules.filter (·.scope.applies cls file)

-- The path names the file in the occurrences and decides which rules apply. A byte order mark in front is
-- not part of the text.
def extract (rules : List Rule) (allow : Allowlist) (file content : String) : List Occurrence :=
  match FileClass.ofPath? file with
  | none => []
  | some cls =>
    extractLines (applicable rules cls file) allow file cls 1 (lines (dropByteOrderMark content.toList))

end CrossRef
