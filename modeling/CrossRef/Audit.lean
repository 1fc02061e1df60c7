import CrossRef.Checker
import CrossRef.Extraction
import CrossRef.Report
import CrossRef.Failure

namespace CrossRef

open Text

def readSource (tree : FileTree) (p : Path) : Except Failure String :=
  match tree.read p with
  | .error fault => .error (.unreadable p (.fault fault))
  | .ok bytes =>
    match Utf8.decode? bytes with
    | some text => .ok (String.ofList text)
    | none => .error (.undecodable p)

def readable (tree : FileTree) (root : Path) (files : List Path) : List (String × String) :=
  files.filterMap fun p => (readSource tree p).toOption.map fun text => (Path.label root p, text)

def Checker.occurrences (checker : Checker) (allow : Allowlist) (texts : List (String × String)) :
    List Occurrence :=
  texts.flatMap fun (file, text) => extract checker.rules allow file text

-- Files that cannot be read are counted and otherwise left out.
def audit (checker : Checker) (allow : Allowlist) (tree : FileTree) (root : Path) (files : List Path) :
    Report :=
  let texts := readable tree root files
  let ledger := Ledger.ofOccurrences (checker.occurrences allow texts)
  { checker
    scanned := texts.length
    skipped := files.length - texts.length
    kinds := checker.kinds.map fun kind => ledger.analyze kind allow (checker.clears kind) }

end CrossRef
