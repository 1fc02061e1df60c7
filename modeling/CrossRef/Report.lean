import CrossRef.Defect
import CrossRef.Checker

namespace CrossRef

structure Report where
  checker : Checker
  scanned : Nat
  skipped : Nat
  kinds : List KindDefects
  deriving DecidableEq, Repr

namespace Report

def issueCount (report : Report) : Nat :=
  report.kinds.foldr (fun defects count => defects.issueCount + count) 0

def hasIssues (report : Report) : Bool := 0 < report.issueCount

end Report

end CrossRef
