import CrossRef.Audit
import CrossRef.Config
import CrossRef.Repository

namespace CrossRef

def Selection.files (selection : Selection) (tree : FileTree) (repo? : Option Repository) (root : Path)
    (staged : Bool) : Except Failure (List Path) :=
  if staged then selection.stagedFiles tree repo? root else .ok (selection.walk tree root)

def validate (checker : Checker) (config : Config) (tree : FileTree) (repo? : Option Repository)
    (root : Path) (staged : Bool) : Except Failure Report := do
  let selection ← (config.selection checker.extensions).mapError (.config none)
  let files ← selection.files tree repo? root staged
  return audit checker config.allowlist tree root files

end CrossRef
