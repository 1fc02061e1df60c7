import CrossRef.Checker
import CrossRef.Path

namespace CrossRef

structure CheckOptions where
  path : Path := Path.ofString "."
  staged : Bool := false
  strict : Bool := false
  noColor : Bool := false
  config : Option Path := none
  deriving DecidableEq, Repr

inductive Command
  | check (checker : Checker) (options : CheckOptions) (output : Option Path)
  | checkAll (options : CheckOptions)
  | init (output : Path) (force : Bool)
  deriving DecidableEq, Repr

def Command.paths : Command → List Path
  | .check _ options output => options.path :: options.config.toList ++ output.toList
  | .checkAll options => options.path :: options.config.toList
  | .init output _ => [output]

def Command.stagedRoot? : Command → Option Path
  | .check _ options _ | .checkAll options => if options.staged then some options.path else none
  | .init _ _ => none

end CrossRef
