import CrossRef.Selection
import CrossRef.Symbol

namespace CrossRef

open Text

inductive ConfigFault
  | malformed
  | unknownKind (key : String)
  | badExclusion (fault : GlobFault)
  | badGlob (fault : GlobFault)
  deriving DecidableEq, Repr

def ConfigFault.message : ConfigFault → String
  | malformed => "<yaml>"
  | unknownKind key =>
    "unknown kind " ++ quoted key ++ " (expected one of " ++
      String.intercalate ", " (Kind.all.map (·.key)) ++ ")"
  | badExclusion ⟨pattern, fault⟩ =>
    "invalid excluded_paths pattern " ++ quoted pattern ++ ": " ++ fault.message pattern
  | badGlob ⟨pattern, fault⟩ => "invalid glob " ++ quoted pattern ++ ": " ++ fault.message pattern

-- Malformed files are reported without their path.
def ConfigFault.messageIn (path : Path) : ConfigFault → String
  | malformed => malformed.message
  | fault => path.toString ++ ": " ++ fault.message

inductive RepositoryFault
  | noRepository
  | noWorkingDirectory
  | noIndex
  deriving DecidableEq, Repr

def RepositoryFault.message : RepositoryFault → String
  | noRepository => "no git repository"
  | noWorkingDirectory => "repository has no working directory"
  | noIndex => "failed to open index"

inductive ReadFault
  | fault (fault : Fault)
  | notText
  deriving DecidableEq, Repr

def ReadFault.message : ReadFault → String
  | fault f => f.message
  | notText => "stream did not contain valid UTF-8"

inductive Failure
  | nothingStaged
  | unreadable (path : Path) (cause : ReadFault)
  | undecodable (path : Path)
  | missingPath (path : Path)
  | notADirectory (path : Path)
  | repository (fault : RepositoryFault)
  | config (file? : Option Path) (fault : ConfigFault)
  deriving DecidableEq, Repr

namespace Failure

def configMessage (file? : Option Path) (fault : ConfigFault) : String :=
  match file? with
  | some path => fault.messageIn path
  | none => fault.message

def message : Failure → String
  | nothingStaged => "no staged files to validate"
  | unreadable path cause => "cannot read " ++ path.toString ++ ": " ++ cause.message
  | undecodable path => path.toString ++ " is not valid UTF-8"
  | missingPath path => "path does not exist: " ++ path.toString
  | notADirectory path => "path is not a directory: " ++ path.toString
  | repository fault => "git: " ++ fault.message
  | config file? fault => "invalid config: " ++ configMessage file? fault

end Failure

end CrossRef
