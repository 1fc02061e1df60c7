import CrossRef.Allowlist
import CrossRef.Selection
import CrossRef.Failure

namespace CrossRef

structure Config where
  ignoredDirs : List String := Selection.defaultIgnoredDirs
  excludedPaths : List String := []
  placeholderMarkers : List String := Allowlist.defaultMarkers
  ignoredNames : List String := Allowlist.defaultNames
  -- By the key of their kind, each key once and in ascending order.
  kinds : List (String × KindFilter) := []
  deriving DecidableEq, Repr

namespace Config

-- The filter of a key that is there already is replaced.
def insertFilter (key : String) (filter : KindFilter) :
    List (String × KindFilter) → List (String × KindFilter)
  | [] => [(key, filter)]
  | (other, old) :: rest =>
    if key = other then (key, filter) :: rest
    else if key < other then (key, filter) :: (other, old) :: rest
    else (other, old) :: insertFilter key filter rest

def unknownKey? (config : Config) : Option String :=
  (config.kinds.map (·.1)).find? fun key => (Kind.ofKey? key).isNone

def validated (config : Config) : Except ConfigFault Config :=
  match config.unknownKey? with
  | some key => .error (.unknownKind key)
  | none => (readGlobs config.excludedPaths).mapError .badExclusion |>.map fun _ => config

def allowlist (config : Config) : Allowlist :=
  config.kinds.foldl (fun allow (key, filter) =>
    match Kind.ofKey? key with
    | some kind => allow.withFilter kind filter
    | none => allow)
    (Allowlist.ofMarkers config.placeholderMarkers config.ignoredNames)

def selection (config : Config) (extensions : List String) : Except ConfigFault Selection :=
  (readGlobs config.excludedPaths).mapError .badGlob |>.map fun excluded =>
    { extensions, ignoredDirs := config.ignoredDirs, excluded }

end Config

end CrossRef
