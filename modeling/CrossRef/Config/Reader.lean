import CrossRef.Config
import CrossRef.Yaml.Node
import CrossRef.Text.Blank

namespace CrossRef.Config

open Text

-- Reading counts the aliases that it has gone through.
abbrev Decode := StateT Nat Option

-- How often a document's aliases may be gone through, as a multiple of its size.
def aliasFactor : Nat := 100

def resolve (doc : Yaml.Document) (node : Yaml.Node) : Decode Yaml.Node :=
  match node with
  | .aliasOf id => do
    let count ← get
    if doc.root.size * aliasFactor < count + 1 then failure
    else
      set (count + 1)
      match doc.anchors.lookup id with
      | some node => pure node
      | none => failure
  | node => pure node

-- Every scalar is a text, whatever it looks like.
def text (doc : Yaml.Document) (node : Yaml.Node) : Decode String := do
  match ← resolve doc node with
  | .scalar _ text _ => pure text
  | _ => failure

def texts (doc : Yaml.Document) (node : Yaml.Node) : Decode (List String) := do
  match ← resolve doc node with
  | .sequence _ items => items.mapM (text doc)
  | .scalar _ "" true => pure []
  | _ => failure

def pairs (doc : Yaml.Document) (node : Yaml.Node) : Decode (List (Yaml.Node × Yaml.Node)) := do
  match ← resolve doc node with
  | .mapping _ pairs => pure pairs
  | .scalar _ "" true => pure []
  | _ => failure

def once {α : Type} (old : Option α) (read : Decode α) : Decode (Option α) :=
  if old.isSome then failure else some <$> read

structure FilterFields where
  ignore : Option (List String) := none
  ignoreUnset : Option (List String) := none
  ignoreUnused : Option (List String) := none

def FilterFields.add (doc : Yaml.Document) (fields : FilterFields) (pair : Yaml.Node × Yaml.Node) :
    Decode FilterFields := do
  let key ← text doc pair.1
  if key = "ignore" then return { fields with ignore := ← once fields.ignore (texts doc pair.2) }
  else if key = "ignore_unset" then
    return { fields with ignoreUnset := ← once fields.ignoreUnset (texts doc pair.2) }
  else if key = "ignore_unused" then
    return { fields with ignoreUnused := ← once fields.ignoreUnused (texts doc pair.2) }
  else return fields

def filter (doc : Yaml.Document) (node : Yaml.Node) : Decode KindFilter := do
  let fields ← (← pairs doc node).foldlM (FilterFields.add doc) {}
  return { ignore := fields.ignore.getD []
           ignoreUnset := fields.ignoreUnset.getD []
           ignoreUnused := fields.ignoreUnused.getD [] }

def filters (doc : Yaml.Document) (node : Yaml.Node) : Decode (List (String × KindFilter)) := do
  (← pairs doc node).foldlM (fun kinds pair => do
    let key ← text doc pair.1
    return insertFilter key (← filter doc pair.2) kinds) []

structure Fields where
  ignoredDirs : Option (List String) := none
  excludedPaths : Option (List String) := none
  placeholderMarkers : Option (List String) := none
  ignoredNames : Option (List String) := none
  kinds : Option (List (String × KindFilter)) := none

def Fields.add (doc : Yaml.Document) (fields : Fields) (pair : Yaml.Node × Yaml.Node) :
    Decode Fields := do
  let key ← text doc pair.1
  if key = "ignored_dirs" then
    return { fields with ignoredDirs := ← once fields.ignoredDirs (texts doc pair.2) }
  else if key = "excluded_paths" then
    return { fields with excludedPaths := ← once fields.excludedPaths (texts doc pair.2) }
  else if key = "placeholder_markers" then
    return { fields with placeholderMarkers := ← once fields.placeholderMarkers (texts doc pair.2) }
  else if key = "ignored_names" then
    return { fields with ignoredNames := ← once fields.ignoredNames (texts doc pair.2) }
  else if key = "kinds" then return { fields with kinds := ← once fields.kinds (filters doc pair.2) }
  else return fields

def Fields.config (fields : Fields) : Config :=
  let default : Config := {}
  { ignoredDirs := fields.ignoredDirs.getD default.ignoredDirs
    excludedPaths := fields.excludedPaths.getD default.excludedPaths
    placeholderMarkers := fields.placeholderMarkers.getD default.placeholderMarkers
    ignoredNames := fields.ignoredNames.getD default.ignoredNames
    kinds := fields.kinds.getD default.kinds }

def ofDocument? (doc : Yaml.Document) : Option Config :=
  (do
    let fields ← (← pairs doc doc.root).foldlM (Fields.add doc) {}
    return fields.config : Decode Config).run' 0

def ofYaml? (s : List Char) : Option Config := do
  match ← Yaml.Document.ofText? s with
  | some doc => ofDocument? doc
  | none => some {}

-- A text of white space only is the default configuration.
def ofText (s : List Char) : Except ConfigFault Config :=
  if isAllBlank s then .ok {}
  else
    match ofYaml? s with
    | some config => config.validated
    | none => .error .malformed

def ofFile (tree : FileTree) (p : Path) : Except Failure Config :=
  match tree.read p with
  | .error fault => .error (.unreadable p (.fault fault))
  | .ok bytes =>
    match Utf8.decode? bytes with
    | none => .error (.unreadable p .notText)
    | some s => (ofText s).mapError (.config (some p))

def fileNames : List String := ["modcheck.yaml", ".modcheck.yaml"]

def fileIn? (tree : FileTree) (root : Path) : Option Path :=
  (fileNames.map fun name => root.join (Path.ofString name)).find? tree.isFile

-- The explicit file if there is one, else the one in the root, else the default.
def load (tree : FileTree) (root : Path) (explicit : Option Path) :
    Except Failure (Config × Option Path) :=
  match explicit.or (fileIn? tree root) with
  | some p => (ofFile tree p).map fun config => (config, some p)
  | none => .ok ({}, none)

end CrossRef.Config
