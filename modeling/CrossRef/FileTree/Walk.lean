import CrossRef.FileTree.Access

namespace CrossRef

namespace FileTree

-- How the walk names a directory, where that is, and the addresses of the directories above it and of
-- itself.
structure Stop where
  path : Path
  address : Address
  trail : List Address

def Stop.below (stop : Stop) (name : FileName) : Stop where
  path := stop.path.child name
  address := stop.address ++ [name]
  trail := (stop.address ++ [name]) :: stop.trail

def opens (tree : FileTree) (stop : Stop) : Bool := (tree.address stop.path).toOption == some stop.address

def inNameOrder (found : List (FileName × List Path)) : List Path :=
  (found.mergeSort fun a b => !decide (b.1 < a.1)).flatMap (·.2)

mutual

-- A walk opens directories and follows links by the paths that it gives them, so long paths and paths
-- through many links end it.
def filesAt (tree : FileTree) (enter : FileName → Bool) (follow : Stop → FileName → List Path)
    (stop : Stop) (name : FileName) : Node → List Path
  | .file _ => [stop.path.child name]
  | .link _ => follow stop name
  | .dir entries =>
    if enter name && tree.opens (stop.below name) then
      inNameOrder (filesIn tree enter follow (stop.below name) entries)
    else []

def filesIn (tree : FileTree) (enter : FileName → Bool) (follow : Stop → FileName → List Path)
    (stop : Stop) : List (FileName × Node) → List (FileName × List Path)
  | [] => []
  | (name, node) :: rest =>
    (name, filesAt tree enter follow stop name node) :: filesIn tree enter follow stop rest

end

def throughLink (tree : FileTree) (enter : FileName → Bool)
    (walk : Stop → List (FileName × Node) → List Path) (stop : Stop) (name : FileName) : List Path :=
  match tree.address (stop.path.child name) with
  | .ok address =>
    match tree.top.get? address with
    | some (.file _) => [stop.path.child name]
    | some (.dir entries) =>
      if address ∈ stop.trail then []
      else if enter name then
        walk { path := stop.path.child name, address, trail := address :: stop.trail } entries
      else []
    | _ => []
  | .error _ => []

def filesBelow (tree : FileTree) (enter : FileName → Bool) :
    (links : Nat) → Stop → List (FileName × Node) → List Path
  | 0, stop, entries =>
    inNameOrder (tree.filesIn enter (tree.throughLink enter fun _ _ => []) stop entries)
  | links + 1, stop, entries =>
    inNameOrder (tree.filesIn enter (tree.throughLink enter (filesBelow tree enter links)) stop entries)

-- Each link to a directory leads to one that the walk is not in, so a walk never follows more of them in
-- one another than there are directories.
def files (tree : FileTree) (enter : FileName → Bool) (root : Path) : List Path :=
  match tree.address root with
  | .ok address =>
    match tree.top.get? address with
    | some (.file _) => [root]
    | some (.dir entries) =>
      tree.filesBelow enter tree.top.directories { path := root, address, trail := [address] } entries
    | _ => []
  | .error _ => []

end FileTree

end CrossRef
