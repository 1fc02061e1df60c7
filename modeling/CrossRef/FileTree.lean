import CrossRef.Path

namespace CrossRef

inductive Node
  | file (content : List UInt8)
  | link (target : Path)
  -- The entries stand in no particular order.
  | dir (entries : List (FileName × Node))

-- The names that lead to a node from the top, through directories only.
abbrev Address := List FileName

namespace Node

def find? {α : Type} (name : FileName) : List (FileName × α) → Option α
  | [] => none
  | (other, node) :: rest => if other = name then some node else find? name rest

def get? (node : Node) : Address → Option Node
  | [] => some node
  | name :: rest =>
    match node with
    | dir entries => (find? name entries).bind (·.get? rest)
    | _ => none

def put (name : FileName) (node : Node) : List (FileName × Node) → List (FileName × Node)
  | [] => [(name, node)]
  | (other, old) :: rest =>
    if other = name then (name, node) :: rest else (other, old) :: put name node rest

-- Nothing changes where no directory leads to the address.
def set (node new : Node) : Address → Node
  | [] => new
  | name :: rest =>
    match node with
    | dir entries =>
      match find? name entries, rest with
      | some child, rest => dir (put name (child.set new rest) entries)
      | none, [] => dir (put name new entries)
      | none, _ :: _ => node
    | _ => node

mutual

def directories : Node → Nat
  | file _ => 0
  | link _ => 0
  | dir entries => 1 + directoriesIn entries

def directoriesIn : List (FileName × Node) → Nat
  | [] => 0
  | (_, node) :: rest => node.directories + directoriesIn rest

end

mutual

def regularFiles (address : Address) : Node → List (Address × List UInt8)
  | file content => [(address, content)]
  | link _ => []
  | dir entries => regularFilesIn address entries

def regularFilesIn (address : Address) : List (FileName × Node) → List (Address × List UInt8)
  | [] => []
  | (name, node) :: rest => node.regularFiles (address ++ [name]) ++ regularFilesIn address rest

end

end Node

structure FileTree where
  top : Node
  workingDir : Address := []
  -- The files that may not be read.
  locked : List Address := []

end CrossRef
