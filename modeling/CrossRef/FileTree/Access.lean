import CrossRef.FileTree

namespace CrossRef

inductive Fault
  | notFound
  | permissionDenied
  | alreadyExists
  | notADirectory
  | isADirectory
  | nameTooLong
  | tooManyLinks
  | nulInName
  deriving DecidableEq, Repr

def Fault.message : Fault → String
  | notFound => "No such file or directory (os error 2)"
  | permissionDenied => "Permission denied (os error 13)"
  | alreadyExists => "File exists (os error 17)"
  | notADirectory => "Not a directory (os error 20)"
  | isADirectory => "Is a directory (os error 21)"
  | nameTooLong => "File name too long (os error 36)"
  | tooManyLinks => "Too many levels of symbolic links (os error 40)"
  | nulInName => "file name contained an unexpected NUL byte"

inductive Target
  | found (address : Address)
  | absent (dir : Address) (name : FileName)
  deriving DecidableEq, Repr

namespace FileTree

def maxName : Nat := 255

def maxPath : Nat := 4095

def maxLinks : Nat := 40

-- Goes along pieces of a path from the node at `address`. At a link it goes on as `follow` says.
def advance (top : Node) (follow : Address → List FileName → Except Fault Target) (address : Address) :
    List FileName → Except Fault Target
  | [] => .ok (.found address)
  | piece :: rest =>
    match top.get? address with
    | some (.dir entries) =>
      if Path.isNothing piece then advance top follow address rest
      else if piece = Path.dotDot then advance top follow address.dropLast rest
      else if maxName < piece.length then .error .nameTooLong
      else
        match Node.find? piece entries with
        | none => if rest = [] then .ok (.absent address piece) else .error .notFound
        | some (.link target) =>
          follow (if target.isAbsolute then [] else address) (Path.split target.bytes ++ rest)
        | some _ => advance top follow (address ++ [piece]) rest
    | _ => .error .notADirectory

def locate (top : Node) : (links : Nat) → Address → List FileName → Except Fault Target
  | 0 => advance top fun _ _ => .error .tooManyLinks
  | links + 1 => advance top (locate top links)

def origin (tree : FileTree) (p : Path) : Address := if p.isAbsolute then [] else tree.workingDir

def resolve (tree : FileTree) (p : Path) : Except Fault Target :=
  if 0 ∈ p.bytes then .error .nulInName
  else if p.bytes = [] then .error .notFound
  else if maxPath < p.bytes.length then .error .nameTooLong
  else locate tree.top maxLinks (tree.origin p) (Path.split p.bytes)

def address (tree : FileTree) (p : Path) : Except Fault Address := do
  match ← tree.resolve p with
  | .found address => .ok address
  | .absent _ _ => .error .notFound

def node (tree : FileTree) (p : Path) : Except Fault Node := do
  match tree.top.get? (← tree.address p) with
  | some node => .ok node
  | none => .error .notFound

def isThere (tree : FileTree) (p : Path) : Bool := (tree.node p).toOption.isSome

def isDir (tree : FileTree) (p : Path) : Bool :=
  match tree.node p with
  | .ok (.dir _) => true
  | _ => false

def isFile (tree : FileTree) (p : Path) : Bool :=
  match tree.node p with
  | .ok (.file _) => true
  | _ => false

def canonical (tree : FileTree) (p : Path) : Except Fault Path :=
  (tree.address p).map Path.ofNames

def read (tree : FileTree) (p : Path) : Except Fault (List UInt8) := do
  match ← tree.node p with
  | .file content =>
    if tree.locked.contains (← tree.address p) then .error .permissionDenied else .ok content
  | _ => .error .isADirectory

def put (tree : FileTree) (address : Address) (node : Node) : FileTree :=
  { tree with top := tree.top.set node address }

def lastName (p : Path) : List FileName × FileName :=
  match (Path.split p.bytes).reverse.dropWhile (· == []) with
  | name :: before => (before.reverse, name)
  | [] => ([], [])

def directoryOf (tree : FileTree) (p : Path) : Except Fault (Address × List (FileName × Node)) := do
  if 0 ∈ p.bytes then .error .nulInName
  else if p.bytes = [] then .error .notFound
  else if maxPath < p.bytes.length then .error .nameTooLong
  else
    match ← locate tree.top maxLinks (tree.origin p) (lastName p).1 with
    | .found address =>
      match tree.top.get? address with
      | some (.dir entries) => .ok (address, entries)
      | _ => .error .notADirectory
    | .absent _ _ => .error .notFound

-- A path with a slash at its end cannot name a file.
def write (tree : FileTree) (p : Path) (content : List UInt8) : Except Fault FileTree := do
  if p.bytes.getLast? = some Path.slash then
    let _ ← tree.directoryOf p
    .error .isADirectory
  else
    match ← tree.resolve p with
    | .found address =>
      match tree.top.get? address with
      | some (.dir _) => .error .isADirectory
      | _ => .ok (tree.put address (.file content))
    | .absent dir name => .ok (tree.put (dir ++ [name]) (.file content))

def makeDir (tree : FileTree) (p : Path) : Except Fault FileTree := do
  let (dir, entries) ← tree.directoryOf p
  let name := (lastName p).2
  if Path.isNothing name ∨ name = Path.dotDot then .error .alreadyExists
  else if maxName < name.length then .error .nameTooLong
  else if (Node.find? name entries).isSome then .error .alreadyExists
  else .ok (tree.put (dir ++ [name]) (.dir []))

def makeLink (tree : FileTree) (p target : Path) : Except Fault FileTree := do
  let (dir, entries) ← tree.directoryOf p
  let name := (lastName p).2
  if Path.isNothing name ∨ name = Path.dotDot then .error .alreadyExists
  else if maxName < name.length then .error .nameTooLong
  else if (Node.find? name entries).isSome then .error .alreadyExists
  else .ok (tree.put (dir ++ [name]) (.link target))

-- Each of the paths is the parent of the one before it.
def makeDirsOf (tree : FileTree) : List Path → Except Fault FileTree
  | [] => .ok tree
  | p :: above =>
    if p.bytes = [] then .ok tree
    else
      match tree.makeDir p with
      | .ok tree => .ok tree
      | .error .notFound => do
        let tree ← tree.makeDirsOf above
        match tree.makeDir p with
        | .ok tree => .ok tree
        | .error fault => if tree.isDir p then .ok tree else .error fault
      | .error fault => if tree.isDir p then .ok tree else .error fault

def makeDirs (tree : FileTree) (p : Path) : Except Fault FileTree := tree.makeDirsOf p.ancestors

end FileTree

end CrossRef
