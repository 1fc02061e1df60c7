import CrossRef.Failure

namespace CrossRef

open Text

inductive EntryMode
  | regular
  | executable
  | link
  | submodule
  deriving DecidableEq, Repr

-- Objects go by their keys. The key of a blob is its bytes or a digest of them.
inductive ObjectId
  | blob (key : List UInt8)
  | commit (key : List UInt8)
  deriving DecidableEq, Repr

inductive CommitNode
  | entry (mode : EntryMode) (id : ObjectId)
  | tree (entries : List (FileName × CommitNode))

def EntryMode.isFile (mode : EntryMode) : Bool := mode == .regular || mode == .executable

-- Bytes that are no text become replacement characters.
def Path.asRead (p : Path) : Path := Path.ofString p.toString

namespace CommitNode

mutual

def blobs (path : Path) : CommitNode → List (Path × ObjectId)
  | entry mode id => if mode.isFile then [(path, id)] else []
  | tree entries => blobsIn path entries

def blobsIn (path : Path) : List (FileName × CommitNode) → List (Path × ObjectId)
  | [] => []
  | (name, node) :: rest => node.blobs (path.join (Path.asRead { bytes := name })) ++ blobsIn path rest

end

end CommitNode

structure IndexEntry where
  path : Path
  mode : EntryMode
  id : ObjectId
  deriving DecidableEq, Repr

structure Repository where
  home : Address
  bare : Bool := false
  head : Option (List (FileName × CommitNode))
  -- A path can have several entries.
  index : Option (List IndexEntry)

namespace Repository

-- Every step to the directory above is taken back at once, without a look at the files.
def normalized (tree : FileTree) (p : Path) : Path :=
  let whole := (Path.ofNames tree.workingDir).join p
  if whole.components.contains .up then
    Path.ofNames <| whole.components.foldl (fun names component =>
      match component with
      | .up => names.dropLast
      | .name n => names ++ [n]
      | _ => names) []
  else whole

def isFoundFrom (repo : Repository) (tree : FileTree) (p : Path) : Bool :=
  tree.isDir (normalized tree p) &&
    (normalized tree p).ancestors.any fun above => (tree.address above).toOption == some repo.home

def workingDir (repo : Repository) : Path := Path.ofNames repo.home

def discover (tree : FileTree) (repo? : Option Repository) (p : Path) :
    Except RepositoryFault Repository :=
  match repo? with
  | none => .error .noRepository
  | some repo =>
    if !repo.isFoundFrom tree p then .error .noRepository
    else if repo.bare then .error .noWorkingDirectory
    else .ok repo

def committed (repo : Repository) : List (Path × ObjectId) :=
  CommitNode.blobsIn { bytes := [] } (repo.head.getD [])

-- Of two files at one path the later one counts.
def committedId? (repo : Repository) (p : Path) : Option ObjectId :=
  (repo.committed.reverse.find? (·.1.same p)).map (·.2)

def isCommitted (repo : Repository) (entry : IndexEntry) : Bool :=
  repo.committedId? entry.path.asRead == some entry.id

-- Of neighbours that are the same, the first one stays.
def dedupFrom (p : Path) : List Path → List Path
  | [] => [p]
  | q :: rest => if p.same q then dedupFrom p rest else p :: dedupFrom q rest

def dedup : List Path → List Path
  | [] => []
  | p :: rest => dedupFrom p rest

def staged (repo : Repository) (tree : FileTree) : Except RepositoryFault (List Path) :=
  match repo.index with
  | none => .error .noIndex
  | some entries =>
    let changed := (entries.filter (!repo.isCommitted ·)).map (repo.workingDir.join ·.path.asRead)
    .ok (dedup ((changed.filter tree.isFile).mergeSort Path.le))

end Repository

def Selection.stagedFiles (selection : Selection) (tree : FileTree) (repo? : Option Repository)
    (root : Path) : Except Failure (List Path) := do
  let repo ← (Repository.discover tree repo? root).mapError .repository
  let staged ← (repo.staged tree).mapError .repository
  let files := staged.filter fun p => root.isAbove p && selection.accepts (Path.label root p)
  if files.isEmpty then .error .nothingStaged else .ok files

end CrossRef
