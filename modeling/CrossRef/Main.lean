import CrossRef.Command.Run
import CrossRef.Git.Index

namespace CrossRef.Program

def orSame (tree : FileTree) (after : Except Fault FileTree) : FileTree := after.toOption.getD tree

def entry (p : String) : IO.FS.DirEntry := { root := p, fileName := "" }

def typeAt? (p : String) : IO (Option IO.FS.FileType) := do
  try return some (← (entry p).root.symlinkMetadata).type
  catch _ => return none

def real? (p : String) : IO (Option String) := do
  try return some (← IO.FS.realPath p).toString
  catch _ => return none

def isRead (name : String) : Bool := (FileClass.ofPath? name).isSome || name.endsWith ".yaml"

def bytes? (p : String) : IO (Option ByteArray) := do
  try return some (← IO.FS.readBinFile p)
  catch _ => return none

def text? (p : String) : IO (Option (List Char)) :=
  return (← bytes? p).map fun bytes => Text.Utf8.decodeLossy bytes.toList

-- A directory that cannot be read has nothing in it.
def children (p : String) : IO (List IO.FS.DirEntry) := do
  try return (← (entry p).root.readDir).toList
  catch _ => return []

def captureFile (tree : FileTree) (p : Path) (wanted : Bool) : IO FileTree := do
  if !wanted then return orSame tree (tree.write p [])
  match ← bytes? p.toString with
  | some bytes => return orSame tree (tree.write p bytes.toList)
  | none =>
    let tree := orSame tree (tree.write p [])
    return { tree with locked := (tree.address p).toOption.toList ++ tree.locked }

partial def capture (tree : FileTree) (p : String) (given : Bool) : IO FileTree := do
  if tree.isThere (Path.ofString p) && !tree.isDir (Path.ofString p) then return tree
  match ← typeAt? p with
  | some .dir =>
    let mut tree := orSame tree (tree.makeDirs (Path.ofString p))
    for child in ← children p do
      let q := child.path.toString
      if child.fileName.startsWith "." && (← typeAt? q) == some .dir then
        tree := orSame tree (tree.makeDirs (Path.ofString q))
      else tree ← capture tree q false
    return tree
  | some .symlink =>
    match ← real? p with
    | some target =>
      let tree := orSame tree (tree.makeLink (Path.ofString p) (Path.ofString target))
      if tree.isThere (Path.ofString target) then return tree else capture tree target given
    | none => return orSame tree (tree.makeLink (Path.ofString p) (Path.ofString p))
  | some _ => captureFile tree (Path.ofString p) (given || isRead p)
  | none => return tree

def captureAt (tree : FileTree) (p : Path) : IO FileTree := do
  let mut tree := tree
  for above in p.ancestors.tail.reverse do
    match ← typeAt? above.toString with
    | some .dir => tree := orSame tree (tree.makeDirs above)
    | some .symlink =>
      if let some target ← real? above.toString then
        tree := orSame tree (tree.makeDirs (Path.ofString target))
        tree := orSame tree (tree.makeLink above (Path.ofString target))
    | _ => pure ()
  capture tree p.toString true

-- A directory for the objects and references, and one for what belongs to a working directory of its own.
structure GitDir where
  own : String
  common : String

-- A path that a file in the directory gives, in its first line.
def within (p : String) (line : List Char) : String :=
  ((Path.ofString p).join (Path.ofString (String.ofList (line.takeWhile (· != '\n'))))).toString

def gitDir? (p : String) : IO (Option GitDir) := do
  let common := ((← text? (p ++ "/commondir")).map (within p)).getD p
  let isDir (q : String) : IO Bool := return (← typeAt? q) == some .dir
  let complete := (← typeAt? (p ++ "/HEAD")).isSome && (← isDir (common ++ "/objects")) &&
    (← isDir (common ++ "/refs"))
  return if complete then some { own := p, common } else none

-- A file can stand for the directory elsewhere.
def gitDirIn? (p : String) : IO (Option GitDir) := do
  match ← text? (p ++ "/.git") with
  | none => gitDir? (p ++ "/.git")
  | some text =>
    match Text.afterLiteral? "gitdir: ".toList text with
    | some path => gitDir? (within p path)
    | none => return none

def packs (dir : String) : IO (List Git.Pack) := do
  let names := (← children (dir ++ "/pack")).map (·.path.toString)
  names.filterMapM fun name => do
    if !name.endsWith ".idx" then return none
    let some index ← bytes? name | return none
    let some data ← bytes? ((name.dropEnd 4).toString ++ ".pack") | return none
    return some { index, data }

-- Objects stand in files of their own or in packs, here or in the directories of other repositories.
structure ObjectStore where
  dirs : List String
  packs : List Git.Pack

partial def objectDirs (dir : String) : IO (List String) := do
  let lines := Text.lines ((← text? (dir ++ "/info/alternates")).getD [])
  let others := lines.filter fun line => line ≠ [] ∧ line.head? ≠ some '#'
  return dir :: (← others.mapM fun line => objectDirs (within dir line)).flatten

def ObjectStore.ofGitDir (git : GitDir) : IO ObjectStore := do
  let dirs ← objectDirs (git.common ++ "/objects")
  return { dirs, packs := (← dirs.mapM Program.packs).flatten }

def ObjectStore.object? (store : ObjectStore) (name : Git.ObjectName) : IO (Option Git.Object) := do
  let hex := name.hex
  for dir in store.dirs do
    if let some file ← bytes? (dir ++ "/" ++ (hex.take 2).toString ++ "/" ++ (hex.drop 2).toString) then
      return Git.Object.ofFile? file
  return store.packs.findSome? (·.object? name)

partial def reference? (git : GitDir) (path : String) : IO (Option Git.ObjectName) := do
  let own? ← text? (git.own ++ "/" ++ path)
  let common? ← text? (git.common ++ "/" ++ path)
  match (own? <|> common?).bind Git.Reference.ofText? with
  | some (.direct name) => return some name
  | some (.symbolic path) => reference? git path
  | none => return Git.packedReference? ((← text? (git.common ++ "/packed-refs")).getD []) path

partial def commit? (store : ObjectStore) (name : Git.ObjectName) : IO (Option Git.Object) := do
  let some object ← store.object? name | return none
  match object.kind, object.target? with
  | .commit, _ => return some object
  | .tag, some target => commit? store target
  | _, _ => return none

partial def committed (store : ObjectStore) (name : Git.ObjectName) :
    IO (List (FileName × CommitNode)) := do
  let entries? := (← store.object? name).bind fun object =>
    if object.kind = .tree then Git.treeEntries? object.content.toList else none
  let some entries := entries? | throw (IO.userError "git: failed to read HEAD tree")
  entries.mapM fun entry => do
    if entry.isTree then return (entry.name, .tree (← committed store entry.id))
    else return (entry.name, .entry (Git.entryMode entry.bits) (Git.objectId entry.bits entry.id))

def repositoryOf (git : GitDir) (home : Address) : IO Repository := do
  let store ← ObjectStore.ofGitDir git
  let commit ← (← reference? git "HEAD").bindM (commit? store)
  let head ← (commit.bind (·.target?)).mapM (committed store)
  return { home, head, index := (← bytes? (git.own ++ "/index")).bind Git.indexEntries? }

-- The repository that is found first on the way up from the directory.
def repository? (tree : FileTree) (p : String) : IO (Option Repository) := do
  let some start ← real? p | return none
  for above in (Path.ofString start).ancestors do
    let home := (tree.address above).toOption.getD []
    if let some git ← gitDirIn? above.toString then return some (← repositoryOf git home)
    if (← gitDir? above.toString).isSome then return some { home, bare := true, head := none, index := none }
  return none

def session (command : Command) : IO Session := do
  let here := (← IO.currentDir).toString
  let tempDir := Path.ofString ((← IO.getEnv "TMPDIR").getD "/tmp")
  let start : FileTree := { top := .dir [] }
  let mut tree := orSame start (start.makeDirs (Path.ofString here))
  tree := orSame tree (tree.makeDirs tempDir)
  tree := { tree with workingDir := (tree.address (Path.ofString here)).toOption.getD [] }
  for p in command.paths do
    tree ← captureAt tree ((Path.ofString here).join p)
  let repo? ← command.stagedRoot?.bindM fun p => repository? tree p.toString
  let color := (← (← IO.getStdout).isTty) && (← IO.getEnv "NO_COLOR").isNone
  return { tree, repo?, tempDir, color }

def writeChanges (before after : FileTree) : IO Unit := do
  let old := before.top.regularFiles []
  for (address, content) in after.top.regularFiles [] do
    if !old.contains (address, content) then
      let p := Path.ofNames address
      if let some parent := p.parent? then IO.FS.createDirAll parent.toString
      IO.FS.writeBinFile p.toString { data := content.toArray }

def explain (usage : Usage) : IO UInt32 := do
  match usage with
  | .versionWanted => IO.print versionText
  | .helpWanted => IO.print usageText
  | _ => IO.eprint usageText
  return usage.exitCode.toUInt32

def run (command : Command) : IO UInt32 := do
  try
    let start ← session command
    let outcome := start.run command
    IO.print outcome.out
    IO.eprint outcome.errors
    writeChanges start.tree outcome.tree
    return outcome.ending.exitCode.toUInt32
  catch fault =>
    IO.eprintln (errorText (toString fault))
    return (Ending.fatal (toString fault)).exitCode.toUInt32

end CrossRef.Program

def main (arguments : List String) : IO UInt32 :=
  match CrossRef.Command.ofArguments arguments with
  | .ok command => CrossRef.Program.run command
  | .error usage => CrossRef.Program.explain usage
