import CrossRef.Glob
import CrossRef.FileTree.Walk

namespace CrossRef

open Text

structure Selection where
  extensions : List String
  ignoredDirs : List String
  excluded : List Glob

namespace Selection

-- They hold art, tools and maps.
def defaultIgnoredDirs : List String := ["gfx", "tools", "resources", "docs", "map"]

def skipsDir (selection : Selection) (name : List Char) : Bool :=
  name.head? == some '.' || selection.ignoredDirs.contains (String.ofList name)

def extension (name : List Char) : String := String.ofList ((afterLast? '.' name).getD [])

def accepts (selection : Selection) (path : String) : Bool :=
  match (pieces '/' path.toList).reverse with
  | [] => false
  | name :: dirs =>
    !name.isEmpty && selection.extensions.contains (extension name) &&
      !dirs.any (fun dir => dir.isEmpty || selection.skipsDir dir) &&
      !selection.excluded.any (·.fits path)

def enters (selection : Selection) (name : FileName) : Bool := !selection.skipsDir (Path.nameText name)

def walk (selection : Selection) (tree : FileTree) (root : Path) : List Path :=
  (tree.files selection.enters root).filter fun p => selection.accepts (Path.label root p)

end Selection

structure GlobFault where
  pattern : String
  fault : Glob.Fault
  deriving DecidableEq, Repr

def readGlobs : List String → Except GlobFault (List Glob)
  | [] => .ok []
  | pattern :: rest =>
    match Glob.ofString? pattern with
    | .ok glob => (readGlobs rest).map (glob :: ·)
    | .error fault => .error { pattern, fault }

end CrossRef
