import CrossRef.Git.Inflate
import CrossRef.Repository
import CrossRef.Text.Blank
import CrossRef.Text.Hex
import CrossRef.Text.Lines

namespace CrossRef.Git

open Text

-- Objects are named by twenty bytes.
abbrev ObjectName := List UInt8

def ObjectName.ofHex? (s : List Char) : Option ObjectName :=
  (List.range 20).mapM fun i => (hexValue? 2 (s.drop (2 * i))).map Nat.toUInt8

def ObjectName.hex (name : ObjectName) : String :=
  String.ofList (name.flatMap fun byte => [Nat.digitChar (byte.toNat / 16), Nat.digitChar (byte.toNat % 16)])

-- The highest byte comes first.
def natAt? (data : ByteArray) (start count : Nat) : Option Nat :=
  (List.range count).foldlM (fun value i => return 256 * value + (← data[start + i]?).toNat) 0

inductive ObjectKind
  | commit
  | tree
  | blob
  | tag
  deriving DecidableEq, Repr

def ObjectKind.ofText? (text : String) : Option ObjectKind :=
  [("commit", commit), ("tree", tree), ("blob", blob), ("tag", tag)].lookup text

structure Object where
  kind : ObjectKind
  content : ByteArray

namespace Object

-- A file of its own starts with the kind and the size.
def ofFile? (file : ByteArray) : Option Object := do
  let data ← inflate? file 0
  let header := data.toList.takeWhile (· ≠ 0)
  let kind ← ObjectKind.ofText? (String.ofList (Utf8.decodeLossy (header.takeWhile (· ≠ 0x20))))
  return { kind, content := data.extract (header.length + 1) data.size }

-- Commits start with the name of their tree, and tags with the name of the object they stand for.
def target? (object : Object) : Option ObjectName :=
  let start := Utf8.decodeLossy (object.content.extract 0 64).toList
  match object.kind with
  | .commit => afterLiteral? "tree ".toList start >>= ObjectName.ofHex?
  | .tag => afterLiteral? "object ".toList start >>= ObjectName.ofHex?
  | _ => none

end Object

def entryMode (bits : Nat) : EntryMode :=
  match bits / 0x1000 with
  | 8 => if bits / 0x40 % 2 = 1 then .executable else .regular
  | 10 => .link
  | _ => .submodule

def objectId (bits : Nat) (name : ObjectName) : ObjectId :=
  if entryMode bits = .submodule then .commit name else .blob name

structure TreeEntry where
  bits : Nat
  name : FileName
  id : ObjectName

def TreeEntry.isTree (entry : TreeEntry) : Bool := entry.bits / 0x1000 == 4

def octal (digits : List UInt8) : Nat := digits.foldl (fun value digit => 8 * value + (digit.toNat - 48)) 0

def treeEntries? (bytes : List UInt8) : Option (List TreeEntry) :=
  if h : bytes = [] then some []
  else do
    let digits := bytes.takeWhile (· ≠ 0x20)
    let named := bytes.drop (digits.length + 1)
    let name := named.takeWhile (· ≠ 0)
    let id := (named.drop (name.length + 1)).take 20
    if id.length < 20 then none
    let later ← treeEntries? (named.drop (name.length + 21))
    return { bits := octal digits, name, id } :: later
termination_by bytes.length
decreasing_by
  have := List.length_pos_iff.mpr h
  simp only [List.length_drop]
  omega

-- What a file for a reference says: another reference, or the name of an object.
inductive Reference
  | symbolic (path : String)
  | direct (name : ObjectName)

def Reference.ofText? (text : List Char) : Option Reference :=
  match afterLiteral? "ref:".toList text with
  | some path => some (.symbolic (String.ofList ((skipBlanks path).takeWhile (!isBlank ·))))
  | none => (ObjectName.ofHex? text).map .direct

-- References without files of their own are lines with a name and a path.
def packedReference? (text : List Char) (path : String) : Option ObjectName :=
  (lines text).findSome? fun line => if line.drop 41 = path.toList then ObjectName.ofHex? line else none

end CrossRef.Git
