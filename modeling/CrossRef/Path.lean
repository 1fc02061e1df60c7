import CrossRef.Text.Fragment
import CrossRef.Text.Utf8

namespace CrossRef

open Text

abbrev FileName := List UInt8

-- The bytes are kept as they were written. Paths are compared and ordered by their components.
structure Path where
  bytes : List UInt8
  deriving DecidableEq, Repr

namespace Path

def slash : UInt8 := 0x2f

def dot : FileName := [0x2e]

def dotDot : FileName := [0x2e, 0x2e]

def ofString (s : String) : Path := { bytes := Utf8.encode s }

def toString (p : Path) : String := String.ofList (Utf8.decodeLossy p.bytes)

def split (bytes : List UInt8) : List FileName := pieces slash bytes

def joinPieces : List FileName → List UInt8
  | [] => []
  | [piece] => piece
  | piece :: more => piece ++ slash :: joinPieces more

def isAbsolute (p : Path) : Bool := p.bytes.head? == some slash

inductive Component
  | root
  | here
  | up
  | name (n : FileName)
  deriving DecidableEq, Repr

def start (p : Path) : Option Component × List UInt8 :=
  match p.bytes with
  | [] => (none, [])
  | b :: rest =>
    if b = slash then (some .root, rest)
    else if (split (b :: rest)).head? = some dot then (some .here, rest)
    else (none, b :: rest)

-- Whether a piece is no component: it is empty, or a dot that is not in front.
def isNothing (piece : FileName) : Bool := piece == [] || piece == dot

def componentOf (piece : FileName) : Component := if piece = dotDot then .up else .name piece

def components (p : Path) : List Component :=
  p.start.1.toList ++ ((split p.start.2).filter (!isNothing ·)).map componentOf

def same (p q : Path) : Bool := p.components == q.components

def isAbove (p q : Path) : Bool := p.components.isPrefixOf q.components

def Component.rank : Component → Nat
  | root => 0
  | here => 1
  | up => 2
  | name _ => 3

def Component.lt : Component → Component → Bool
  | name a, name b => decide (a < b)
  | a, b => decide (a.rank < b.rank)

def componentsLt : List Component → List Component → Bool
  | [], [] => false
  | [], _ :: _ => true
  | _ :: _, [] => false
  | a :: as, b :: bs => a.lt b || (a == b && componentsLt as bs)

def lt (p q : Path) : Bool := componentsLt p.components q.components

def le (p q : Path) : Bool := !q.lt p

def fileName? (p : Path) : Option FileName :=
  match p.components.getLast? with
  | some (.name n) => some n
  | _ => none

def join (p q : Path) : Path :=
  if q.isAbsolute then q
  else if p.bytes = [] ∨ p.bytes.getLast? = some slash then { bytes := p.bytes ++ q.bytes }
  else { bytes := p.bytes ++ slash :: q.bytes }

def child (p : Path) (name : FileName) : Path := p.join { bytes := name }

def trimEnd (pieces : List FileName) : List FileName := (pieces.reverse.dropWhile isNothing).reverse

def dropComponents : (n : Nat) → List FileName → List FileName
  | 0, pieces => pieces
  | _ + 1, [] => []
  | n + 1, piece :: more =>
    if isNothing piece then dropComponents (n + 1) more else dropComponents n more

def startBytes (p : Path) : List UInt8 :=
  match p.start.1 with
  | some .root => [slash]
  | some .here => dot
  | _ => []

-- Without what is no component at either end.
def after (p : Path) (n : Nat) : Path :=
  let pieces := split p.start.2
  match n, p.start.1 with
  | 0, _ => { bytes := p.startBytes ++ joinPieces (trimEnd pieces) }
  | n + 1, some _ => { bytes := joinPieces (trimEnd ((dropComponents n pieces).dropWhile isNothing)) }
  | n + 1, none =>
    { bytes := joinPieces (trimEnd ((dropComponents (n + 1) pieces).dropWhile isNothing)) }

def parent? (p : Path) : Option Path :=
  match (trimEnd (split p.start.2)).reverse, p.start.1 with
  | _ :: more, _ => some { bytes := p.startBytes ++ joinPieces (trimEnd more.reverse) }
  | [], some .here => some { bytes := [] }
  | [], _ => none

def upwards : (depth : Nat) → Path → List Path
  | 0, p => [p]
  | depth + 1, p =>
    p :: match p.parent? with
      | some above => upwards depth above
      | none => []

def ancestors (p : Path) : List Path := upwards p.components.length p

def ofNames (names : List FileName) : Path := { bytes := slash :: joinPieces names }

def nameText (name : FileName) : List Char := Utf8.decodeLossy name

-- With forward slashes only. The root itself goes by its own name, and a file outside of the root by its
-- whole path.
def label (root p : Path) : String :=
  if p.same root then
    match p.fileName? with
    | some name => String.ofList (nameText name)
    | none => ""
  else
    let rest := if root.isAbove p then p.after root.components.length else p
    String.ofList ((Utf8.decodeLossy rest.bytes).map fun c => if c = '\\' then '/' else c)

end Path

end CrossRef
