import CrossRef.Text.Fragment
import CrossRef.Text.Utf8
import CrossRef.Text.Quoted

namespace CrossRef

open Text

namespace Glob

-- Globs match byte by byte: any byte can be a slash, and characters of several bytes are several members of
-- a class.
inductive Token
  | literal (c : Char)
  | any
  | star
  -- Directories in front: nothing, a slash, or any run that ends in a slash.
  | directoriesBefore
  -- A slash and any run after it.
  | everythingBelow
  -- A slash, or any run between two slashes.
  | directoriesBetween
  | oneOf (negated : Bool) (ranges : List (Char × Char))
  | choice (branches : List (List Token))

inductive Fault
  | unclosedClass
  | invalidRange (lo hi : Char)
  | unopenedChoice
  | unclosedChoice
  | danglingEscape
  deriving DecidableEq, Repr

def Fault.message (pattern : String) (fault : Fault) : String :=
  "error parsing glob '" ++ pattern ++ "': " ++
    match fault with
    | unclosedClass => "unclosed character class; missing ']'"
    | invalidRange lo hi =>
      "invalid range; '" ++ String.ofList [lo] ++ "' > '" ++ String.ofList [hi] ++ "'"
    | unopenedChoice =>
      "unopened alternate group; missing '\x7b' (maybe escape '\x7d' with '[\x7d]'?)"
    | unclosedChoice =>
      "unclosed alternate group; missing '\x7d' (maybe escape '\x7b' with '[\x7b]'?)"
    | danglingEscape => "dangling '\\'"

structure OpenClass where
  negated : Bool := false
  ranges : List (Char × Char) := []
  inRange : Bool := false

-- Before the first member a bracket or dash is a member itself.
def OpenClass.isFresh (cls : OpenClass) : Bool := cls.ranges.isEmpty

def OpenClass.closeRange (cls : OpenClass) (c : Char) : Except Fault OpenClass :=
  match cls.ranges with
  | (lo, _) :: rest =>
    if c < lo then .error (.invalidRange lo c)
    else .ok { cls with ranges := (lo, c) :: rest, inRange := false }
  | [] => .ok cls

def OpenClass.add (cls : OpenClass) (c : Char) : Except Fault OpenClass :=
  if cls.inRange then cls.closeRange c
  else if c = '-' ∧ ¬ cls.isFresh then .ok { cls with inRange := true }
  else if (c = '!' ∨ c = '^') ∧ cls.isFresh ∧ ¬ cls.negated then .ok { cls with negated := true }
  else .ok { cls with ranges := (c, c) :: cls.ranges }

def OpenClass.token (cls : OpenClass) : Token :=
  .oneOf cls.negated ((if cls.inRange then ('-', '-') :: cls.ranges else cls.ranges).reverse)

-- All stand last part first.
structure Branch where
  earlier : List (List Token) := []
  tokens : List Token := []

structure Progress where
  inner : Branch := {}
  outer : List Branch := []

namespace Progress

def push (p : Progress) (t : Token) : Progress :=
  { p with inner := { p.inner with tokens := t :: p.inner.tokens } }

def openChoice (p : Progress) : Progress := { inner := {}, outer := p.inner :: p.outer }

def comma (p : Progress) : Progress :=
  if p.outer.isEmpty then p.push (.literal ',')
  else { p with inner := { earlier := p.inner.tokens.reverse :: p.inner.earlier } }

def closeChoice (p : Progress) : Except Fault Progress :=
  match p.outer with
  | [] => .error .unopenedChoice
  | branch :: outer =>
    .ok (push { inner := branch, outer } (.choice (p.inner.tokens.reverse :: p.inner.earlier).reverse))

-- A run of directories takes the place of the slash before it, and is nothing new after a token that
-- already stands for directories in front or for everything below.
def absorbSlash (p : Progress) (t : Token) : Progress :=
  match p.inner.tokens with
  | .directoriesBefore :: _ => p
  | .everythingBelow :: _ => p
  | _ :: rest => { p with inner := { p.inner with tokens := t :: rest } }
  | [] => p.push t

def afterSlash (p : Progress) (before : Option Char) : Bool :=
  before == some '/' || (!p.outer.isEmpty && (before == some ',' || before == some '{'))

def twoStars (p : Progress) : Progress := (p.push .star).push .star

end Progress

inductive Mode
  | text (before : Option Char)
  | escape
  | cls (cls : OpenClass)
  | star (before : Option Char)
  | stars (before : Option Char)

def readText (before : Option Char) (p : Progress) (c : Char) : Except Fault (Mode × Progress) :=
  if c = '?' then .ok (.text (some c), p.push .any)
  else if c = '*' then .ok (.star before, p)
  else if c = '[' then .ok (.cls {}, p)
  else if c = '{' then .ok (.text (some c), p.openChoice)
  else if c = '}' then p.closeChoice.map fun p => (.text (some c), p)
  else if c = ',' then .ok (.text (some c), p.comma)
  else if c = '\\' then .ok (.escape, p)
  else .ok (.text (some c), p.push (.literal c))

def readAfterStars (before : Option Char) (p : Progress) (c : Char) : Except Fault (Mode × Progress) :=
  if p.inner.tokens.isEmpty then
    if c = '/' then .ok (.text (some c), p.push .directoriesBefore)
    else readText (some '*') p.twoStars c
  else if p.afterSlash before then
    if c = '/' then .ok (.text (some c), p.absorbSlash .directoriesBetween)
    else if (c = ',' ∨ c = '}') ∧ ¬ p.outer.isEmpty then
      readText (some '*') (p.absorbSlash .everythingBelow) c
    else readText (some '*') p.twoStars c
  else readText (some '*') p.twoStars c

def readChar : Mode × Progress → Char → Except Fault (Mode × Progress)
  | (.text before, p), c => readText before p c
  | (.escape, p), c => .ok (.text (some c), p.push (.literal c))
  | (.cls cls, p), c =>
    if c = ']' ∧ ¬ cls.isFresh then .ok (.text (some c), p.push cls.token)
    else (cls.add c).map fun cls => (.cls cls, p)
  | (.star before, p), c =>
    if c = '*' then .ok (.stars before, p) else readText (some '*') (p.push .star) c
  | (.stars before, p), c => readAfterStars before p c

def finish : Mode × Progress → Except Fault Progress
  | (.text _, p) => .ok p
  | (.escape, _) => .error .danglingEscape
  | (.cls _, _) => .error .unclosedClass
  | (.star _, p) => .ok (p.push .star)
  | (.stars before, p) =>
    if p.inner.tokens.isEmpty then .ok (p.push .directoriesBefore)
    else if p.afterSlash before then .ok (p.absorbSlash .everythingBelow)
    else .ok p.twoStars

def bytesOf (c : Char) : List UInt8 := Utf8.encode (String.ofList [c])

def afterBytes? : List UInt8 → List UInt8 → Option (List UInt8)
  | [], s => some s
  | _ :: _, [] => none
  | b :: bs, d :: s => if b = d then afterBytes? bs s else none

-- A range runs from the last byte of its first character to the first byte of its last one.
def byteRanges (range : Char × Char) : List (UInt8 × UInt8) :=
  let single (bs : List UInt8) := bs.map fun b => (b, b)
  if range.1 = range.2 then single (bytesOf range.1)
  else
    match (bytesOf range.1).reverse, bytesOf range.2 with
    | lo :: before, hi :: after => single before.reverse ++ (lo, hi) :: single after
    | _, _ => []

def inClass (negated : Bool) (ranges : List (Char × Char)) (b : UInt8) : Bool :=
  (ranges.flatMap byteRanges).any (fun (lo, hi) => lo ≤ b && b ≤ hi) != negated

def suffixes : List UInt8 → List (List UInt8)
  | [] => [[]]
  | b :: rest => (b :: rest) :: suffixes rest

def slash : UInt8 := 0x2f

def afterSlashes : List UInt8 → List (List UInt8)
  | [] => []
  | b :: rest => if b = slash then rest :: afterSlashes rest else afterSlashes rest

def distinct (rests : List (List UInt8)) : List (List UInt8) :=
  rests.eraseDupsBy fun a b => a.length == b.length

mutual

def Token.isVoid : Token → Bool
  | .choice branches => allVoid branches
  | _ => false

def isVoidSeq : List Token → Bool
  | [] => true
  | t :: ts => t.isVoid && isVoidSeq ts

def allVoid : List (List Token) → Bool
  | [] => true
  | ts :: more => isVoidSeq ts && allVoid more

end

mutual

-- Branches that say nothing are left out of a choice.
def Token.rests : Token → List UInt8 → List (List UInt8)
  | .literal c, s => (afterBytes? (bytesOf c) s).toList
  | .any, s => s.tail?.toList
  | .star, s => suffixes s
  | .directoriesBefore, s => s :: afterSlashes s
  | .everythingBelow, s =>
    match s with
    | b :: rest => if b = slash then suffixes rest else []
    | [] => []
  | .directoriesBetween, s =>
    match s with
    | b :: rest => if b = slash then rest :: afterSlashes rest else []
    | [] => []
  | .oneOf negated ranges, s =>
    match s with
    | b :: rest => if inClass negated ranges b then [rest] else []
    | [] => []
  | .choice branches, s => if allVoid branches then [s] else restsAny branches s

def restsSeq : List Token → List (List UInt8) → List (List UInt8)
  | [], ss => ss
  | t :: ts, ss => restsSeq ts (distinct (ss.flatMap fun s => t.rests s))

def restsAny : List (List Token) → List UInt8 → List (List UInt8)
  | [], _ => []
  | ts :: more, s => (if isVoidSeq ts then [] else restsSeq ts [s]) ++ restsAny more s

end

def literals? : List Token → Option (List Char)
  | [] => some []
  | .literal c :: ts => (literals? ts).map (c :: ·)
  | _ :: _ => none

def literalEnd : List Token → List Char
  | [] => []
  | t :: ts =>
    match literals? (t :: ts) with
    | some cs => cs
    | none => literalEnd ts

-- Whether a pattern is, directories and a star in front apart, free of wildcards.
def isEnding : List Token → Bool
  | .directoriesBefore :: .star :: ts => (literals? ts).isSome
  | .directoriesBefore :: ts => (literals? ts).isSome
  | .star :: ts => (literals? ts).isSome
  | ts => (literals? ts).isSome

def asksForName : List Token → Bool
  | .directoriesBefore :: ts => ts.length != 0 && (literals? ts).any fun cs => !cs.contains '/'
  | _ => false

def asksForExtension : List Token → Bool
  | .directoriesBefore :: .star :: .literal '.' :: ts => rest ts
  | .star :: .literal '.' :: ts => rest ts
  | _ => false
where
  rest (ts : List Token) : Bool := (literals? ts).any fun cs => !cs.contains '.' && !cs.contains '/'

def asksForFile (ts : List Token) : Bool :=
  asksForName ts || asksForExtension ts ||
    (!isEnding ts && match afterLast? '.' (literalEnd ts) with
      | some ext => !ext.contains '/'
      | none => false)

-- A path that ends in a dot names no file.
def hasFileName (path : List UInt8) : Bool := path.getLast? != some 0x2e

end Glob

structure Glob where
  tokens : List Glob.Token

namespace Glob

def ofString? (pattern : String) : Except Fault Glob := do
  let p ← finish (← pattern.toList.foldlM readChar (.text none, {}))
  if p.outer.isEmpty then .ok { tokens := p.inner.tokens.reverse } else .error .unclosedChoice

def fitsBytes (glob : Glob) (path : List UInt8) : Bool :=
  match glob.tokens with
  | [.directoriesBefore] => true
  | tokens =>
    (hasFileName path || !asksForFile tokens) && (restsSeq tokens [path]).any (·.isEmpty)

def fits (glob : Glob) (path : String) : Bool := glob.fitsBytes (Utf8.encode path)

end Glob

end CrossRef
