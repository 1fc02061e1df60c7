namespace CrossRef.Yaml

def isAllowed (c : Char) : Bool :=
  c == '\t' || c == '\n' || c == '\r' || (' ' ≤ c && c ≤ '~') || c == '\u0085' ||
    ('\u00a0' ≤ c && c ≤ '\ud7ff') || ('\ue000' ≤ c && c ≤ '\ufffd') || 0x10000 ≤ c.toNat

def isBreak (c : Char) : Bool :=
  c == '\r' || c == '\n' || c == '\u0085' || c == '\u2028' || c == '\u2029'

def isSpace (c : Char) : Bool := c == ' ' || c == '\t'

def isGap (c : Char) : Bool := isSpace c || isBreak c

def startsGap (s : List Char) : Bool := s.head?.all isGap

def isAlpha (c : Char) : Bool :=
  ('a' ≤ c && c ≤ 'z') || ('A' ≤ c && c ≤ 'Z') || ('0' ≤ c && c ≤ '9') || c == '_' || c == '-'

structure Cursor where
  rest : List Char
  index : Nat := 0
  line : Nat := 0
  column : Nat := 0

namespace Cursor

def peek? (c : Cursor) : Option Char := c.rest.head?

def skip (c : Cursor) (n : Nat) : Cursor :=
  { c with rest := c.rest.drop n, index := c.index + n, column := c.column + n }

-- No line break is in the class.
def takeWhile (c : Cursor) (cls : Char → Bool) : List Char × Cursor :=
  let taken := c.rest.takeWhile cls
  (taken, c.skip taken.length)

def skipWhile (c : Cursor) (cls : Char → Bool) : Cursor := (c.takeWhile cls).2

def skipToBreak (c : Cursor) : Cursor := c.skipWhile (!isBreak ·)

def nextLine (c : Cursor) (n : Nat) : Cursor :=
  { rest := c.rest.drop n, index := c.index + n, line := c.line + 1, column := 0 }

def takeBreak? (c : Cursor) : Option (List Char × Cursor) :=
  match c.rest with
  | '\r' :: '\n' :: _ => some (['\n'], c.nextLine 2)
  | b :: _ =>
    if b = '\r' ∨ b = '\n' ∨ b = '\u0085' then some (['\n'], c.nextLine 1)
    else if isBreak b then some ([b], c.nextLine 1)
    else none
  | [] => none

def atDocumentMark (c : Cursor) (mark : Char) : Bool :=
  c.column == 0 && c.rest.take 3 == [mark, mark, mark] && startsGap (c.rest.drop 3)

def atDocumentEdge (c : Cursor) : Bool := c.atDocumentMark '-' || c.atDocumentMark '.'

def restOfLine? (c : Cursor) : Option Cursor :=
  let c := c.skipWhile isSpace
  let c := if c.peek? == some '#' then c.skipToBreak else c
  match c.takeBreak? with
  | some (_, next) => some next
  | none => if c.rest.isEmpty then some c else none

end Cursor

end CrossRef.Yaml
