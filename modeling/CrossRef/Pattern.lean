import CrossRef.Text.Blank
import CrossRef.Text.Word
import CrossRef.Text.Fragment

namespace CrossRef

open Text

def isNameChar (c : Char) : Bool :=
  !isBlank c && c != '#' && c != '"' && c != '{' && c != '}' && c != '=' && c != ']'

def isIdentChar (c : Char) : Bool :=
  ('a' ≤ c && c ≤ 'z') || ('A' ≤ c && c ≤ 'Z') || ('0' ≤ c && c ≤ '9') || c == '_'

def isReferenceChar (c : Char) : Bool := isIdentChar c || c == '.'

-- Case is ignored in displayed names, so the long s and the Kelvin sign, whose small letters are `s` and
-- `k`, belong to them.
def isDisplayChar (c : Char) : Bool := isIdentChar c || c == '\u017F' || c == '\u212A'

structure Hit where
  name : List Char
  rest : List Char
  deriving DecidableEq, Repr

namespace Hit

def run? (cls : Char → Bool) (s : List Char) : Option Hit :=
  match s.span cls with
  | ([], _) => none
  | (name, rest) => some ⟨name, rest⟩

def followedBy? (hit : Hit) (lit : List Char) : Option Hit :=
  (afterLiteral? lit hit.rest).map fun rest => { hit with rest }

end Hit

def afterKeyword? (keyword : List Char) (before : Option Char) (s : List Char) : Option (List Char) :=
  match afterLiteral? keyword s with
  | some rest => if startsWord before then some rest else none
  | none => none

def afterEquals? (s : List Char) : Option (List Char) :=
  match skipBlanks s with
  | '=' :: rest => some (skipBlanks rest)
  | _ => none

def assigned? (keyword : List Char) (before : Option Char) (s : List Char) : Option Hit :=
  (afterKeyword? keyword before s).bind fun rest => (afterEquals? rest).bind (Hit.run? isNameChar)

-- The first `flag = name` before the next closing brace counts.
def flagInBlock? (before : Option Char) : List Char → Option Hit
  | [] => none
  | c :: rest =>
    match assigned? ['f', 'l', 'a', 'g'] before (c :: rest) with
    | some hit => some hit
    | none => if c = '}' then none else flagInBlock? (some c) rest

def afterLiteralIgnoringCase? : List Char → List Char → Option (List Char)
  | [], s => some s
  | _ :: _, [] => none
  | c :: lit, d :: s => if c = d.toLower then afterLiteralIgnoringCase? lit s else none

inductive Pattern
  | assigned (keyword : String)
  | tagged (keyword : String)
  -- A block, `keyword = {`, and on the same line and in the same braces `flag = name`.
  | flagged (keyword : String)
  -- An assignment in which a quotation mark may open before the name.
  | quotable (keyword : String)
  | quotedReference (keyword : String)
  | reference
  -- The start of a displayed property, `[name.GetName` or `[name.GetAdjective`, in any case.
  | displayed
  deriving DecidableEq, Repr

namespace Pattern

def hitAt? : Pattern → (before : Option Char) → List Char → Option Hit
  | assigned keyword, before, s => assigned? keyword.toList before s
  | tagged keyword, before, s => (afterKeyword? keyword.toList before s).bind (Hit.run? isNameChar)
  | flagged keyword, before, s =>
    match (afterKeyword? keyword.toList before s).bind afterEquals? with
    | some ('{' :: body) => flagInBlock? (some '{') body
    | _ => none
  | quotable keyword, before, s =>
    match (afterKeyword? keyword.toList before s).bind afterEquals? with
    | some ('"' :: rest) => Hit.run? isNameChar rest
    | some rest => Hit.run? isNameChar rest
    | none => none
  | quotedReference keyword, before, s =>
    match (afterKeyword? keyword.toList before s).bind afterEquals? with
    | some ('"' :: '[' :: rest) => (Hit.run? isReferenceChar rest).bind (·.followedBy? [']', '"'])
    | _ => none
  | reference, _, '[' :: rest => (Hit.run? isReferenceChar rest).bind (·.followedBy? [']'])
  | reference, _, _ => none
  | displayed, _, '[' :: rest =>
    (Hit.run? isDisplayChar rest).bind fun hit =>
      (afterLiteralIgnoringCase? ['.', 'g', 'e', 't'] hit.rest).bind fun verb =>
        match afterLiteralIgnoringCase? ['n', 'a', 'm', 'e'] verb with
        | some rest => some { hit with rest }
        | none =>
          (afterLiteralIgnoringCase? ['a', 'd', 'j', 'e', 'c', 't', 'i', 'v', 'e'] verb).map
            fun rest => { hit with rest }
  | displayed, _, _ => none

-- A pattern is tried at each place from left to right. Where it fits it yields one name, and the search
-- goes on after the `skip` characters that it read.
def namesFrom (p : Pattern) : (skip : Nat) → (before : Option Char) → List Char → List (List Char)
  | _, _, [] => []
  | skip + 1, _, c :: rest => p.namesFrom skip (some c) rest
  | 0, before, c :: rest =>
    match p.hitAt? before (c :: rest) with
    | some hit => hit.name :: p.namesFrom (rest.length - hit.rest.length) (some c) rest
    | none => p.namesFrom 0 (some c) rest

def names (p : Pattern) (line : List Char) : List (List Char) := p.namesFrom 0 none line

end Pattern

end CrossRef
