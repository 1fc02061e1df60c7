import CrossRef.Yaml.Scalar

namespace CrossRef.Yaml

inductive Token
  | version (major minor : Nat)
  | handle (name : String)
  | documentStart
  | documentEnd
  | blockSequenceStart
  | blockMappingStart
  | blockEnd
  | flowSequenceStart
  | flowSequenceEnd
  | flowMappingStart
  | flowMappingEnd
  | blockEntry
  | flowEntry
  | key
  | value
  | aliasOf (name : String)
  | anchor (name : String)
  | tag (handle : String)
  | scalar (text : String) (plain : Bool)
  deriving DecidableEq, Repr

-- A text that starts a mapping key is known as one only when the colon after it is seen, so its key token
-- is put in front of it then.
structure PossibleKey where
  required : Bool
  number : Nat
  index : Nat
  line : Nat
  column : Nat

structure Scanner where
  cursor : Cursor
  tokens : List Token := []
  indent : Int := -1
  indents : List Int := []
  keyAllowed : Bool := true
  -- For the block and for each open flow collection, the innermost first.
  keys : List (Option PossibleKey) := [none]

namespace Scanner

def inFlow (s : Scanner) : Bool := decide (1 < s.keys.length)

def emit (s : Scanner) (t : Token) : Scanner := { s with tokens := t :: s.tokens }

def insert (s : Scanner) (number : Nat) (t : Token) : Scanner :=
  { s with tokens := s.tokens.insertIdx (s.tokens.length - number) t }

def skip (s : Scanner) (n : Nat) : Scanner := { s with cursor := s.cursor.skip n }

def openBlock (s : Scanner) (column : Nat) (number : Nat) (t : Token) : Scanner :=
  if s.inFlow || decide ((column : Int) ≤ s.indent) then s
  else { s with indents := s.indent :: s.indents, indent := column }.insert number t

def closeBlocksTo (column : Int) : (depth : Nat) → Scanner → Scanner
  | 0, s => s
  | depth + 1, s =>
    if s.inFlow || decide (s.indent ≤ column) then s
    else
      match s.indents with
      | [] => s
      | outer :: indents => closeBlocksTo column depth ({ s with indent := outer, indents }.emit .blockEnd)

def closeBlocks (s : Scanner) (column : Int) : Scanner := closeBlocksTo column s.indents.length s

def dropKey (s : Scanner) : Option Scanner :=
  match s.keys with
  | some key :: keys => if key.required then none else some { s with keys := none :: keys }
  | _ => some s

def saveKey (s : Scanner) : Option Scanner :=
  if s.keyAllowed then do
    let key : PossibleKey :=
      { required := !s.inFlow && s.indent == (s.cursor.column : Int)
        number := s.tokens.length
        index := s.cursor.index
        line := s.cursor.line
        column := s.cursor.column }
    let s ← s.dropKey
    some { s with keys := some key :: s.keys.drop 1 }
  else some s

def maxKey : Nat := 1024

-- Keys are short and on one line.
def isStale (c : Cursor) (key : PossibleKey) : Bool :=
  key.line < c.line || key.index + maxKey < c.index

def dropStaleKeys (s : Scanner) : Option Scanner := do
  let keys ← s.keys.mapM fun
    | some key =>
      if isStale s.cursor key then (if key.required then none else some none) else some (some key)
    | none => some none
  some { s with keys }

-- Where a key may start in a block, tabs are no spaces.
def toNextToken : (fuel : Nat) → Scanner → Scanner
  | 0, s => s
  | fuel + 1, s =>
    let c := if s.cursor.index = 0 ∧ s.cursor.peek? = some '\ufeff' then s.cursor.skip 1 else s.cursor
    let tabs := s.inFlow || !s.keyAllowed
    let c := c.skipWhile fun ch => ch == ' ' || (tabs && ch == '\t')
    let c := if c.peek? == some '#' then c.skipToBreak else c
    match c.takeBreak? with
    | some (_, next) =>
      toNextToken fuel { s with cursor := next, keyAllowed := s.keyAllowed || !s.inFlow }
    | none => { s with cursor := c }

def maxDigits : Nat := 9

def number? (c : Cursor) : Option (Nat × Cursor) :=
  let (digits, c) := c.takeWhile Char.isDigit
  if digits.isEmpty ∨ maxDigits < digits.length then none
  else some (digits.foldl (fun n d => n * 10 + (d.toNat - 48)) 0, c)

def escapedByte? (s : List Char) : Option Nat :=
  if s.head? = some '%' then Text.hexValue? 2 (s.drop 1) else none

def sequenceLength? (b : Nat) : Option Nat :=
  if b < 0x80 then some 1
  else if 0xC0 ≤ b ∧ b < 0xE0 then some 2
  else if 0xE0 ≤ b ∧ b < 0xF0 then some 3
  else if 0xF0 ≤ b ∧ b < 0xF8 then some 4
  else none

def skipEscapedBytes : (n : Nat) → Cursor → Option Cursor
  | 0, c => some c
  | n + 1, c => do
    let b ← escapedByte? c.rest
    if 0x80 ≤ b ∧ b < 0xC0 then skipEscapedBytes n (c.skip 3) else none

def skipEscapedChar? (c : Cursor) : Option Cursor := do
  let n ← sequenceLength? (← escapedByte? c.rest)
  skipEscapedBytes (n - 1) (c.skip 3)

def isTagChar (verbatim : Bool) (c : Char) : Bool :=
  isAlpha c ||
    [';', '/', '?', ':', '@', '&', '=', '+', '$', '.', '%', '!', '~', '*', '\'', '(', ')'].contains c ||
    (verbatim && (c == ',' || c == '[' || c == ']'))

def skipTag (verbatim : Bool) : (fuel count : Nat) → Cursor → Option (Nat × Cursor)
  | 0, count, c => some (count, c)
  | fuel + 1, count, c =>
    match c.peek? with
    | some ch =>
      if !isTagChar verbatim ch then some (count, c)
      else if ch = '%' then do skipTag verbatim fuel (count + 1) (← skipEscapedChar? c)
      else skipTag verbatim fuel (count + 1) (c.skip 1)
    | none => some (count, c)

def skipTag? (verbatim : Bool) (c : Cursor) : Option Cursor := do
  let (count, c) ← skipTag verbatim c.rest.length 0 c
  if count = 0 then none else some c

structure Handle where
  name : List Char
  closed : Bool
  cursor : Cursor

def handle? (c : Cursor) : Option Handle :=
  if c.peek? = some '!' then
    let (letters, c) := (c.skip 1).takeWhile isAlpha
    if c.peek? = some '!' then some { name := '!' :: letters ++ ['!'], closed := true, cursor := c.skip 1 }
    else some { name := '!' :: letters, closed := false, cursor := c }
  else none

def directive? (c : Cursor) : Option (Token × Cursor) := do
  let (name, c) := c.takeWhile isAlpha
  if !startsGap c.rest then none
  else if name = ['Y', 'A', 'M', 'L'] then
    let (major, c) ← number? (c.skipWhile isSpace)
    if c.peek? = some '.' then
      let (minor, c) ← number? (c.skip 1)
      some (.version major minor, ← c.restOfLine?)
    else none
  else if name = ['T', 'A', 'G'] then
    let handle ← handle? (c.skipWhile isSpace)
    if (handle.closed || handle.name == ['!']) && handle.cursor.peek?.any isSpace then
      let c ← skipTag? true (handle.cursor.skipWhile isSpace)
      if startsGap c.rest then some (.handle (String.ofList handle.name), ← c.restOfLine?) else none
    else none
  else none

def tag? (flow : Bool) (c : Cursor) : Option (Token × Cursor) := do
  let (handle, c) ←
    if c.rest.take 2 = ['!', '<'] then do
      let c ← skipTag? true (c.skip 2)
      if c.peek? = some '>' then some ("", c.skip 1) else none
    else do
      let handle ← handle? c
      if handle.closed then
        some (String.ofList handle.name, ← skipTag? false handle.cursor)
      else
        let (count, c) ← skipTag false handle.cursor.rest.length 0 handle.cursor
        some (if handle.name.length = 1 ∧ count = 0 then "" else "!", c)
  if startsGap c.rest || (flow && c.peek? == some ',') then some (.tag handle, c) else none

def name? (c : Cursor) : Option (String × Cursor) :=
  let (name, c) := c.takeWhile isAlpha
  if name.isEmpty then none
  else if startsGap c.rest || c.peek?.any (['?', ':', ',', ']', '}', '%', '@', '\x60'].contains ·) then
    some (String.ofList name, c)
  else none

def betweenDocuments (s : Scanner) (t : Token) (c : Cursor) : Option Scanner := do
  let s ← (s.closeBlocks (-1)).dropKey
  some ({ s with keyAllowed := false, cursor := c }.emit t)

def openFlow (s : Scanner) (t : Token) : Option Scanner := do
  let s ← s.saveKey
  some (({ s with keys := none :: s.keys, keyAllowed := true }.skip 1).emit t)

def closeFlow (s : Scanner) (t : Token) : Option Scanner := do
  let s ← s.dropKey
  let keys := if s.inFlow then s.keys.drop 1 else s.keys
  some (({ s with keys, keyAllowed := false }.skip 1).emit t)

def flowEntry (s : Scanner) : Option Scanner := do
  let s ← s.dropKey
  some (({ s with keyAllowed := true }.skip 1).emit .flowEntry)

def blockEntry (s : Scanner) : Option Scanner := do
  let s ←
    if s.inFlow then some s
    else if s.keyAllowed then some (s.openBlock s.cursor.column s.tokens.length .blockSequenceStart)
    else none
  let s ← s.dropKey
  some (({ s with keyAllowed := true }.skip 1).emit .blockEntry)

def explicitKey (s : Scanner) : Option Scanner := do
  let s ←
    if s.inFlow then some s
    else if s.keyAllowed then some (s.openBlock s.cursor.column s.tokens.length .blockMappingStart)
    else none
  let s ← s.dropKey
  some (({ s with keyAllowed := !s.inFlow }.skip 1).emit .key)

def value (s : Scanner) : Option Scanner :=
  match s.keys with
  | some key :: keys =>
    let s := ({ s with keys := none :: keys, keyAllowed := false }.insert key.number .key)
    some ((s.openBlock key.column key.number .blockMappingStart).skip 1 |>.emit .value)
  | _ => do
    let s ←
      if s.inFlow then some s
      else if s.keyAllowed then some (s.openBlock s.cursor.column s.tokens.length .blockMappingStart)
      else none
    some (({ s with keyAllowed := !s.inFlow }.skip 1).emit .value)

def content (s : Scanner) (t : Token) (c : Cursor) : Option Scanner := do
  let s ← s.saveKey
  some ({ s with keyAllowed := false, cursor := c }.emit t)

-- Where a plain scalar ends with a line, a key may start on the next one.
def plainScalar (s : Scanner) : Option Scanner := do
  let c := s.cursor
  let plain ← readPlain s.inFlow (s.indent + 1) (c.rest.length + 1) { text := [], gap := {}, cursor := c }
  let s ← s.content (.scalar (String.ofList plain.text) true) plain.cursor
  some { s with keyAllowed := plain.gap.broken }

def quotedScalar (s : Scanner) (quote : Char) : Option Scanner := do
  let c := s.cursor.skip 1
  let (text, c) ← readQuoted quote (c.rest.length + 1) [] c
  s.content (.scalar (String.ofList text) false) c

def blockScalar (s : Scanner) (literal : Bool) : Option Scanner := do
  let s ← s.dropKey
  let (text, c) ← readBlock literal s.indent (s.cursor.skip 1)
  some ({ s with keyAllowed := true, cursor := c }.emit (.scalar (String.ofList text) false))

def isIndicator (c : Char) : Bool :=
  ['-', '?', ':', ',', '[', ']', '{', '}', '#', '&', '*', '!', '|', '>', '\'', '"', '%', '@',
    '\x60'].contains c

def startsPlain (flow : Bool) (c : Char) (rest : List Char) : Bool :=
  (!isGap c && !isIndicator c) || (c == '-' && !rest.head?.any isSpace) ||
    (!flow && (c == '?' || c == ':') && !startsGap rest)

def tokenAt (s : Scanner) (ch : Char) (rest : List Char) : Option Scanner :=
  let c := s.cursor
  if c.column = 0 ∧ ch = '%' then do
    let (t, c) ← directive? (c.skip 1)
    s.betweenDocuments t c
  else if c.atDocumentMark '-' then s.betweenDocuments .documentStart (c.skip 3)
  else if c.atDocumentMark '.' then s.betweenDocuments .documentEnd (c.skip 3)
  else if ch = '[' then s.openFlow .flowSequenceStart
  else if ch = '{' then s.openFlow .flowMappingStart
  else if ch = ']' then s.closeFlow .flowSequenceEnd
  else if ch = '}' then s.closeFlow .flowMappingEnd
  else if ch = ',' then s.flowEntry
  else if ch = '-' ∧ startsGap rest then s.blockEntry
  else if ch = '?' ∧ (s.inFlow ∨ startsGap rest) then s.explicitKey
  else if ch = ':' ∧ (s.inFlow ∨ startsGap rest) then s.value
  else if ch = '*' then do
    let (name, c) ← name? (c.skip 1)
    s.content (.aliasOf name) c
  else if ch = '&' then do
    let (name, c) ← name? (c.skip 1)
    s.content (.anchor name) c
  else if ch = '!' then do
    let (t, c) ← tag? s.inFlow c
    s.content t c
  else if ch = '|' ∧ ¬ s.inFlow then s.blockScalar true
  else if ch = '>' ∧ ¬ s.inFlow then s.blockScalar false
  else if ch = '\'' ∨ ch = '"' then s.quotedScalar ch
  else if startsPlain s.inFlow ch rest then s.plainScalar
  else none

def finish (s : Scanner) : Option Scanner := (s.closeBlocks (-1)).dropKey

def readAll : (fuel : Nat) → Scanner → Option Scanner
  | 0, _ => none
  | fuel + 1, s => do
    let s ← (toNextToken (s.cursor.rest.length + 1) s).dropStaleKeys
    let s := s.closeBlocks s.cursor.column
    match s.cursor.rest with
    | [] => s.finish
    | ch :: rest => readAll fuel (← s.tokenAt ch rest)

end Scanner

def Token.ofText? (text : List Char) : Option (List Token) :=
  if text.all isAllowed then
    (Scanner.readAll (text.length + 1) { cursor := { rest := text } }).map (·.tokens.reverse)
  else none

end CrossRef.Yaml
