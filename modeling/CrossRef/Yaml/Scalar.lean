import CrossRef.Text.Hex
import CrossRef.Yaml.Cursor

namespace CrossRef.Yaml

structure Gap where
  spaces : List Char := []
  first : List Char := []
  later : List Char := []
  broken : Bool := false

-- Spaces stay, one line break becomes a space, and of several the first is dropped.
def Gap.folded (gap : Gap) : List Char :=
  if gap.broken then
    if gap.first = ['\n'] then (if gap.later = [] then [' '] else gap.later)
    else gap.first ++ gap.later
  else gap.spaces

-- A tab before the column `margin` of a new line is refused.
def readGap (margin : Int) : (fuel : Nat) → Cursor → Gap → Option (Gap × Cursor)
  | 0, c, gap => some (gap, c)
  | fuel + 1, c, gap =>
    match c.takeBreak? with
    | some (br, next) =>
      readGap margin fuel next <|
        if gap.broken then { gap with later := gap.later ++ br }
        else { gap with spaces := [], first := br, broken := true }
    | none =>
      match c.peek? with
      | some ch =>
        if !isSpace ch then some (gap, c)
        else if gap.broken && ch == '\t' && decide ((c.column : Int) < margin) then none
        else
          readGap margin fuel (c.skip 1)
            (if gap.broken then gap else { gap with spaces := gap.spaces ++ [ch] })
      | none => some (gap, c)

def isFlowMark (c : Char) : Bool := c == ',' || c == '[' || c == ']' || c == '{' || c == '}'

-- In flow collections a colon before a mark is refused.
def plainWord (flow : Bool) : List Char → Option (List Char)
  | [] => some []
  | c :: rest =>
    if isGap c then some []
    else if flow && c == ':' && rest.head?.any (fun d => isFlowMark d || d == '?') then none
    else if c == ':' && startsGap rest then some []
    else if flow && isFlowMark c then some []
    else (plainWord flow rest).map (c :: ·)

structure Plain where
  text : List Char
  gap : Gap
  cursor : Cursor

-- The lines go on as long as they are indented to the column `margin`.
def readPlain (flow : Bool) (margin : Int) : (fuel : Nat) → Plain → Option Plain
  | 0, plain => some plain
  | fuel + 1, plain =>
    if plain.cursor.atDocumentEdge || plain.cursor.peek? == some '#' then some plain
    else do
      let word ← plainWord flow plain.cursor.rest
      let plain :=
        if word.isEmpty then plain
        else
          { text := plain.text ++ plain.gap.folded ++ word
            gap := {}
            cursor := plain.cursor.skip word.length }
      if plain.cursor.peek?.any isGap then
        let (gap, cursor) ← readGap margin plain.cursor.rest.length plain.cursor plain.gap
        let plain := { plain with gap, cursor }
        if !flow && decide ((cursor.column : Int) < margin) then some plain
        else readPlain flow margin fuel plain
      else some plain

def charOf? (n : Nat) : Option Char :=
  if (0xD800 ≤ n ∧ n ≤ 0xDFFF) ∨ 0x10FFFF < n then none else some (Char.ofNat n)

def simpleEscape? (c : Char) : Option Char :=
  if c = '0' then some '\x00'
  else if c = 'a' then some '\x07'
  else if c = 'b' then some '\x08'
  else if c = 't' ∨ c = '\t' then some '\t'
  else if c = 'n' then some '\n'
  else if c = 'v' then some '\x0b'
  else if c = 'f' then some '\x0c'
  else if c = 'r' then some '\r'
  else if c = 'e' then some '\x1b'
  else if c = ' ' ∨ c = '"' ∨ c = '/' ∨ c = '\\' then some c
  else if c = 'N' then some '\u0085'
  else if c = '_' then some '\u00a0'
  else if c = 'L' then some '\u2028'
  else if c = 'P' then some '\u2029'
  else none

def escapeDigits? (c : Char) : Option Nat :=
  if c = 'x' then some 2 else if c = 'u' then some 4 else if c = 'U' then some 8 else none

def escape? : List Char → Option (Char × Nat)
  | [] => none
  | c :: rest =>
    match simpleEscape? c with
    | some ch => some (ch, 1)
    | none => do
      let n ← escapeDigits? c
      let ch ← charOf? (← Text.hexValue? n rest)
      some (ch, 1 + n)

structure QuotedWord where
  text : List Char
  cursor : Cursor
  breakEscaped : Bool := false

def quotedWord (quote : Char) : (fuel : Nat) → QuotedWord → Option QuotedWord
  | 0, word => some word
  | fuel + 1, word =>
    match word.cursor.rest with
    | [] => some word
    | c :: rest =>
      if isGap c then some word
      else if c = quote then
        if quote = '\'' ∧ rest.head? = some '\'' then
          quotedWord quote fuel { word with text := word.text ++ ['\''], cursor := word.cursor.skip 2 }
        else some word
      else if quote = '"' ∧ c = '\\' then
        match (word.cursor.skip 1).takeBreak? with
        | some (_, next) => some { word with cursor := next, breakEscaped := true }
        | none => do
          let (ch, n) ← escape? rest
          quotedWord quote fuel { word with text := word.text ++ [ch], cursor := word.cursor.skip (1 + n) }
      else quotedWord quote fuel { word with text := word.text ++ [c], cursor := word.cursor.skip 1 }

def readQuoted (quote : Char) : (fuel : Nat) → List Char → Cursor → Option (List Char × Cursor)
  | 0, _, _ => none
  | fuel + 1, text, c =>
    if c.atDocumentEdge || c.rest.isEmpty then none
    else do
      let word ← quotedWord quote c.rest.length { text, cursor := c }
      if word.cursor.peek? == some quote then some (word.text, word.cursor.skip 1)
      else
        let (gap, next) ← readGap 0 word.cursor.rest.length word.cursor { broken := word.breakEscaped }
        readQuoted quote fuel (word.text ++ gap.folded) next

inductive Chomping
  | clip
  | strip
  | keep
  deriving DecidableEq

def chomping? (c : Option Char) : Option Chomping :=
  if c = some '+' then some .keep else if c = some '-' then some .strip else none

def indentation? (c : Option Char) : Option (Option Nat) :=
  match c with
  | some d =>
    if d = '0' then none
    else if '1' ≤ d ∧ d ≤ '9' then some (some (d.toNat - 48))
    else some none
  | none => some none

def blockHeader? (c : Cursor) : Option (Chomping × Option Nat × Cursor) :=
  match chomping? c.peek? with
  | some chomping => do
    let c := c.skip 1
    let indentation ← indentation? c.peek?
    some (chomping, indentation, if indentation.isSome then c.skip 1 else c)
  | none => do
    match ← indentation? c.peek? with
    | some n =>
      let c := c.skip 1
      match chomping? c.peek? with
      | some chomping => some (chomping, some n, c.skip 1)
      | none => some (.clip, some n, c)
    | none => some (.clip, none, c)

-- Without an indentation every space counts as one of it.
def blockBreaks (indent : Option Nat) :
    (fuel : Nat) → (deepest : Nat) → List Char → Cursor → Option (List Char × Nat × Cursor)
  | 0, deepest, breaks, c => some (breaks, deepest, c)
  | fuel + 1, deepest, breaks, c =>
    let room := match indent with
      | some n => n - c.column
      | none => c.rest.length
    let c := c.skip ((c.rest.take room).takeWhile (· == ' ')).length
    let deepest := max deepest c.column
    if (indent.all (c.column < ·)) && c.peek? == some '\t' then none
    else
      match c.takeBreak? with
      | some (br, next) => blockBreaks indent fuel deepest (breaks ++ br) next
      | none => some (breaks, deepest, c)

structure Block where
  text : List Char := []
  first : List Char := []
  later : List Char
  spaced : Bool := false
  cursor : Cursor

def blockLines (literal : Bool) (indent : Nat) : (fuel : Nat) → Block → Option Block
  | 0, block => some block
  | fuel + 1, block =>
    if block.cursor.column ≠ indent ∨ block.cursor.rest.isEmpty then some block
    else do
      let spaced := block.cursor.peek?.any isSpace
      let joint :=
        if !literal && block.first == ['\n'] && !block.spaced && !spaced then
          (if block.later.isEmpty then [' '] else [])
        else block.first
      let (line, c) := block.cursor.takeWhile (!isBreak ·)
      let (first, c) := c.takeBreak?.getD ([], c)
      let (later, _, c) ← blockBreaks (some indent) c.rest.length 0 [] c
      blockLines literal indent fuel
        { text := block.text ++ joint ++ block.later ++ line, first, later, spaced, cursor := c }

def readBlock (literal : Bool) (parent : Int) (c : Cursor) : Option (List Char × Cursor) := do
  let (chomping, increment, c) ← blockHeader? c
  let c ← c.restOfLine?
  let given := increment.map fun n => n + parent.toNat
  let (later, deepest, c) ← blockBreaks given (c.rest.length + 1) 0 [] c
  let indent := given.getD (max deepest (max (parent + 1).toNat 1))
  let block ← blockLines literal indent (c.rest.length + 1) { later, cursor := c }
  let tail := match chomping with
    | .strip => []
    | .clip => block.first
    | .keep => block.first ++ block.later
  some (block.text ++ tail, block.cursor)

end CrossRef.Yaml
