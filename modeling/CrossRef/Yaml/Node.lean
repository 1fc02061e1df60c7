import CrossRef.Yaml.Token

namespace CrossRef.Yaml

inductive Node
  | scalar (anchor : Option Nat) (text : String) (plain : Bool)
  | sequence (anchor : Option Nat) (items : List Node)
  | mapping (anchor : Option Nat) (pairs : List (Node × Node))
  | aliasOf (id : Nat)

namespace Node

def blank : Node := scalar none "" true

mutual

def anchored : Node → List (Nat × Node)
  | scalar anchor text plain => (anchor.map fun id => (id, scalar anchor text plain)).toList
  | sequence anchor items =>
    (anchor.map fun id => (id, sequence anchor items)).toList ++ anchoredItems items
  | mapping anchor pairs => (anchor.map fun id => (id, mapping anchor pairs)).toList ++ anchoredPairs pairs
  | aliasOf _ => []

def anchoredItems : List Node → List (Nat × Node)
  | [] => []
  | item :: rest => item.anchored ++ anchoredItems rest

def anchoredPairs : List (Node × Node) → List (Nat × Node)
  | [] => []
  | (key, value) :: rest => key.anchored ++ value.anchored ++ anchoredPairs rest

end

mutual

-- One for each scalar and alias, two for each collection.
def size : Node → Nat
  | scalar _ _ _ => 1
  | sequence _ items => 2 + sizeOfItems items
  | mapping _ pairs => 2 + sizeOfPairs pairs
  | aliasOf _ => 1

def sizeOfItems : List Node → Nat
  | [] => 0
  | item :: rest => item.size + sizeOfItems rest

def sizeOfPairs : List (Node × Node) → Nat
  | [] => 0
  | (key, value) :: rest => key.size + value.size + sizeOfPairs rest

end

end Node

structure Reader where
  tokens : List Token
  names : List (String × Nat) := []
  handles : List String := ["!", "!!"]

namespace Reader

def peek? (r : Reader) : Option Token := r.tokens.head?

def next (r : Reader) : Reader := { r with tokens := r.tokens.drop 1 }

def isAt (r : Reader) (ts : List Token) : Bool := r.peek?.any ts.contains

-- The number of an anchor is the number of names so far, so a name that is given again shares its number
-- with the next new one. The later node then has it.
def declare (r : Reader) (name : String) : Nat × Reader :=
  (r.names.length, { r with names := (name, r.names.length) :: r.names.filter (·.1 != name) })

def anchor? (r : Reader) : Option String × Reader :=
  match r.tokens with
  | .anchor name :: rest => (some name, { r with tokens := rest })
  | _ => (none, r)

def tag? (r : Reader) : Option (Bool × Reader) :=
  match r.tokens with
  | .tag handle :: rest =>
    if handle = "" ∨ handle ∈ r.handles then some (true, { r with tokens := rest }) else none
  | _ => some (false, r)

def properties? (r : Reader) : Option (Option Nat × Bool × Reader) := do
  let (name, r) := r.anchor?
  let (tagged, r) ← r.tag?
  let (name, r) := match name with
    | some name => (some name, r)
    | none => r.anchor?
  match name with
  | some name =>
    let (id, r) := r.declare name
    some (some id, true, r)
  | none => some (none, tagged, r)

mutual

-- Only in a block can a node be a block collection, and only a value or key of a block mapping can be a
-- sequence that is not indented.
def node? : (fuel : Nat) → (block indentless : Bool) → Reader → Option (Node × Reader)
  | 0, _, _, _ => none
  | fuel + 1, block, indentless, r =>
    match r.tokens with
    | .aliasOf name :: rest => (r.names.lookup name).map fun id => (.aliasOf id, { r with tokens := rest })
    | _ => do
      let (anchor, decorated, r) ← r.properties?
      match r.peek? with
      | some (.scalar text plain) => some (.scalar anchor text plain, r.next)
      | some .flowSequenceStart => do
        let (items, r) ← flowItems? fuel true r.next
        some (.sequence anchor items, r)
      | some .flowMappingStart => do
        let (pairs, r) ← flowPairs? fuel true r.next
        some (.mapping anchor pairs, r)
      | t =>
        if indentless && t == some .blockEntry then do
          let (items, r) ← indentlessItems? fuel r
          some (.sequence anchor items, r)
        else if block && t == some .blockSequenceStart then do
          let (items, r) ← blockItems? fuel r.next
          some (.sequence anchor items, r)
        else if block && t == some .blockMappingStart then do
          let (pairs, r) ← blockPairs? fuel r.next
          some (.mapping anchor pairs, r)
        else if decorated then some (.scalar anchor "" true, r)
        else none

def nodeUnless? :
    (fuel : Nat) → (block indentless : Bool) → List Token → Reader → Option (Node × Reader)
  | 0, _, _, _, _ => none
  | fuel + 1, block, indentless, stops, r =>
    if r.isAt stops then some (.blank, r) else node? fuel block indentless r

def blockItems? : (fuel : Nat) → Reader → Option (List Node × Reader)
  | 0, _ => none
  | fuel + 1, r =>
    if r.isAt [.blockEntry] then do
      let (item, r) ← nodeUnless? fuel true false [.blockEntry, .blockEnd] r.next
      let (items, r) ← blockItems? fuel r
      some (item :: items, r)
    else if r.isAt [.blockEnd] then some ([], r.next)
    else none

def indentlessItems? : (fuel : Nat) → Reader → Option (List Node × Reader)
  | 0, _ => none
  | fuel + 1, r =>
    if r.isAt [.blockEntry] then do
      let (item, r) ← nodeUnless? fuel true false [.blockEntry, .key, .value, .blockEnd] r.next
      let (items, r) ← indentlessItems? fuel r
      some (item :: items, r)
    else some ([], r)

def blockPairs? : (fuel : Nat) → Reader → Option (List (Node × Node) × Reader)
  | 0, _ => none
  | fuel + 1, r =>
    if r.isAt [.key] then do
      let (key, r) ← nodeUnless? fuel true true [.key, .value, .blockEnd] r.next
      let (value, r) ←
        if r.isAt [.value] then nodeUnless? fuel true true [.key, .value, .blockEnd] r.next
        else some (.blank, r)
      let (pairs, r) ← blockPairs? fuel r
      some ((key, value) :: pairs, r)
    else if r.isAt [.blockEnd] then some ([], r.next)
    else none

-- Before all but the first item there is a comma. An item can be a single pair.
def flowItems? : (fuel : Nat) → (first : Bool) → Reader → Option (List Node × Reader)
  | 0, _, _ => none
  | fuel + 1, first, r =>
    if r.isAt [.flowSequenceEnd] then some ([], r.next)
    else if !first && !r.isAt [.flowEntry] then none
    else do
      let r := if first then r else r.next
      if r.isAt [.flowSequenceEnd] then some ([], r.next)
      else
        let (item, r) ← if r.isAt [.key] then flowPair? fuel r.next else node? fuel false false r
        let (items, r) ← flowItems? fuel false r
        some (item :: items, r)

def flowPair? : (fuel : Nat) → Reader → Option (Node × Reader)
  | 0, _ => none
  | fuel + 1, r => do
    let (key, r) ←
      if r.isAt [.value, .flowEntry, .flowSequenceEnd] then some (.blank, r.next)
      else node? fuel false false r
    let (value, r) ←
      if r.isAt [.value] then nodeUnless? fuel false false [.flowEntry, .flowSequenceEnd] r.next
      else some (.blank, r)
    some (.mapping none [(key, value)], r)

def flowPairs? : (fuel : Nat) → (first : Bool) → Reader → Option (List (Node × Node) × Reader)
  | 0, _, _ => none
  | fuel + 1, first, r =>
    if r.isAt [.flowMappingEnd] then some ([], r.next)
    else if !first && !r.isAt [.flowEntry] then none
    else do
      let r := if first then r else r.next
      if r.isAt [.flowMappingEnd] then some ([], r.next)
      else
        let (pair, r) ←
          if r.isAt [.key] then do
            let (key, r) ← nodeUnless? fuel false false [.value, .flowEntry, .flowMappingEnd] r.next
            let (value, r) ←
              if r.isAt [.value] then nodeUnless? fuel false false [.flowEntry, .flowMappingEnd] r.next
              else some (.blank, r)
            some ((key, value), r)
          else do
            let (key, r) ← node? fuel false false r
            some ((key, .blank), r)
        let (pairs, r) ← flowPairs? fuel false r
        some (pair :: pairs, r)

end

def directives? :
    List Token → (version : Bool) → (handles : List String) → Option (List String × List Token)
  | .version major minor :: rest, version, handles =>
    if !version && major == 1 && (minor == 1 || minor == 2) then directives? rest true handles else none
  | .handle name :: rest, version, handles =>
    if handles.contains name then none else directives? rest version (name :: handles)
  | tokens, _, handles => some (handles, tokens)

def isDocumentEdge : List Token → Bool
  | [] => true
  | t :: _ =>
    match t with
    | .version _ _ => true
    | .handle _ => true
    | .documentStart => true
    | .documentEnd => true
    | _ => false

end Reader

structure Document where
  root : Node
  anchors : List (Nat × Node)

-- Of several nodes with one anchor number the last one has it.
def Document.ofRoot (root : Node) : Document := { root, anchors := root.anchored.reverse }

def Document.ofTokens? (tokens : List Token) : Option (Option Document) :=
  if tokens.isEmpty then some none
  else do
    let fuel := 4 * tokens.length + 4
    let (handles, rest) ← Reader.directives? tokens false []
    let (root, r) ←
      if rest.length = tokens.length ∧ rest.head? ≠ some .documentStart then
        Reader.node? fuel true false { tokens }
      else if rest.head? = some .documentStart then
        let r : Reader := { tokens := rest.drop 1, handles := handles ++ ["!", "!!"] }
        if Reader.isDocumentEdge r.tokens then some (.blank, r) else Reader.node? fuel true false r
      else none
    if (r.tokens.dropWhile (· == .documentEnd)).isEmpty then some (some (.ofRoot root)) else none

def Document.ofText? (text : List Char) : Option (Option Document) := do
  Document.ofTokens? (← Token.ofText? text)

end CrossRef.Yaml
