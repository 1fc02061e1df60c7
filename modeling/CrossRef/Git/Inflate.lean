import CrossRef.Text.Utf8

namespace CrossRef.Git

-- Reads some bytes bit by bit. The state is the number of bits that are read.
abbrev Reading := ReaderT ByteArray (StateT Nat Option)

namespace Reading

def ofOption {α : Type} (value? : Option α) : Reading α := fun _ position => value?.map (·, position)

def bit : Reading Nat := do
  let position ← getModify (· + 1)
  let byte ← ofOption (← read)[position / 8]?
  return (byte.toNat.testBit (position % 8)).toNat

-- The lowest bit comes first.
def number : Nat → Reading Nat
  | 0 => return 0
  | count + 1 => return (← bit) + 2 * (← number count)

def align : Reading Unit := modify fun position => (position + 7) / 8 * 8

def bytes (count : Nat) : Reading ByteArray := do
  let start := (← getModify (· + 8 * count)) / 8
  let data ← read
  if start + count ≤ data.size then return data.extract start (start + count) else failure

end Reading

-- Words of one length have consecutive numbers, which go on where those of the shorter words end.
structure PrefixCode where
  -- How many words there are of each length, from one bit on.
  counts : List Nat
  symbols : Array Nat

namespace PrefixCode

def ofLengths (lengths : List Nat) : PrefixCode where
  counts := (List.range' 1 15).map lengths.count
  symbols := ((List.range' 1 15).flatMap fun n => lengths.zipIdx.filterMap fun (length, symbol) =>
    if length = n then some symbol else none).toArray

def symbolAfter (symbols : Array Nat) (word first passed : Nat) : List Nat → Reading Nat
  | [] => failure
  | count :: longer => do
    let word := 2 * word + (← Reading.bit)
    if word < first + count then Reading.ofOption symbols[passed + word - first]?
    else symbolAfter symbols word (2 * (first + count)) (passed + count) longer

def symbol (code : PrefixCode) : Reading Nat := symbolAfter code.symbols 0 0 0 code.counts

end PrefixCode

namespace Inflate

-- The least length or distance of each symbol, and how many bits are added to it.
def lengths : Array (Nat × Nat) :=
  #[(3, 0), (4, 0), (5, 0), (6, 0), (7, 0), (8, 0), (9, 0), (10, 0), (11, 1), (13, 1), (15, 1), (17, 1),
    (19, 2), (23, 2), (27, 2), (31, 2), (35, 3), (43, 3), (51, 3), (59, 3), (67, 4), (83, 4), (99, 4),
    (115, 4), (131, 5), (163, 5), (195, 5), (227, 5), (258, 0)]

def distances : Array (Nat × Nat) :=
  #[(1, 0), (2, 0), (3, 0), (4, 0), (5, 1), (7, 1), (9, 2), (13, 2), (17, 3), (25, 3), (33, 4), (49, 4),
    (65, 5), (97, 5), (129, 6), (193, 6), (257, 7), (385, 7), (513, 8), (769, 8), (1025, 9), (1537, 9),
    (2049, 10), (3073, 10), (4097, 11), (6145, 11), (8193, 12), (12289, 12), (16385, 13), (24577, 13)]

def extended (table : Array (Nat × Nat)) (symbol : Nat) : Reading Nat := do
  let (least, extra) ← Reading.ofOption table[symbol]?
  return least + (← Reading.number extra)

-- The bytes at the distance from the end, which may be bytes that were copied just before.
def copied (out : ByteArray) (distance : Nat) : Nat → Option ByteArray
  | 0 => out
  | count + 1 => do
    if out.size < distance then none
    copied (out.push (← out[out.size - distance]?)) distance count

-- Every symbol takes a bit at least.
def symbols (literals far : PrefixCode) : Nat → ByteArray → Reading ByteArray
  | 0, _ => failure
  | bits + 1, out => do
    let symbol ← literals.symbol
    if symbol < 256 then symbols literals far bits (out.push symbol.toUInt8)
    else if symbol = 256 then return out
    else
      let length ← extended lengths (symbol - 257)
      let distance ← extended distances (← far.symbol)
      symbols literals far bits (← Reading.ofOption (copied out distance length))

def fixedLiterals : PrefixCode :=
  .ofLengths (List.replicate 144 8 ++ List.replicate 112 9 ++ List.replicate 24 7 ++ List.replicate 8 8)

def fixedDistances : PrefixCode := .ofLengths (List.replicate 30 5)

-- The order in which the lengths of the words for lengths are given.
def lengthOrder : List Nat := [16, 17, 18, 0, 8, 7, 9, 6, 10, 5, 11, 4, 12, 3, 13, 2, 14, 1, 15]

-- Symbols past the lengths repeat the last length or zero.
def more (known : List Nat) : Nat → Reading (List Nat)
  | 16 => return List.replicate (3 + (← Reading.number 2)) (← Reading.ofOption known.head?)
  | 17 => return List.replicate (3 + (← Reading.number 3)) 0
  | 18 => return List.replicate (11 + (← Reading.number 7)) 0
  | length => return [length]

-- Lengths are kept with the last one in front.
def wordLengths (code : PrefixCode) (wanted : Nat) : Nat → List Nat → Reading (List Nat)
  | 0, _ => failure
  | rounds + 1, known =>
    if wanted ≤ known.length then return known.reverse.take wanted
    else do
      wordLengths code wanted rounds ((← more known (← code.symbol)) ++ known)

def codes : Reading (PrefixCode × PrefixCode) := do
  let literals := 257 + (← Reading.number 5)
  let far := 1 + (← Reading.number 5)
  let given ← (List.range (4 + (← Reading.number 4))).mapM fun _ => Reading.number 3
  let inOrder := (List.range 19).map fun length => ((lengthOrder.zip given).lookup length).getD 0
  let all ← wordLengths (.ofLengths inOrder) (literals + far) (literals + far + 1) []
  return (.ofLengths (all.take literals), .ofLengths (all.drop literals))

def block (out : ByteArray) : Reading ByteArray := do
  let bits := 8 * (← read).size
  match ← Reading.number 2 with
  | 0 =>
    Reading.align
    let size ← Reading.number 16
    if size + (← Reading.number 16) ≠ 0xffff then failure
    return out ++ (← Reading.bytes size)
  | 1 => symbols fixedLiterals fixedDistances bits out
  | 2 =>
    let (literals, far) ← codes
    symbols literals far bits out
  | _ => failure

def blocks : Nat → ByteArray → Reading ByteArray
  | 0, _ => failure
  | bits + 1, out => do
    let last ← Reading.bit
    let out ← block out
    if last = 1 then return out else blocks bits out

end Inflate

-- Two bytes say how the rest is compressed. The sum at the end is not checked.
def inflate? (data : ByteArray) (start : Nat) : Option ByteArray := do
  let method ← data[start]?
  let flags ← data[start + 1]?
  if method % 16 ≠ 8 ∨ flags / 32 % 2 = 1 then none
  let (out, _) ← (Inflate.blocks (8 * data.size) .empty).run data |>.run (8 * (start + 2))
  return out

end CrossRef.Git
