import CrossRef.Git.Object

namespace CrossRef.Git

-- Seven bits to a byte, the lowest ones first, and a mark on all bytes but the last. Next to the number
-- stands where it ends.
def lowFirst? (data : ByteArray) (position : Nat) : Option (Nat × Nat) :=
  if h : position < data.size then do
    let byte := data[position].toNat
    if byte < 0x80 then return (byte, position + 1)
    let (high, stop) ← lowFirst? data (position + 1)
    return (byte - 0x80 + 0x80 * high, stop)
  else none
termination_by data.size - position

-- The same with the highest bits first, where every byte but the last adds one to what is read.
def highFirst? (data : ByteArray) (position before : Nat) : Option (Nat × Nat) :=
  if h : position < data.size then
    let byte := data[position].toNat
    if byte < 0x80 then some (0x80 * before + byte, position + 1)
    else highFirst? data (position + 1) (0x80 * before + (byte - 0x80) + 1)
  else none
termination_by data.size - position

-- The lowest byte comes first. Bytes without a mark are zero and left out.
def marked? (data : ByteArray) : List Bool → Nat → Option (Nat × Nat)
  | [], position => some (0, position)
  | false :: marks, position => do
    let (high, stop) ← marked? data marks position
    return (0x100 * high, stop)
  | true :: marks, position => do
    let (high, stop) ← marked? data marks (position + 1)
    return ((← data[position]?).toNat + 0x100 * high, stop)

theorem le_of_marked?_eq_some {data : ByteArray} {marks : List Bool} {position value stop : Nat}
    (h : marked? data marks position = some (value, stop)) : position ≤ stop := by
  induction marks generalizing position value
  case nil =>
    obtain ⟨_, rfl⟩ := Prod.mk.inj (Option.some.inj h)
    exact Nat.le_refl position
  case cons mark marks ih =>
    cases mark
    case false =>
      obtain ⟨⟨high, stop'⟩, hrest, h⟩ := Option.bind_eq_some_iff.mp h
      obtain ⟨_, rfl⟩ := Prod.mk.inj (Option.some.inj h)
      exact ih hrest
    case true =>
      obtain ⟨⟨high, stop'⟩, hrest, h⟩ := Option.bind_eq_some_iff.mp h
      obtain ⟨byte, _, h⟩ := Option.bind_eq_some_iff.mp h
      obtain ⟨_, rfl⟩ := Prod.mk.inj (Option.some.inj h)
      exact Nat.le_of_succ_le (ih hrest)

namespace Delta

-- An instruction copies a part of the base, or brings its own bytes.
def applied? (base delta : ByteArray) (position : Nat) (out : ByteArray) : Option ByteArray :=
  if h : position < delta.size then
    let byte := delta[position].toNat
    if byte < 0x80 then
      let stop := position + 1 + byte
      if byte = 0 ∨ delta.size < stop then none
      else applied? base delta stop (out ++ delta.extract (position + 1) stop)
    else
      match hstart : marked? delta ((List.range 4).map byte.testBit) (position + 1) with
      | none => none
      | some (start, middle) =>
        match hsize : marked? delta ((List.range' 4 3).map byte.testBit) middle with
        | none => none
        | some (given, stop) =>
          let size := if given = 0 then 0x10000 else given
          if base.size < start + size then none
          else applied? base delta stop (out ++ base.extract start (start + size))
  else some out
termination_by delta.size - position
decreasing_by
  · omega
  · have := le_of_marked?_eq_some hstart
    have := le_of_marked?_eq_some hsize
    omega

def patched? (base delta : ByteArray) : Option ByteArray := do
  let (baseSize, next) ← lowFirst? delta 0
  let (size, start) ← lowFirst? delta next
  let out ← applied? base delta start .empty
  if base.size = baseSize ∧ out.size = size then return out else none

end Delta

structure Pack where
  index : ByteArray
  data : ByteArray

namespace Pack

-- Where the names start, behind a table of how many names there are up to each first byte.
def namesStart : Nat := 8 + 4 * 0x100

def count? (pack : Pack) : Option Nat := natAt? pack.index (namesStart - 4) 4

-- The names are sorted.
def place? (pack : Pack) (name low high : Nat) : Option Nat :=
  if h : low < high then do
    let middle := (low + high) / 2
    let found ← natAt? pack.index (namesStart + 20 * middle) 20
    if found = name then return middle
    else if found < name then place? pack name (middle + 1) high
    else place? pack name low middle
  else none
termination_by high - low

-- An offset that is too large for its place stands in a table of its own.
def offset? (pack : Pack) (name : ObjectName) : Option Nat := do
  let count ← pack.count?
  let place ← pack.place? (name.foldl (fun value byte => 0x100 * value + byte.toNat) 0) 0 count
  let offset ← natAt? pack.index (namesStart + 24 * count + 4 * place) 4
  if offset < 0x80000000 then return offset
  else natAt? pack.index (namesStart + 28 * count + 8 * (offset - 0x80000000)) 8

def kind? : Nat → Option ObjectKind
  | 1 => some .commit
  | 2 => some .tree
  | 3 => some .blob
  | 4 => some .tag
  | _ => none

-- An object can be given by its difference from another one of the pack. The steps bound how often.
def objectAt? (pack : Pack) : Nat → Nat → Option Object
  | 0, _ => none
  | steps + 1, offset => do
    let first := (← pack.data[offset]?).toNat
    let (_, start) ← lowFirst? pack.data offset
    match first / 0x10 % 8 with
    | 6 =>
      let (back, start) ← highFirst? pack.data start 0
      if offset < back then none
      changed? start (← objectAt? pack steps (offset - back))
    | 7 =>
      let name := (pack.data.extract start (start + 20)).toList
      changed? (start + 20) (← objectAt? pack steps (← pack.offset? name))
    | n => return { kind := ← kind? n, content := ← inflate? pack.data start }
where
  changed? (start : Nat) (base : Object) : Option Object := do
    return { base with content := ← Delta.patched? base.content (← inflate? pack.data start) }

def object? (pack : Pack) (name : ObjectName) : Option Object := do
  pack.objectAt? pack.data.size (← pack.offset? name)

end Pack

end CrossRef.Git
