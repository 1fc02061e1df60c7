import CrossRef.Git.Pack

namespace CrossRef.Git

-- The flags say how long a path is, if it is shorter than that.
def longPath : Nat := 0xfff

-- The bytes up to the first zero byte.
def untilZero (data : ByteArray) (start : Nat) : List UInt8 :=
  if h : start < data.size then
    if data[start] = 0 then [] else data[start] :: untilZero data (start + 1)
  else []
termination_by data.size - start

-- An entry has 62 bytes in front of its path, and two more if the flags say so. From the fourth version on
-- a path says how much it keeps of the one before it.
def entryAt? (data : ByteArray) (version start : Nat) (before : List UInt8) :
    Option (IndexEntry × Nat) := do
  let bits ← natAt? data (start + 24) 4
  let flags ← natAt? data (start + 60) 2
  let pathStart := if flags / 0x4000 % 2 = 1 then start + 64 else start + 62
  let name := (data.extract (start + 40) (start + 60)).toList
  let entry (path : List UInt8) : IndexEntry :=
    { path := { bytes := path }, mode := entryMode bits, id := objectId bits name }
  if version < 4 then
    let length := flags % 0x1000
    let path :=
      if length < longPath then (data.extract pathStart (pathStart + length)).toList
      else untilZero data pathStart
    return (entry path, start + ((pathStart - start + path.length) / 8 + 1) * 8)
  else
    let (dropped, newStart) ← highFirst? data pathStart 0
    let new := untilZero data newStart
    return (entry (before.take (before.length - dropped) ++ new), newStart + new.length + 1)

def entriesFrom? (data : ByteArray) (version : Nat) : Nat → Nat → List UInt8 → Option (List IndexEntry)
  | 0, _, _ => some []
  | count + 1, start, before => do
    let (entry, next) ← entryAt? data version start before
    return entry :: (← entriesFrom? data version count next entry.path.bytes)

def indexEntries? (data : ByteArray) : Option (List IndexEntry) := do
  let version ← natAt? data 4 4
  if (data.extract 0 4).toList ≠ Text.Utf8.encode "DIRC" ∨ version < 2 ∨ 4 < version then none
  entriesFrom? data version (← natAt? data 8 4) 12 []

end CrossRef.Git
