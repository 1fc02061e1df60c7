namespace CrossRef.Text.Utf8

structure Lead where
  extra : Nat
  low : UInt8
  high : UInt8

def lead? (b : UInt8) : Option Lead :=
  if 0xC2 ≤ b ∧ b ≤ 0xDF then some ⟨1, 0x80, 0xBF⟩
  else if b = 0xE0 then some ⟨2, 0xA0, 0xBF⟩
  else if b = 0xED then some ⟨2, 0x80, 0x9F⟩
  else if 0xE1 ≤ b ∧ b ≤ 0xEF then some ⟨2, 0x80, 0xBF⟩
  else if b = 0xF0 then some ⟨3, 0x90, 0xBF⟩
  else if 0xF1 ≤ b ∧ b ≤ 0xF3 then some ⟨3, 0x80, 0xBF⟩
  else if b = 0xF4 then some ⟨3, 0x80, 0x8F⟩
  else none

-- `none` stands for the longest start of a character, at least one byte, that cannot be read. `extra` is
-- the number of bytes after the first.
structure Step where
  char? : Option Char
  extra : Nat

def continued : (n value taken : Nat) → List UInt8 → Step
  | 0, value, taken, _ => ⟨some (Char.ofNat value), taken⟩
  | _ + 1, _, taken, [] => ⟨none, taken⟩
  | n + 1, value, taken, b :: rest =>
    if 0x80 ≤ b ∧ b ≤ 0xBF then continued n (value * 64 + b.toNat % 64) (taken + 1) rest
    else ⟨none, taken⟩

def step (b : UInt8) (rest : List UInt8) : Step :=
  if b < 0x80 then ⟨some (Char.ofNat b.toNat), 0⟩
  else
    match lead? b, rest with
    | some lead, second :: rest =>
      if lead.low ≤ second ∧ second ≤ lead.high then
        continued (lead.extra - 1) (b.toNat % (64 >>> lead.extra) * 64 + second.toNat % 64) 1 rest
      else ⟨none, 0⟩
    | _, _ => ⟨none, 0⟩

def readFrom : (skip : Nat) → List UInt8 → List (Option Char)
  | _, [] => []
  | skip + 1, _ :: rest => readFrom skip rest
  | 0, b :: rest => (step b rest).char? :: readFrom (step b rest).extra rest

def read (bytes : List UInt8) : List (Option Char) := readFrom 0 bytes

def decode? (bytes : List UInt8) : Option (List Char) := (read bytes).mapM id

def decodeLossy (bytes : List UInt8) : List Char := (read bytes).map (·.getD '\uFFFD')

def encode (s : String) : List UInt8 := s.toUTF8.toList

end CrossRef.Text.Utf8
