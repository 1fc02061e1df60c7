namespace CrossRef.Text

def hexDigit? (c : Char) : Option Nat :=
  if '0' ≤ c ∧ c ≤ '9' then some (c.toNat - 48)
  else if 'a' ≤ c ∧ c ≤ 'f' then some (c.toNat - 87)
  else if 'A' ≤ c ∧ c ≤ 'F' then some (c.toNat - 55)
  else none

def hexValue? (n : Nat) (s : List Char) : Option Nat :=
  let digits := s.take n
  if digits.length = n then
    digits.foldlM (fun value c => (hexDigit? c).map (value * 16 + ·)) 0
  else none

end CrossRef.Text
