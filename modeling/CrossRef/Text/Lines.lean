namespace CrossRef.Text

-- A line ends at a line feed, together with one carriage return right before it. What follows the last line
-- feed is a line only if it is not empty.
def lines : List Char → List (List Char)
  | [] => []
  | '\n' :: rest => [] :: lines rest
  | '\r' :: '\n' :: rest => [] :: lines rest
  | c :: rest =>
    match lines rest with
    | [] => [[c]]
    | line :: more => (c :: line) :: more

def byteOrderMark : Char := '\uFEFF'

def dropByteOrderMark : List Char → List Char
  | c :: rest => if c = byteOrderMark then rest else c :: rest
  | [] => []

@[simp] theorem lines_nil : lines [] = [] := rfl

end CrossRef.Text
