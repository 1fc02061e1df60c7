namespace CrossRef.Text

def occursIn (fragment : List Char) : List Char → Bool
  | [] => fragment.isEmpty
  | c :: rest => fragment.isPrefixOf (c :: rest) || occursIn fragment rest

def contains (text fragment : String) : Bool := occursIn fragment.toList text.toList

def afterLiteral? : List Char → List Char → Option (List Char)
  | [], s => some s
  | _ :: _, [] => none
  | c :: lit, d :: s => if c = d then afterLiteral? lit s else none

def afterLast? (sep : Char) : List Char → Option (List Char)
  | [] => none
  | c :: rest =>
    match afterLast? sep rest with
    | some tail => some tail
    | none => if c = sep then some rest else none

section

variable {α : Type} [DecidableEq α] (sep : α)

def pieces : List α → List (List α)
  | [] => [[]]
  | c :: rest =>
    if c = sep then [] :: pieces rest
    else match pieces rest with
      | [] => [[c]]
      | piece :: more => (c :: piece) :: more

theorem pieces_ne_nil (s : List α) : pieces sep s ≠ [] := by
  cases s with
  | nil => simp [pieces]
  | cons c rest => grind [pieces]

theorem pieces_append (s t : List α) : pieces sep (s ++ sep :: t) = pieces sep s ++ pieces sep t := by
  induction s with
  | nil => simp [pieces]
  | cons c rest ih =>
    have := pieces_ne_nil sep rest
    grind [pieces]

theorem pieces_of_not_mem {sep : α} {s : List α} (h : sep ∉ s) : pieces sep s = [s] := by
  induction s with
  | nil => rfl
  | cons c rest ih => grind [pieces]

end

theorem occursIn_iff_isInfix (fragment text : List Char) :
    occursIn fragment text = true ↔ fragment <:+: text := by
  induction text with
  | nil => simp [occursIn]
  | cons c rest ih => simp [occursIn, ih, List.infix_cons_iff]

theorem afterLiteral?_eq_some_iff {lit s rest : List Char} :
    afterLiteral? lit s = some rest ↔ s = lit ++ rest := by
  induction lit generalizing s with
  | nil => simp [afterLiteral?, eq_comm]
  | cons c lit ih =>
    cases s with
    | nil => simp [afterLiteral?]
    | cons d s => by_cases h : c = d <;> grind [afterLiteral?]

theorem afterLast?_eq_none_iff {sep : Char} {s : List Char} : afterLast? sep s = none ↔ sep ∉ s := by
  induction s with
  | nil => simp [afterLast?]
  | cons c rest ih => grind [afterLast?]

theorem afterLast?_append_cons {sep : Char} (s : List Char) {t : List Char} (h : sep ∉ t) :
    afterLast? sep (s ++ sep :: t) = some t := by
  induction s with
  | nil => simp [afterLast?, afterLast?_eq_none_iff.mpr h]
  | cons c rest ih => simp [afterLast?, ih]

end CrossRef.Text
