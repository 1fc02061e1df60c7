namespace CrossRef

-- A map whose keys stand in the order in which they came.
structure IndexMap (κ ν : Type) where
  items : List (κ × ν) := []
  nodup : (items.map (·.1)).Nodup := by exact List.nodup_nil
  deriving DecidableEq, Repr

namespace IndexMap

variable {κ ν : Type}

def size (m : IndexMap κ ν) : Nat := m.items.length

def isEmpty (m : IndexMap κ ν) : Bool := m.items.isEmpty

variable [DecidableEq κ]

def get? (m : IndexMap κ ν) (key : κ) : Option ν := m.items.lookup key

def modifyIn (key : κ) (initial : ν) (f : ν → ν) : List (κ × ν) → List (κ × ν)
  | [] => [(key, f initial)]
  | (other, value) :: rest =>
    if other = key then (other, f value) :: rest else (other, value) :: modifyIn key initial f rest

theorem keys_modifyIn (key : κ) (initial : ν) (f : ν → ν) (items : List (κ × ν)) :
    (modifyIn key initial f items).map (·.1) =
      if key ∈ items.map (·.1) then items.map (·.1) else items.map (·.1) ++ [key] := by
  induction items
  case nil => rfl
  case cons item rest ih =>
    by_cases h : item.1 = key
    case pos => simp [modifyIn, h]
    case neg =>
      simp only [modifyIn, if_neg h, List.map_cons, ih, List.mem_cons, Ne.symm h, false_or]
      split <;> rfl

-- A key that is not there yet comes last, with `initial` as what `f` is applied to.
def modify (m : IndexMap κ ν) (key : κ) (initial : ν) (f : ν → ν) : IndexMap κ ν where
  items := modifyIn key initial f m.items
  nodup := by
    rw [keys_modifyIn]
    split
    case isTrue => exact m.nodup
    case isFalse h =>
      refine List.nodup_append.mpr ⟨m.nodup, by simp, fun a ha b hb he => h ?_⟩
      rwa [he, List.mem_singleton.mp hb] at ha

theorem lookup_cons_eq_ite (key : κ) (item : κ × ν) (rest : List (κ × ν)) :
    (item :: rest).lookup key = if item.1 = key then some item.2 else rest.lookup key := by
  obtain ⟨other, value⟩ := item
  rw [List.lookup_cons]
  by_cases h : other = key
  case pos => simp [h]
  case neg =>
    have hb : (key == other) = false := beq_false_of_ne (Ne.symm h)
    simp [h, hb]

theorem lookup_modifyIn (key other : κ) (initial : ν) (f : ν → ν) (items : List (κ × ν)) :
    (modifyIn key initial f items).lookup other =
      if key = other then some (f ((items.lookup key).getD initial)) else items.lookup other := by
  induction items
  case nil => simp [modifyIn, lookup_cons_eq_ite]
  case cons item rest ih =>
    by_cases hi : item.1 = key
    case pos => by_cases h : key = other <;> simp [modifyIn, lookup_cons_eq_ite, hi, h]
    case neg =>
      simp only [modifyIn, if_neg hi, lookup_cons_eq_ite, ih]
      by_cases h : item.1 = other
      case pos =>
        have hk : key ≠ other := fun hk => hi (h.trans hk.symm)
        simp [h, hk]
      case neg => simp [h]

theorem get?_modify (m : IndexMap κ ν) (key other : κ) (initial : ν) (f : ν → ν) :
    (m.modify key initial f).get? other =
      if key = other then some (f ((m.get? key).getD initial)) else m.get? other :=
  lookup_modifyIn key other initial f m.items

theorem mem_iff_lookup_eq_some {items : List (κ × ν)} (hn : (items.map (·.1)).Nodup) {key : κ} {value : ν} :
    (key, value) ∈ items ↔ items.lookup key = some value := by
  induction items
  case nil => simp
  case cons item rest ih =>
    obtain ⟨hfirst, hrest⟩ := List.nodup_cons.mp hn
    rw [List.mem_cons, lookup_cons_eq_ite]
    split
    case isTrue h =>
      have hkey : (key, value) ∉ rest := fun hm => hfirst (List.mem_map.mpr ⟨_, hm, h.symm⟩)
      simp [hkey, Prod.ext_iff, h, eq_comm]
    case isFalse h =>
      have hne : (key, value) ≠ item := fun he => h (he ▸ rfl)
      simp [hne, ih hrest]

theorem mem_items_iff {m : IndexMap κ ν} {key : κ} {value : ν} :
    (key, value) ∈ m.items ↔ m.get? key = some value :=
  mem_iff_lookup_eq_some m.nodup

end IndexMap

end CrossRef
