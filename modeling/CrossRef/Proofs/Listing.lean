import CrossRef.Proofs.Audit
import CrossRef.Proofs.Section

namespace CrossRef

open Text

-- A list is cut where `p` first fails.
theorem append_inj_of_forall {α : Type} {p : α → Prop} {xs ys r s : List α} (hx : ∀ a ∈ xs, p a)
    (hy : ∀ a ∈ ys, p a) (hr : ∀ a ∈ r.head?, ¬p a) (hs : ∀ a ∈ s.head?, ¬p a)
    (h : xs ++ r = ys ++ s) : xs = ys ∧ r = s := by
  induction xs generalizing ys <;> cases ys
  case nil.nil => exact ⟨rfl, h⟩
  case nil.cons y ys =>
    have hm : y ∈ r.head? := by simp [show r = y :: ys ++ s from h]
    exact absurd (hy y List.mem_cons_self) (hr y hm)
  case cons.nil x xs _ =>
    have hm : x ∈ s.head? := by simp [show s = x :: xs ++ r from h.symm]
    exact absurd (hx x List.mem_cons_self) (hs x hm)
  case cons.cons x xs ih y ys =>
    have ⟨hxy, h⟩ := List.cons.inj h
    have ⟨he, h⟩ := ih (List.forall_mem_cons.mp hx).2 (List.forall_mem_cons.mp hy).2 h
    exact ⟨by rw [hxy, he], h⟩

-- What `f` writes tells where it ends, whatever comes after it.
def Delimited {α β : Type} (p : α → Prop) (f : α → List β) : Prop :=
  ∀ {a b : α} {rest rest' : List β}, p a → p b → f a ++ rest = f b ++ rest' → a = b ∧ rest = rest'

-- So does a list of such parts, up to something that no part starts with.
theorem Delimited.flatMap_append_inj {α β : Type} {p : α → Prop} {f : α → List β} (hf : Delimited p f)
    {rest rest' : List β} (hr : ∀ a more, f a ++ more ≠ rest) (hr' : ∀ a more, f a ++ more ≠ rest')
    {as bs : List α} (ha : ∀ a ∈ as, p a) (hb : ∀ b ∈ bs, p b)
    (h : as.flatMap f ++ rest = bs.flatMap f ++ rest') : as = bs := by
  induction as generalizing bs <;> cases bs
  case nil.nil => rfl
  case nil.cons b bs =>
    rw [List.flatMap_cons, List.append_assoc] at h
    exact absurd h.symm (hr b _)
  case cons.nil a as _ =>
    rw [List.flatMap_cons, List.append_assoc] at h
    exact absurd h (hr' a _)
  case cons.cons a as ih b bs =>
    rw [List.flatMap_cons, List.append_assoc, List.flatMap_cons, List.append_assoc] at h
    have ⟨ha, has⟩ := List.forall_mem_cons.mp ha
    have ⟨hb, hbs⟩ := List.forall_mem_cons.mp hb
    have ⟨hab, h⟩ := hf ha hb h
    rw [hab, ih has hbs h]

-- A text is cut at its last separator.
theorem append_cons_inj_of_not_mem {sep : Char} {x y s t : List Char} (hs : sep ∉ s) (ht : sep ∉ t)
    (h : x ++ sep :: s = y ++ sep :: t) : x = y ∧ s = t := by
  have hlast := congrArg (afterLast? sep) h
  rw [afterLast?_append_cons x hs, afterLast?_append_cons y ht, Option.some.injEq] at hlast
  subst hlast
  exact ⟨List.append_cancel_right h, rfl⟩

theorem Location.site_injective : Function.Injective site := by
  intro a b h
  have hdigits (n : Nat) : ':' ∉ (Nat.repr n).toList :=
    fun hm => absurd (isDigit_of_mem_repr n _ hm) (by decide)
  have hchars : a.file.toList ++ ':' :: (Nat.repr a.line).toList =
      b.file.toList ++ ':' :: (Nat.repr b.line).toList := by
    simpa [site] using congrArg String.toList h
  have ⟨hfile, hline⟩ := append_cons_inj_of_not_mem (hdigits a.line) (hdigits b.line) hchars
  rw [String.toList_inj] at hfile hline
  have hline : a.line = b.line := by simpa only [leadingNumber_repr] using congrArg leadingNumber hline
  cases a
  cases b
  simp_all

-- The line for one place of a defect.
def siteLine (name : String) (l : Location) : String := "  " ++ l.site ++ (" - " ++ name)

theorem toList_siteLine (name : String) (l : Location) :
    (siteLine name l).toList = ([' ', ' '] ++ l.site.toList ++ [' ', '-']) ++ ' ' :: name.toList := by
  simp [siteLine]

-- A file may contain anything that the line has after it, but a name has no blank.
theorem siteLine_inj {name name' : String} {l l' : Location} (hn : ' ' ∉ name.toList)
    (hn' : ' ' ∉ name'.toList) (h : siteLine name l = siteLine name' l') : name = name' ∧ l = l' := by
  have hchars := congrArg String.toList h
  rw [toList_siteLine, toList_siteLine] at hchars
  have ⟨hsite, hname⟩ := append_cons_inj_of_not_mem hn hn' hchars
  rw [List.append_cancel_right_eq, List.append_cancel_left_eq, String.toList_inj] at hsite
  exact ⟨String.toList_inj.mp hname, Location.site_injective hsite⟩

def Defect.siteLines (d : Defect) : List String := d.locations.map (siteLine d.name)

theorem map_lineText_defectLines (d : Defect) :
    (Report.defectLines d).map lineText = d.siteLines := by
  simp [Report.defectLines, Defect.siteLines, lineText, siteLine, Function.comp_def, String.append_assoc]

-- What holds of the defects in a section.
structure IsListing (kind : Kind) (ds : List Defect) : Prop where
  kinds   : ∀ d ∈ ds, d.kind = kind
  located : ∀ d ∈ ds, d.locations ≠ []
  names   : ∀ d ∈ ds, ∀ c ∈ d.name.toList, isBlank c = false
  nodup   : (ds.map (·.name)).Nodup

namespace IsListing

variable {kind : Kind} {d d' : Defect} {ds ds' : List Defect}

theorem not_mem_name (h : IsListing kind ds) (hd : d ∈ ds) {c : Char} (hc : isBlank c = true) :
    c ∉ d.name.toList := by
  intro hm
  simp [h.names d hd c hm] at hc

theorem tail (h : IsListing kind (d :: ds)) : IsListing kind ds where
  kinds d' hd := h.kinds d' (List.mem_cons_of_mem _ hd)
  located d' hd := h.located d' (List.mem_cons_of_mem _ hd)
  names d' hd := h.names d' (List.mem_cons_of_mem _ hd)
  nodup := (List.nodup_cons.mp h.nodup).2

theorem name_ne (h : IsListing kind (d :: ds)) (hd : d' ∈ ds) : d'.name ≠ d.name := by
  intro he
  exact (List.nodup_cons.mp h.nodup).1 (List.mem_map.mpr ⟨d', hd, he⟩)

-- A line of sites that comes first in a listing shows the name of its first defect.
theorem head?_siteLines (h : IsListing kind (d :: ds)) (rest : List String) :
    ∃ l, (d.siteLines ++ rest).head? = some (siteLine d.name l) := by
  have ⟨l, ls, hl⟩ := List.exists_cons_of_ne_nil (h.located d List.mem_cons_self)
  exact ⟨l, by simp [Defect.siteLines, hl]⟩

-- What follows the lines of a defect is not a line of the same name.
theorem head?_ne_siteLine (h : IsListing kind (d :: ds)) {rest : List String}
    (hr : ∀ t ∈ rest.head?, ∀ name l, t ≠ siteLine name l) :
    ∀ t ∈ (ds.flatMap Defect.siteLines ++ rest).head?, ¬∃ l, t = siteLine d.name l := by
  rintro t ht ⟨l, rfl⟩
  cases ds
  case nil => exact hr _ ht _ _ rfl
  case cons d' ds =>
    rw [List.flatMap_cons, List.append_assoc] at ht
    have ⟨l', hl⟩ := h.tail.head?_siteLines (ds.flatMap Defect.siteLines ++ rest)
    have he : siteLine d'.name l' = siteLine d.name l := Option.some.inj (hl.symm.trans ht)
    have hblank (x : Defect) (hx : x ∈ d :: d' :: ds) : ' ' ∉ x.name.toList :=
      h.not_mem_name hx (by decide)
    exact h.name_ne List.mem_cons_self (siteLine_inj (hblank d' (by simp)) (hblank d (by simp)) he).1

-- The lines of a defect end where another name comes.
theorem siteLines_append_inj (h : IsListing kind (d :: ds)) (h' : IsListing kind (d' :: ds'))
    {rest rest' : List String} (hr : ∀ t ∈ rest.head?, ∀ name l, t ≠ siteLine name l)
    (hr' : ∀ t ∈ rest'.head?, ∀ name l, t ≠ siteLine name l)
    (he : d.siteLines ++ (ds.flatMap Defect.siteLines ++ rest) =
      d'.siteLines ++ (ds'.flatMap Defect.siteLines ++ rest')) :
    d = d' ∧ ds.flatMap Defect.siteLines ++ rest = ds'.flatMap Defect.siteLines ++ rest' := by
  have hblank := h.not_mem_name List.mem_cons_self (c := ' ') (by decide)
  have hblank' := h'.not_mem_name List.mem_cons_self (c := ' ') (by decide)
  have hname : d.name = d'.name := by
    have ⟨l, hl⟩ := h.head?_siteLines (ds.flatMap Defect.siteLines ++ rest)
    have ⟨l', hl'⟩ := h'.head?_siteLines (ds'.flatMap Defect.siteLines ++ rest')
    rw [he, hl', Option.some.injEq] at hl
    exact (siteLine_inj hblank' hblank hl).1.symm
  have ⟨hsites, he⟩ := append_inj_of_forall (p := fun t => ∃ l, t = siteLine d.name l)
    (by simp [Defect.siteLines]) (by simp [Defect.siteLines, hname]) (h.head?_ne_siteLine hr)
    (hname ▸ h'.head?_ne_siteLine hr') he
  have hlocations : d.locations = d'.locations := by
    rw [Defect.siteLines, Defect.siteLines, ← hname] at hsites
    exact List.map_injective_iff.mpr (fun _ _ hl => (siteLine_inj hblank hblank hl).2) hsites
  have hkind : d.kind = d'.kind :=
    (h.kinds d List.mem_cons_self).trans (h'.kinds d' List.mem_cons_self).symm
  refine ⟨?_, he⟩
  cases d
  cases d'
  simp_all

-- Whether a defect ends depends on those after it, so a listing is taken apart as a whole.
theorem flatMap_siteLines_inj (h : IsListing kind ds) (h' : IsListing kind ds') {rest rest' : List String}
    (hr : ∀ t ∈ rest.head?, ∀ name l, t ≠ siteLine name l)
    (hr' : ∀ t ∈ rest'.head?, ∀ name l, t ≠ siteLine name l)
    (he : ds.flatMap Defect.siteLines ++ rest = ds'.flatMap Defect.siteLines ++ rest') :
    ds = ds' ∧ rest = rest' := by
  induction ds generalizing ds' <;> cases ds'
  case nil.nil => exact ⟨rfl, he⟩
  case nil.cons d' ds' =>
    rw [List.flatMap_cons, List.append_assoc] at he
    have ⟨l, hl⟩ := h'.head?_siteLines (ds'.flatMap Defect.siteLines ++ rest')
    exact absurd rfl (hr _ (he ▸ hl) _ _)
  case cons.nil d ds _ =>
    rw [List.flatMap_cons, List.append_assoc] at he
    have ⟨l, hl⟩ := h.head?_siteLines (ds.flatMap Defect.siteLines ++ rest)
    exact absurd rfl (hr' _ (he ▸ hl) _ _)
  case cons.cons d ds ih d' ds' =>
    rw [List.flatMap_cons, List.append_assoc, List.flatMap_cons, List.append_assoc] at he
    have ⟨hd, he⟩ := h.siteLines_append_inj h' hr hr' he
    have ⟨hds, hrest⟩ := ih h.tail h'.tail he
    exact ⟨by rw [hd, hds], hrest⟩

end IsListing

-- A run lists names that patterns found, each with its places.
theorem IsGapList.isListing {os : List Occurrence} {kind : Kind} {present : Action}
    {absent : List Action} {skip : String → Bool} {ds : List Defect}
    (h : IsGapList os kind present absent skip ds)
    (hn : ∀ o ∈ os, ∀ c ∈ o.name.toList, isBlank c = false) : IsListing kind ds where
  kinds := h.kinds
  located _ := h.locations_ne_nil
  names d hd := by
    have ⟨o, ho, _, hname, _⟩ := ((h.mem_iff d.name).mp (List.mem_map_of_mem hd)).1
    exact hname ▸ hn o ho
  nodup := h.nodup

end CrossRef
