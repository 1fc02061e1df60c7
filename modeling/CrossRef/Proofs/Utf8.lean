import CrossRef.Text.Utf8
import Mathlib.Data.List.Basic

namespace CrossRef.Text.Utf8

theorem toList_loop (bytes : ByteArray) (i : Nat) (r : List UInt8) :
    ByteArray.toList.loop bytes i r = r.reverse ++ bytes.data.toList.drop i := by
  fun_induction ByteArray.toList.loop bytes i r
  case case1 i r hi ih =>
    have hi : i < bytes.data.toList.length := by simpa using hi
    rw [ih, List.drop_eq_getElem_cons hi]
    have : bytes.get! i = bytes.data.toList[i] := by
      simp [ByteArray.get!, getElem!_pos bytes.data i (by simpa using hi)]
    simp [this]
  case case2 i r hi =>
    have : bytes.data.toList.length ≤ i := by simpa using hi
    simp [List.drop_eq_nil_of_le this]

theorem encode_eq_flatMap (s : String) : encode s = s.toList.flatMap String.utf8EncodeChar := by
  rw [encode, String.toUTF8_eq_toByteArray, ByteArray.toList, toList_loop, ← String.utf8Encode_toList]
  simp [List.utf8Encode]

-- What a lead byte asks for, by the number of bytes that follow it.
theorem lead?_eq_some {b : UInt8} {lead : Lead} (h : lead? b = some lead) :
    (lead.extra = 1 ∧ 0xC2 ≤ b.toNat ∧ b.toNat ≤ 0xDF ∧ lead.low.toNat = 0x80 ∧
      lead.high.toNat = 0xBF) ∨
    (lead.extra = 2 ∧ 0xE0 ≤ b.toNat ∧ b.toNat ≤ 0xEF ∧
      lead.low.toNat = (if b.toNat = 0xE0 then 0xA0 else 0x80) ∧
      lead.high.toNat = (if b.toNat = 0xED then 0x9F else 0xBF)) ∨
    (lead.extra = 3 ∧ 0xF0 ≤ b.toNat ∧ b.toNat ≤ 0xF4 ∧
      lead.low.toNat = (if b.toNat = 0xF0 then 0x90 else 0x80) ∧
      lead.high.toNat = (if b.toNat = 0xF4 then 0x8F else 0xBF)) := by
  simp only [lead?, UInt8.le_iff_toNat_le, ← UInt8.toNat_inj, UInt8.reduceToNat] at h
  split_ifs at h <;> cases h <;> simp <;> omega

theorem exists_lead {b : UInt8} (hl : 0xC2 ≤ b.toNat) (hh : b.toNat ≤ 0xF4) :
    ∃ lead, lead? b = some lead := by
  simp only [lead?, UInt8.le_iff_toNat_le, ← UInt8.toNat_inj, UInt8.reduceToNat]
  split_ifs <;> first | exact ⟨_, rfl⟩ | omega

theorem step_ascii {b : UInt8} (rest : List UInt8) (h : b.toNat < 0x80) :
    step b rest = ⟨some (Char.ofNat b.toNat), 0⟩ := by
  simp [step, UInt8.lt_iff_toNat_lt, h]

theorem step_of_lead {b second : UInt8} {lead : Lead} (rest : List UInt8) (hb : 0x80 ≤ b.toNat)
    (hl : lead? b = some lead) :
    step b (second :: rest) =
      if lead.low.toNat ≤ second.toNat ∧ second.toNat ≤ lead.high.toNat then
        continued (lead.extra - 1) (b.toNat % (64 >>> lead.extra) * 64 + second.toNat % 64) 1 rest
      else ⟨none, 0⟩ := by
  have hb : ¬b < 0x80 := by simpa [UInt8.lt_iff_toNat_lt] using hb
  simp [step, hb, hl, UInt8.le_iff_toNat_le]

theorem continued_cons (n value taken : Nat) (b : UInt8) (rest : List UInt8) :
    continued (n + 1) value taken (b :: rest) =
      if 0x80 ≤ b.toNat ∧ b.toNat ≤ 0xBF then
        continued n (value * 64 + b.toNat % 64) (taken + 1) rest
      else ⟨none, taken⟩ := by
  simp [continued, UInt8.le_iff_toNat_le]

theorem step_two {b s : UInt8} {v : Nat} (rest : List UInt8) (hb : 0xC2 ≤ b.toNat ∧ b.toNat ≤ 0xDF)
    (hs : 0x80 ≤ s.toNat ∧ s.toNat ≤ 0xBF) (hv : v = (b.toNat - 0xC0) * 64 + (s.toNat - 0x80)) :
    step b (s :: rest) = ⟨some (Char.ofNat v), 1⟩ := by
  have ⟨lead, hl⟩ := exists_lead hb.1 (by omega)
  obtain ⟨he, _, _, hlow, hhigh⟩ | ⟨_, _⟩ | ⟨_, _⟩ := lead?_eq_some hl <;> try omega
  have hv : b.toNat % (64 >>> 1) * 64 + s.toNat % 64 = v := by
    simp only [Nat.reduceShiftRight]
    omega
  rw [step_of_lead rest (by omega) hl, hlow, hhigh, he, if_pos hs, hv, continued]

theorem step_three {b s t : UInt8} {v : Nat} (rest : List UInt8)
    (hb : 0xE0 ≤ b.toNat ∧ b.toNat ≤ 0xEF) (hs : 0x80 ≤ s.toNat ∧ s.toNat ≤ 0xBF)
    (ht : 0x80 ≤ t.toNat ∧ t.toNat ≤ 0xBF) (hlong : b.toNat = 0xE0 → 0xA0 ≤ s.toNat)
    (hsurrogate : b.toNat = 0xED → s.toNat ≤ 0x9F)
    (hv : v = (b.toNat - 0xE0) * 4096 + (s.toNat - 0x80) * 64 + (t.toNat - 0x80)) :
    step b (s :: t :: rest) = ⟨some (Char.ofNat v), 2⟩ := by
  have ⟨lead, hl⟩ := exists_lead (b := b) (by omega) (by omega)
  obtain ⟨_, _⟩ | ⟨he, _, _, hlow, hhigh⟩ | ⟨_, _⟩ := lead?_eq_some hl <;> try omega
  have hr : lead.low.toNat ≤ s.toNat ∧ s.toNat ≤ lead.high.toNat := by
    rw [hlow, hhigh]
    constructor <;> split <;> omega
  have hv : (b.toNat % (64 >>> 2) * 64 + s.toNat % 64) * 64 + t.toNat % 64 = v := by
    simp only [Nat.reduceShiftRight]
    omega
  rw [step_of_lead _ (by omega) hl, he, if_pos hr, continued_cons, if_pos ht, hv, continued]

theorem step_four {b s t u : UInt8} {v : Nat} (rest : List UInt8)
    (hb : 0xF0 ≤ b.toNat ∧ b.toNat ≤ 0xF4) (hs : 0x80 ≤ s.toNat ∧ s.toNat ≤ 0xBF)
    (ht : 0x80 ≤ t.toNat ∧ t.toNat ≤ 0xBF) (hu : 0x80 ≤ u.toNat ∧ u.toNat ≤ 0xBF)
    (hlong : b.toNat = 0xF0 → 0x90 ≤ s.toNat) (hlarge : b.toNat = 0xF4 → s.toNat ≤ 0x8F)
    (hv : v = (b.toNat - 0xF0) * 262144 + (s.toNat - 0x80) * 4096 + (t.toNat - 0x80) * 64 +
      (u.toNat - 0x80)) :
    step b (s :: t :: u :: rest) = ⟨some (Char.ofNat v), 3⟩ := by
  have ⟨lead, hl⟩ := exists_lead (b := b) (by omega) (by omega)
  obtain ⟨_, _⟩ | ⟨_, _⟩ | ⟨he, _, _, hlow, hhigh⟩ := lead?_eq_some hl <;> try omega
  have hr : lead.low.toNat ≤ s.toNat ∧ s.toNat ≤ lead.high.toNat := by
    rw [hlow, hhigh]
    constructor <;> split <;> omega
  have hv : ((b.toNat % (64 >>> 3) * 64 + s.toNat % 64) * 64 + t.toNat % 64) * 64 + u.toNat % 64 = v := by
    simp only [Nat.reduceShiftRight]
    omega
  rw [step_of_lead _ (by omega) hl, he, if_pos hr, continued_cons, if_pos ht, continued_cons,
    if_pos hu, hv, continued]

theorem toNat_valid (c : Char) : c.toNat < 0xD800 ∨ (0xDFFF < c.toNat ∧ c.toNat < 0x110000) :=
  c.valid

theorem toNat_ofNat {n : Nat} (h : n < 256) : (UInt8.ofNat n).toNat = n := by
  simp
  omega

-- A character is read from its bytes, whatever follows them.
theorem step_utf8EncodeChar (c : Char) (rest : List UInt8) :
    ∃ b more, String.utf8EncodeChar c = b :: more ∧ step b (more ++ rest) = ⟨some c, more.length⟩ := by
  have hv := toNat_valid c
  have hc : c = Char.ofNat c.toNat := (Char.ofNat_toNat c).symm
  simp only [String.utf8EncodeChar, show c.val.toNat = c.toNat from rfl]
  generalize c.toNat = v at hv hc
  rw [hc]
  split_ifs with h₁ h₂ h₃
  · refine ⟨_, _, rfl, ?_⟩
    rw [step_ascii _ (by rw [toNat_ofNat] <;> omega), toNat_ofNat (by omega)]
    rfl
  · have hb := toNat_ofNat (show v / 64 % 32 + 192 < 256 by omega)
    have hs := toNat_ofNat (show v % 64 + 128 < 256 by omega)
    exact ⟨_, _, rfl, step_two rest (by omega) (by omega) (by omega)⟩
  · have hb := toNat_ofNat (show v / 4096 % 16 + 224 < 256 by omega)
    have hs := toNat_ofNat (show v / 64 % 64 + 128 < 256 by omega)
    have ht := toNat_ofNat (show v % 64 + 128 < 256 by omega)
    exact ⟨_, _, rfl,
      step_three rest (by omega) (by omega) (by omega) (by omega) (by omega) (by omega)⟩
  · have hb := toNat_ofNat (show v / 262144 % 8 + 240 < 256 by omega)
    have hs := toNat_ofNat (show v / 4096 % 64 + 128 < 256 by omega)
    have ht := toNat_ofNat (show v / 64 % 64 + 128 < 256 by omega)
    have hu := toNat_ofNat (show v % 64 + 128 < 256 by omega)
    exact ⟨_, _, rfl,
      step_four rest (by omega) (by omega) (by omega) (by omega) (by omega) (by omega) (by omega)⟩

theorem readFrom_append (skipped rest : List UInt8) :
    readFrom skipped.length (skipped ++ rest) = readFrom 0 rest := by
  induction skipped
  case nil => rfl
  case cons b more ih => simpa [readFrom] using ih

theorem read_utf8EncodeChar_append (c : Char) (rest : List UInt8) :
    read (String.utf8EncodeChar c ++ rest) = some c :: read rest := by
  have ⟨b, more, he, hs⟩ := step_utf8EncodeChar c rest
  simp [read, he, readFrom, hs, readFrom_append]

theorem read_encode (s : String) : read (encode s) = s.toList.map some := by
  rw [encode_eq_flatMap]
  induction s.toList
  case nil => rfl
  case cons c cs ih => rw [List.flatMap_cons, read_utf8EncodeChar_append, ih, List.map_cons]

theorem decodeLossy_encode (s : String) : decodeLossy (encode s) = s.toList := by
  simp [decodeLossy, read_encode, Function.comp_def]

-- The bytes of some text.
def IsText (bytes : List UInt8) : Prop := ∃ text, bytes = encode text

theorem IsText.encode_decodeLossy {bytes : List UInt8} (h : IsText bytes) :
    encode (String.ofList (decodeLossy bytes)) = bytes := by
  obtain ⟨text, rfl⟩ := h
  rw [decodeLossy_encode, String.ofList_toList]

theorem utf8EncodeChar_ofNat {v : Nat} (hv : v < 0xD800 ∨ (0xDFFF < v ∧ v < 0x110000)) :
    String.utf8EncodeChar (Char.ofNat v) =
      if v ≤ 0x7F then [UInt8.ofNat v]
      else if v ≤ 0x7FF then [UInt8.ofNat (v / 64 % 32 + 192), UInt8.ofNat (v % 64 + 128)]
      else if v ≤ 0xFFFF then
        [UInt8.ofNat (v / 4096 % 16 + 224), UInt8.ofNat (v / 64 % 64 + 128), UInt8.ofNat (v % 64 + 128)]
      else
        [UInt8.ofNat (v / 262144 % 8 + 240), UInt8.ofNat (v / 4096 % 64 + 128),
          UInt8.ofNat (v / 64 % 64 + 128), UInt8.ofNat (v % 64 + 128)] := by
  have he : (Char.ofNat v).val.toNat = v := by
    rw [Char.ofNat, dif_pos hv]
    rfl
  rw [String.utf8EncodeChar, he]

theorem eq_ofNat {b : UInt8} {n : Nat} (h : b.toNat = n) : UInt8.ofNat n = b := by
  rw [← h, UInt8.ofNat_toNat]

theorem utf8EncodeChar_two {b s : UInt8} (hb : 0xC2 ≤ b.toNat ∧ b.toNat ≤ 0xDF)
    (hs : 0x80 ≤ s.toNat ∧ s.toNat ≤ 0xBF) :
    String.utf8EncodeChar (Char.ofNat (b.toNat % 32 * 64 + s.toNat % 64)) = [b, s] := by
  rw [utf8EncodeChar_ofNat (by omega), if_neg (by omega), if_pos (by omega),
    eq_ofNat (b := b) (by omega), eq_ofNat (b := s) (by omega)]

theorem utf8EncodeChar_three {b s t : UInt8} (hb : 0xE0 ≤ b.toNat ∧ b.toNat ≤ 0xEF)
    (hs : (if b.toNat = 0xE0 then 0xA0 else 0x80) ≤ s.toNat ∧
      s.toNat ≤ if b.toNat = 0xED then 0x9F else 0xBF)
    (ht : 0x80 ≤ t.toNat ∧ t.toNat ≤ 0xBF) :
    String.utf8EncodeChar (Char.ofNat ((b.toNat % 16 * 64 + s.toNat % 64) * 64 + t.toNat % 64)) =
      [b, s, t] := by
  have hs' : 0x80 ≤ s.toNat ∧ s.toNat ≤ 0xBF ∧ (b.toNat = 0xE0 → 0xA0 ≤ s.toNat) ∧
      (b.toNat = 0xED → s.toNat ≤ 0x9F) := by
    have ⟨hl, hh⟩ := hs
    split_ifs at hl hh <;> omega
  clear hs
  rw [utf8EncodeChar_ofNat (by omega), if_neg (by omega), if_neg (by omega), if_pos (by omega),
    eq_ofNat (b := b) (by omega), eq_ofNat (b := s) (by omega), eq_ofNat (b := t) (by omega)]

theorem utf8EncodeChar_four {b s t u : UInt8} (hb : 0xF0 ≤ b.toNat ∧ b.toNat ≤ 0xF4)
    (hs : (if b.toNat = 0xF0 then 0x90 else 0x80) ≤ s.toNat ∧
      s.toNat ≤ if b.toNat = 0xF4 then 0x8F else 0xBF)
    (ht : 0x80 ≤ t.toNat ∧ t.toNat ≤ 0xBF) (hu : 0x80 ≤ u.toNat ∧ u.toNat ≤ 0xBF) :
    String.utf8EncodeChar (Char.ofNat
      (((b.toNat % 8 * 64 + s.toNat % 64) * 64 + t.toNat % 64) * 64 + u.toNat % 64)) =
      [b, s, t, u] := by
  have hs' : 0x80 ≤ s.toNat ∧ s.toNat ≤ 0xBF ∧ (b.toNat = 0xF0 → 0x90 ≤ s.toNat) ∧
      (b.toNat = 0xF4 → s.toNat ≤ 0x8F) := by
    have ⟨hl, hh⟩ := hs
    split_ifs at hl hh <;> omega
  clear hs
  rw [utf8EncodeChar_ofNat (by omega), if_neg (by omega), if_neg (by omega), if_neg (by omega),
    eq_ofNat (b := b) (by omega), eq_ofNat (b := s) (by omega), eq_ofNat (b := t) (by omega),
    eq_ofNat (b := u) (by omega)]

theorem continued_eq_some {n value taken : Nat} {rest : List UInt8} {c : Char}
    (h : (continued (n + 1) value taken rest).char? = some c) :
    ∃ b more, rest = b :: more ∧ (0x80 ≤ b.toNat ∧ b.toNat ≤ 0xBF) ∧
      continued (n + 1) value taken rest = continued n (value * 64 + b.toNat % 64) (taken + 1) more := by
  cases rest
  case nil => simp [continued] at h
  case cons b more =>
    by_cases hb : 0x80 ≤ b.toNat ∧ b.toNat ≤ 0xBF
    case pos => exact ⟨b, more, rfl, hb, by rw [continued_cons, if_pos hb]⟩
    case neg => simp [continued_cons, hb] at h

theorem step_eq_some {b : UInt8} {rest : List UInt8} {c : Char} (hb : 0x80 ≤ b.toNat)
    (h : (step b rest).char? = some c) :
    ∃ lead s more, lead? b = some lead ∧ rest = s :: more ∧
      (lead.low.toNat ≤ s.toNat ∧ s.toNat ≤ lead.high.toNat) ∧
      step b rest =
        continued (lead.extra - 1) (b.toNat % (64 >>> lead.extra) * 64 + s.toNat % 64) 1 more := by
  have hlt : ¬b < 0x80 := by simpa [UInt8.lt_iff_toNat_lt] using hb
  cases hl : lead? b
  case none => simp [step, hlt, hl] at h
  case some lead =>
    cases rest
    case nil => simp [step, hlt, hl] at h
    case cons s more =>
      rw [step_of_lead more hb hl] at h ⊢
      by_cases hs : lead.low.toNat ≤ s.toNat ∧ s.toNat ≤ lead.high.toNat
      case pos => exact ⟨lead, s, more, rfl, rfl, hs, if_pos hs⟩
      case neg => simp [hs] at h

theorem utf8EncodeChar_of_step {b : UInt8} {rest : List UInt8} {c : Char}
    (h : (step b rest).char? = some c) :
    String.utf8EncodeChar c = b :: rest.take (step b rest).extra := by
  by_cases hb : b.toNat < 0x80
  case pos =>
    rw [step_ascii rest hb] at h ⊢
    obtain rfl := Option.some.inj h
    rw [utf8EncodeChar_ofNat (by omega), if_pos (by omega), UInt8.ofNat_toNat]
    rfl
  case neg =>
    obtain ⟨lead, s, more, hl, rfl, hs, he⟩ := step_eq_some (by omega) h
    rw [he] at h ⊢
    obtain ⟨hn, hb, hb', hlow, hhigh⟩ | ⟨hn, hb, hb', hlow, hhigh⟩ | ⟨hn, hb, hb', hlow, hhigh⟩ :=
      lead?_eq_some hl <;> rw [hlow, hhigh] at hs <;> rw [hn] at h ⊢
    · obtain rfl := Option.some.inj h
      exact utf8EncodeChar_two ⟨hb, hb'⟩ hs
    · obtain ⟨t, more, rfl, ht, he⟩ := continued_eq_some h
      rw [he] at h ⊢
      obtain rfl := Option.some.inj h
      exact utf8EncodeChar_three ⟨hb, hb'⟩ hs ht
    · obtain ⟨t, more, rfl, ht, he⟩ := continued_eq_some h
      rw [he] at h ⊢
      obtain ⟨u, more, rfl, hu, he⟩ := continued_eq_some h
      rw [he] at h ⊢
      obtain rfl := Option.some.inj h
      exact utf8EncodeChar_four ⟨hb, hb'⟩ hs ht hu

theorem flatMap_of_readFrom {skip : Nat} {bytes : List UInt8} {text : List Char}
    (h : readFrom skip bytes = text.map some) :
    bytes.drop skip = text.flatMap String.utf8EncodeChar := by
  fun_induction readFrom skip bytes generalizing text
  case case1 => simp_all
  case case2 ih => simpa using ih h
  case case3 b rest ih =>
    cases text
    case nil => simp at h
    case cons c cs =>
      have ⟨hc, hcs⟩ := List.cons.inj h
      rw [List.flatMap_cons, ← ih hcs, utf8EncodeChar_of_step hc]
      simp

theorem decode?_eq_some_iff_read {bytes : List UInt8} {text : List Char} :
    decode? bytes = some text ↔ read bytes = text.map some := by
  rw [decode?]
  generalize read bytes = l
  induction l generalizing text
  case nil => cases text <;> simp
  case cons c? l ih =>
    cases c? <;> cases text
    case some.cons c d text => simp [Option.bind_eq_some_iff, ih, and_comm]
    all_goals simp [Option.bind_eq_some_iff]

-- Bytes are read as a text exactly if they are the bytes of this text.
theorem decode?_eq_some_iff {bytes : List UInt8} {text : List Char} :
    decode? bytes = some text ↔ bytes = encode (String.ofList text) := by
  rw [decode?_eq_some_iff_read]
  constructor
  · intro h
    simpa [encode_eq_flatMap] using flatMap_of_readFrom h
  · rintro rfl
    simpa using read_encode (String.ofList text)

section Ascii

variable {x : UInt8} (hx : x.toNat < 0x80)

include hx

theorem continued_append (n value taken : Nat) (bytes tail : List UInt8) :
    continued n value taken (bytes ++ x :: tail) = continued n value taken bytes := by
  induction n generalizing value taken bytes
  case zero => simp [continued]
  case succ n ih =>
    cases bytes
    case nil =>
      rw [List.nil_append, continued_cons, if_neg (by omega)]
      rfl
    case cons b bytes => simp only [List.cons_append, continued_cons, ih]

theorem step_append (b : UInt8) (bytes tail : List UInt8) :
    step b (bytes ++ x :: tail) = step b bytes := by
  by_cases hb : b.toNat < 0x80
  case pos => rw [step_ascii _ hb, step_ascii _ hb]
  case neg =>
    have hlt : ¬b < 0x80 := by simpa [UInt8.lt_iff_toNat_lt] using hb
    cases hl : lead? b
    case none => simp [step, hlt, hl]
    case some lead =>
      cases bytes
      case nil =>
        have : lead.low.toNat ≥ 0x80 := by
          obtain h | h | h := lead?_eq_some hl <;> grind
        rw [List.nil_append, step_of_lead _ (by omega) hl, if_neg (by omega)]
        simp [step, hlt, hl]
      case cons s bytes =>
        rw [List.cons_append, step_of_lead _ (by omega) hl, step_of_lead _ (by omega) hl,
          continued_append hx]

end Ascii

theorem continued_extra_le (n value taken : Nat) (bytes : List UInt8) :
    (continued n value taken bytes).extra ≤ taken + bytes.length := by
  induction n generalizing value taken bytes
  case zero => simp [continued]
  case succ n ih =>
    cases bytes
    case nil => simp [continued]
    case cons b bytes =>
      rw [continued_cons]
      split
      · exact Nat.le_trans (ih _ _ bytes) (by simp; omega)
      · simp

theorem step_extra_le (b : UInt8) (bytes : List UInt8) : (step b bytes).extra ≤ bytes.length := by
  unfold step
  split
  · simp
  · split
    · split
      · exact Nat.le_trans (continued_extra_le ..) (by simp; omega)
      · simp
    · simp

-- No character goes over an ASCII character: the bytes before it and those after it are read apart.
theorem read_append_ascii {x : UInt8} (hx : x.toNat < 0x80) (bytes tail : List UInt8) :
    read (bytes ++ x :: tail) = read bytes ++ some (Char.ofNat x.toNat) :: read tail := by
  suffices h : ∀ skip ≤ bytes.length, readFrom skip (bytes ++ x :: tail) =
      readFrom skip bytes ++ readFrom 0 (x :: tail) by
    rw [read, h 0 (Nat.zero_le _), readFrom.eq_3, step_ascii _ hx]
    rfl
  intro skip hs
  fun_induction readFrom skip bytes
  case case1 skip => simp_all
  case case2 skip b rest ih => simpa [readFrom] using ih (by simpa using hs)
  case case3 b rest ih => simp [readFrom, step_append hx, ih (step_extra_le b rest)]

theorem decodeLossy_append_ascii {x : UInt8} (hx : x.toNat < 0x80) (bytes tail : List UInt8) :
    decodeLossy (bytes ++ x :: tail) =
      decodeLossy bytes ++ Char.ofNat x.toNat :: decodeLossy tail := by
  simp [decodeLossy, read_append_ascii hx]

theorem mem_of_mem_readFrom {c : Char} (hc : c.toNat < 0x80) {skip : Nat} {bytes : List UInt8}
    (h : some c ∈ readFrom skip bytes) : UInt8.ofNat c.toNat ∈ bytes := by
  fun_induction readFrom skip bytes
  case case1 => simp at h
  case case2 ih => exact List.mem_cons_of_mem _ (ih h)
  case case3 b rest ih =>
    obtain hs | hr := List.mem_cons.mp h
    · have he := utf8EncodeChar_of_step hs.symm
      have hv := utf8EncodeChar_ofNat (.inl (by omega : c.toNat < 0xD800))
      rw [Char.ofNat_toNat, if_pos (by omega), he] at hv
      exact List.mem_cons.mpr (.inl (List.cons.inj hv).1.symm)
    · exact List.mem_cons_of_mem _ (ih hr)

-- An ASCII character is never read from other bytes than its own.
theorem mem_of_mem_decodeLossy {c : Char} (hc : c.toNat < 0x80) {bytes : List UInt8}
    (h : c ∈ decodeLossy bytes) : UInt8.ofNat c.toNat ∈ bytes := by
  have ⟨c?, hm, hg⟩ := List.mem_map.mp h
  cases c?
  case none =>
    subst hg
    exact absurd hc (by decide)
  case some d =>
    obtain rfl : d = c := hg
    exact mem_of_mem_readFrom hc hm

end CrossRef.Text.Utf8
