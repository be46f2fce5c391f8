/-
# CwTariWallet.Utf16 -- texts as UTF-16 code units

A character is one code unit below U+10000 and a surrogate pair from there on.  A sequence of code units need
not be a text: a surrogate without its other half stands for no character, and reading puts U+FFFD in its
place.  So reading is left inverse to writing (`decode_encode`), and right inverse on the sequences without such
a surrogate (`encode_decode`).
-/
import Mathlib.Data.List.Basic

namespace CwTariWallet.Utf16

/-- The first half of a surrogate pair. -/
def isHigh (u : UInt16) : Bool := decide (0xD800 ≤ u.toNat ∧ u.toNat < 0xDC00)

/-- The second half. -/
def isLow (u : UInt16) : Bool := decide (0xDC00 ≤ u.toNat ∧ u.toNat < 0xE000)

def isSurrogate (u : UInt16) : Bool := isHigh u || isLow u

/-! ## Writing -/

def encodeChar (c : Char) : List UInt16 :=
  if c.toNat < 0x10000 then [UInt16.ofNat c.toNat]
  else [UInt16.ofNat (0xD800 + (c.toNat - 0x10000) / 0x400), UInt16.ofNat (0xDC00 + (c.toNat - 0x10000) % 0x400)]

def encode (text : List Char) : List UInt16 := text.flatMap encodeChar

@[simp] theorem encode_cons (c : Char) (text : List Char) :
    encode (c :: text) = encodeChar c ++ encode text := rfl

/-! ## Reading -/

/-- U+FFFD. -/
def replacement : Char := '\uFFFD'

/-- What a code unit on its own stands for. -/
def single (u : UInt16) : Char := if isSurrogate u then replacement else Char.ofNat u.toNat

/-- What two halves stand for. -/
def pair (u v : UInt16) : Char := Char.ofNat (0x10000 + (u.toNat - 0xD800) * 0x400 + (v.toNat - 0xDC00))

def decode : List UInt16 → List Char
  | [] => []
  | [u] => [single u]
  | u :: v :: rest => if isHigh u && isLow v then pair u v :: decode rest else single u :: decode (v :: rest)

/-- Whether every surrogate has its other half. -/
def wellFormed : List UInt16 → Bool
  | [] => true
  | [u] => !isSurrogate u
  | u :: v :: rest =>
    if isHigh u && isLow v then wellFormed rest else !isSurrogate u && wellFormed (v :: rest)

theorem decode_pair {u v : UInt16} (rest : List UInt16) (hu : isHigh u = true) (hv : isLow v = true) :
    decode (u :: v :: rest) = pair u v :: decode rest := by
  rw [decode, hu, hv]
  rfl

/-- A unit that opens no pair is read on its own. -/
theorem decode_single {u : UInt16} (rest : List UInt16) (hu : isHigh u = false) :
    decode (u :: rest) = single u :: decode rest := by
  cases rest with
  | nil => rfl
  | cons v rest =>
    rw [decode, hu, Bool.false_and]
    rfl

theorem wellFormed_pair {u v : UInt16} (rest : List UInt16) (hu : isHigh u = true) (hv : isLow v = true) :
    wellFormed (u :: v :: rest) = wellFormed rest := by
  rw [wellFormed, hu, hv]
  rfl

/-! ## A character and its units -/

theorem toNat_lt (c : Char) : c.toNat < 0x110000 := by
  have hvalid := c.valid
  have hval : c.val.toNat = c.toNat := rfl
  rcases hvalid with h | ⟨_, h⟩ <;> omega

/-- The characters below U+10000 are no surrogates. -/
theorem toNat_not_surrogate (c : Char) : c.toNat < 0xD800 ∨ 0xE000 ≤ c.toNat := by
  have hvalid := c.valid
  have hval : c.val.toNat = c.toNat := rfl
  rcases hvalid with h | ⟨h, _⟩ <;> omega

/-- A character is one unit that is no surrogate, or a high and a low one. -/
theorem encodeChar_cases (c : Char) :
    (∃ u, encodeChar c = [u] ∧ isSurrogate u = false ∧ single u = c) ∨
      ∃ u v, encodeChar c = [u, v] ∧ isHigh u = true ∧ isLow v = true ∧ pair u v = c := by
  have hlt := toNat_lt c
  have hplain := toNat_not_surrogate c
  unfold encodeChar
  split
  next hsmall =>
    have hnat : (UInt16.ofNat c.toNat).toNat = c.toNat := UInt16.toNat_ofNat_of_lt' hsmall
    have hnot : isSurrogate (UInt16.ofNat c.toNat) = false := by
      simp only [isSurrogate, isHigh, isLow, hnat, Bool.or_eq_false_iff, decide_eq_false_iff_not]
      omega
    refine Or.inl ⟨_, rfl, hnot, ?_⟩
    rw [single, hnot, hnat]
    exact Char.ofNat_toNat c
  next hlarge =>
    have hhigh : (UInt16.ofNat (0xD800 + (c.toNat - 0x10000) / 0x400)).toNat =
        0xD800 + (c.toNat - 0x10000) / 0x400 := UInt16.toNat_ofNat_of_lt' (by
      show _ < 65536
      omega)
    have hlow : (UInt16.ofNat (0xDC00 + (c.toNat - 0x10000) % 0x400)).toNat =
        0xDC00 + (c.toNat - 0x10000) % 0x400 := UInt16.toNat_ofNat_of_lt' (by
      show _ < 65536
      omega)
    refine Or.inr ⟨_, _, rfl, ?_, ?_, ?_⟩
    · rw [isHigh, hhigh, decide_eq_true_eq]
      omega
    · rw [isLow, hlow, decide_eq_true_eq]
      omega
    · rw [pair, hhigh, hlow]
      have hwhole : 0x10000 + (0xD800 + (c.toNat - 0x10000) / 0x400 - 0xD800) * 0x400 +
          (0xDC00 + (c.toNat - 0x10000) % 0x400 - 0xDC00) = c.toNat := by omega
      rw [hwhole]
      exact Char.ofNat_toNat c

theorem isHigh_of_not_surrogate {u : UInt16} (h : isSurrogate u = false) : isHigh u = false := by
  rw [isSurrogate, Bool.or_eq_false_iff] at h
  exact h.1

theorem toNat_ofNat {n : Nat} (h : n.isValidChar) : (Char.ofNat n).toNat = n := by
  have hof : Char.ofNat n = Char.ofNatAux n h := by
    rw [Char.ofNat, dif_pos h]
  rw [hof]
  rfl

theorem encodeChar_single {u : UInt16} (h : isSurrogate u = false) : encodeChar (single u) = [u] := by
  have hlt : u.toNat < 65536 := u.toNat_lt
  have hvalid : u.toNat.isValidChar := by
    simp only [isSurrogate, isHigh, isLow, Bool.or_eq_false_iff, decide_eq_false_iff_not] at h
    show u.toNat < 0xd800 ∨ 0xdfff < u.toNat ∧ u.toNat < 0x110000
    omega
  have hnat : (single u).toNat = u.toNat := by
    rw [single, h]
    exact toNat_ofNat hvalid
  rw [encodeChar, hnat, if_pos hlt, UInt16.ofNat_toNat]

theorem encodeChar_pair {u v : UInt16} (hu : isHigh u = true) (hv : isLow v = true) :
    encodeChar (pair u v) = [u, v] := by
  rw [isHigh, decide_eq_true_eq] at hu
  rw [isLow, decide_eq_true_eq] at hv
  have hvalid : (0x10000 + (u.toNat - 0xD800) * 0x400 + (v.toNat - 0xDC00)).isValidChar := by
    refine Or.inr ⟨?_, ?_⟩
    · show 0xdfff < _
      omega
    · show _ < 0x110000
      omega
  have hhigh : 0xD800 + ((pair u v).toNat - 0x10000) / 0x400 = u.toNat := by
    rw [pair, toNat_ofNat hvalid]
    omega
  have hlow : 0xDC00 + ((pair u v).toNat - 0x10000) % 0x400 = v.toNat := by
    rw [pair, toNat_ofNat hvalid]
    omega
  have hlarge : ¬(pair u v).toNat < 0x10000 := by
    rw [pair, toNat_ofNat hvalid]
    omega
  rw [encodeChar, if_neg hlarge, hhigh, hlow, UInt16.ofNat_toNat, UInt16.ofNat_toNat]

/-! ## Texts -/

theorem decode_encode (text : List Char) : decode (encode text) = text := by
  induction text with
  | nil => rfl
  | cons c text ih =>
    rw [encode_cons]
    rcases encodeChar_cases c with ⟨u, hc, hu, hsingle⟩ | ⟨u, v, hc, hu, hv, hpair⟩
    · rw [hc, List.singleton_append, decode_single _ (isHigh_of_not_surrogate hu), hsingle, ih]
    · rw [hc]
      show decode (u :: v :: encode text) = c :: text
      rw [decode_pair _ hu hv, hpair, ih]

theorem encode_decode (units : List UInt16) (h : wellFormed units = true) : encode (decode units) = units := by
  induction units using decode.induct with
  | case1 => rfl
  | case2 u =>
    have hu : isSurrogate u = false := by simpa [wellFormed] using h
    show encodeChar (single u) ++ [] = [u]
    rw [encodeChar_single hu, List.append_nil]
  | case3 u v rest hpair ih =>
    rw [Bool.and_eq_true] at hpair
    rw [wellFormed_pair _ hpair.1 hpair.2] at h
    rw [decode_pair _ hpair.1 hpair.2, encode_cons, encodeChar_pair hpair.1 hpair.2, ih h]
    rfl
  | case4 u v rest hpair ih =>
    rw [wellFormed, if_neg hpair, Bool.and_eq_true, Bool.not_eq_true'] at h
    rw [decode, if_neg hpair, encode_cons, encodeChar_single h.1, ih h.2]
    rfl

end CwTariWallet.Utf16
