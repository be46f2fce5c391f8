/-
# CwTariWallet.Api.Amounts -- an amount as the user reads it

`format_micro_tari` splits an amount at the million, groups the whole part in threes and pads the rest to
six digits.  The grouping loop runs over the reversed digits and counts them, so where its commas fall is a
matter of the position counted from the right (`groupFrom_getElem?`); they are all it adds
(`filter_groupFrom`).  Read back without commas, dot and suffix, the digits are the amount
(`readAmount_formatMicroTari`).
-/
import CwTariWallet.Digits
import Mathlib.Algebra.Order.Ring.Nat
import Mathlib.Data.List.Basic

namespace CwTariWallet

/-! ## The formatting -/

/-- The loop of `format_with_thousands_separator` over the reversed digits, from index `i` on. -/
def groupFrom : Nat → List Char → List Char
  | _, [] => []
  | i, c :: rest => (if 0 < i ∧ i % 3 = 0 then [',', c] else [c]) ++ groupFrom (i + 1) rest

/-- `format_with_thousands_separator`. -/
def formatWithThousandsSeparator (n : UInt64) : String :=
  String.ofList (groupFrom 0 n.toNat.repr.toList.reverse).reverse

/-- `{:06}`. -/
def paddedToSix (n : UInt64) : String := String.ofList (n.toNat.repr.toList.leftpad 6 '0')

/-- `format_micro_tari`. -/
def formatMicroTari (microTari : UInt64) : String :=
  let wholeTari := microTari / 1000000
  let fractional := microTari % 1000000
  if 1000 ≤ wholeTari then
    formatWithThousandsSeparator wholeTari ++ "." ++ paddedToSix fractional ++ " XTM"
  else wholeTari.toNat.repr ++ "." ++ paddedToSix fractional ++ " XTM"

/-! ## Grouping -/

theorem groupFrom_append (i : Nat) (cs ds : List Char) :
    groupFrom i (cs ++ ds) = groupFrom i cs ++ groupFrom (i + cs.length) ds := by
  induction cs generalizing i with
  | nil => rfl
  | cons c cs ih =>
    rw [List.cons_append, groupFrom, ih, groupFrom, List.append_assoc, List.length_cons]
    congr 3
    omega

/-- Up to three digits stay as they are. -/
theorem groupFrom_of_length_le {cs : List Char} (h : cs.length ≤ 3) : groupFrom 0 cs = cs := by
  match cs, h with
  | [], _ => rfl
  | [_], _ => rfl
  | [_, _], _ => rfl
  | [_, _, _], _ => rfl

/-- Commas are all that is added. -/
theorem filter_groupFrom (i : Nat) {cs : List Char} (h : ∀ c ∈ cs, c ≠ ',') :
    (groupFrom i cs).filter (fun c => decide (c ≠ ',')) = cs := by
  induction cs generalizing i with
  | nil => rfl
  | cons c cs ih =>
    have hc : c ≠ ',' := h c List.mem_cons_self
    have hrest := ih (i + 1) fun d hd => h d (List.mem_cons_of_mem c hd)
    rw [groupFrom, List.filter_append, hrest]
    split_ifs
    · simp [hc]
    · simp [hc]

theorem mem_groupFrom {i : Nat} {cs : List Char} {c : Char} (h : c ∈ groupFrom i cs) : c ∈ cs ∨ c = ',' := by
  induction cs generalizing i with
  | nil => cases h
  | cons d cs ih =>
    rw [groupFrom, List.mem_append] at h
    rcases h with h | h
    · split_ifs at h
      · simp only [List.mem_cons, List.not_mem_nil, or_false] at h
        rcases h with rfl | rfl
        · exact Or.inr rfl
        · exact Or.inl List.mem_cons_self
      · rw [List.mem_singleton] at h
        exact Or.inl (h ▸ List.mem_cons_self)
    · rcases ih h with h | h
      · exact Or.inl (List.mem_cons_of_mem d h)
      · exact Or.inr h

/-- Where in a group of four, three digits and a comma, the loop stands before digit `i`. -/
def phase (i : Nat) : Nat := if i = 0 then 0 else if i % 3 = 0 then 3 else i % 3

theorem phase_succ {i : Nat} (h : ¬ (0 < i ∧ i % 3 = 0)) : phase i < 3 ∧ phase (i + 1) = phase i + 1 := by
  have hhere : phase i = i % 3 := by
    unfold phase
    split_ifs with hzero hgroup
    · rw [hzero]
    · omega
    · rfl
  have hnext : phase (i + 1) = if (i + 1) % 3 = 0 then 3 else (i + 1) % 3 := if_neg (Nat.succ_ne_zero i)
  rw [hhere, hnext]
  split_ifs
  · omega
  · omega

/-- The commas are at every fourth place, counted from where the loop stands. -/
theorem groupFrom_getElem? (i : Nat) {cs : List Char} (h : ∀ c ∈ cs, c ≠ ',') {j : Nat}
    (hj : j < (groupFrom i cs).length) : (groupFrom i cs)[j]? = some ',' ↔ (phase i + j) % 4 = 3 := by
  induction cs generalizing i j with
  | nil => cases hj
  | cons c cs ih =>
    have hc : c ≠ ',' := h c List.mem_cons_self
    have ih := fun j => @ih (i + 1) (fun d hd => h d (List.mem_cons_of_mem c hd)) j
    rw [groupFrom] at hj ⊢
    by_cases hgroup : 0 < i ∧ i % 3 = 0
    · rw [if_pos hgroup] at hj ⊢
      have hhere : phase i = 3 := by
        rw [phase, if_neg (by omega), if_pos hgroup.2]
      have hnext : phase (i + 1) = 1 := by
        rw [phase, if_neg (by omega), if_neg (by omega)]
        omega
      match j, hj with
      | 0, _ => simp [hhere]
      | 1, _ => simp [hhere, hc]
      | j + 2, hj =>
        have hrest := ih j (by simpa using hj)
        rw [hnext] at hrest
        rw [hhere]
        have hshift : (3 + (j + 2)) % 4 = (1 + j) % 4 := by omega
        rw [hshift]
        simpa using hrest
    · rw [if_neg hgroup] at hj ⊢
      have hhere : phase i < 3 ∧ phase (i + 1) = phase i + 1 := phase_succ hgroup
      match j, hj with
      | 0, _ =>
        have hplain : ¬ phase i % 4 = 3 := by omega
        simp [hc, hplain]
      | j + 1, hj =>
        have hrest := ih j (by simpa using hj)
        rw [hhere.2] at hrest
        have hshift : (phase i + (j + 1)) % 4 = (phase i + 1 + j) % 4 := by congr 1; omega
        rw [hshift]
        simpa using hrest

/-! ## The whole part -/

theorem ne_comma_of_isDigit {c : Char} (h : c.isDigit = true) : c ≠ ',' := by
  rintro rfl
  cases h

theorem ne_dot_of_isDigit {c : Char} (h : c.isDigit = true) : c ≠ '.' := by
  rintro rfl
  cases h

theorem isDigit_of_mem_repr {n : Nat} : ∀ c ∈ n.repr.toList, c.isDigit = true := by
  intro c hc
  rw [Nat.toList_repr] at hc
  exact Nat.isDigit_of_mem_toDigits (by decide) (by decide) hc

theorem formatWithThousandsSeparator_toList (n : UInt64) :
    (formatWithThousandsSeparator n).toList = (groupFrom 0 n.toNat.repr.toList.reverse).reverse :=
  String.toList_ofList

/-- A number of at most three digits has no separator. -/
theorem formatWithThousandsSeparator_of_lt {n : UInt64} (h : n < 1000) :
    formatWithThousandsSeparator n = n.toNat.repr := by
  have hlt : n.toNat < 10 ^ 3 := UInt64.lt_iff_toNat_lt.mp h
  have hshort : n.toNat.repr.toList.reverse.length ≤ 3 := by
    rw [List.length_reverse, Nat.toList_repr]
    exact (Nat.length_toDigits_le_iff (by decide) (by decide)).mpr hlt
  rw [formatWithThousandsSeparator, groupFrom_of_length_le hshort, List.reverse_reverse, String.ofList_toList]

/-- An integer part: digits without a zero in front, and a comma wherever, from the right, three digits have
gone before. -/
structure IsWhole (whole : List Char) : Prop where
  digits : ∀ c ∈ whole, c.isDigit = true ∨ c = ','
  first : ∃ c, whole.head? = some c ∧ c.isDigit = true
  no_leading_zero : whole.head? = some '0' → whole = ['0']
  commas : ∀ i < whole.length, whole.reverse[i]? = some ',' ↔ i % 4 = 3

theorem formatWithThousandsSeparator_head? (n : UInt64) :
    (formatWithThousandsSeparator n).toList.head? = n.toNat.repr.toList.head? := by
  rw [formatWithThousandsSeparator_toList, List.head?_reverse]
  cases hdigits : n.toNat.repr.toList with
  | nil =>
    rw [Nat.toList_repr] at hdigits
    exact absurd hdigits Nat.toDigits_ne_nil
  | cons c cs =>
    -- the digit in front is the last that the loop writes
    rw [List.reverse_cons, groupFrom_append, List.getLast?_append, List.head?_cons]
    simp only [groupFrom, List.append_nil]
    split_ifs <;> rfl

theorem isWhole_formatWithThousandsSeparator (n : UInt64) :
    IsWhole (formatWithThousandsSeparator n).toList := by
  have hplain : ∀ c ∈ n.toNat.repr.toList.reverse, c ≠ ',' := by
    intro c hc
    exact ne_comma_of_isDigit (isDigit_of_mem_repr c (List.mem_reverse.mp hc))
  refine ⟨?_, ?_, ?_, ?_⟩
  · intro c hc
    rw [formatWithThousandsSeparator_toList, List.mem_reverse] at hc
    rcases mem_groupFrom hc with hc | hc
    · exact Or.inl (isDigit_of_mem_repr c (List.mem_reverse.mp hc))
    · exact Or.inr hc
  · rw [formatWithThousandsSeparator_head?]
    cases hdigits : n.toNat.repr.toList with
    | nil =>
      rw [Nat.toList_repr] at hdigits
      exact absurd hdigits Nat.toDigits_ne_nil
    | cons c cs => exact ⟨c, rfl, isDigit_of_mem_repr c (by rw [hdigits]; exact List.mem_cons_self)⟩
  · intro hhead
    rw [formatWithThousandsSeparator_head?, Nat.toList_repr] at hhead
    have hzero := Digits.eq_zero_of_head_toDigits (by decide) (by decide) _ hhead
    rw [formatWithThousandsSeparator_toList, hzero]
    rfl
  · intro i hi
    rw [formatWithThousandsSeparator_toList, List.length_reverse] at hi
    rw [formatWithThousandsSeparator_toList, List.reverse_reverse, groupFrom_getElem? 0 hplain hi]
    show (0 + i) % 4 = 3 ↔ i % 4 = 3
    rw [Nat.zero_add]

/-- Without its commas it is the number. -/
theorem filter_formatWithThousandsSeparator (n : UInt64) :
    (formatWithThousandsSeparator n).toList.filter (fun c => decide (c ≠ ',')) = n.toNat.repr.toList := by
  have hplain : ∀ c ∈ n.toNat.repr.toList.reverse, c ≠ ',' := by
    intro c hc
    exact ne_comma_of_isDigit (isDigit_of_mem_repr c (List.mem_reverse.mp hc))
  rw [formatWithThousandsSeparator_toList, List.filter_reverse, filter_groupFrom 0 hplain, List.reverse_reverse]

/-! ## The fraction -/

theorem length_paddedToSix {n : UInt64} (h : n.toNat < 10 ^ 6) : (paddedToSix n).toList.length = 6 := by
  have hshort : n.toNat.repr.toList.length ≤ 6 := by
    rw [Nat.toList_repr]
    exact (Nat.length_toDigits_le_iff (by decide) (by decide)).mpr h
  rw [paddedToSix, String.toList_ofList, List.length_leftpad]
  omega

theorem isDigit_of_mem_paddedToSix {n : UInt64} : ∀ c ∈ (paddedToSix n).toList, c.isDigit = true := by
  intro c hc
  rw [paddedToSix, String.toList_ofList, List.leftpad, List.mem_append] at hc
  rcases hc with hc | hc
  · rw [List.eq_of_mem_replicate hc]
    rfl
  · exact isDigit_of_mem_repr c hc

/-- Behind the digits of a whole part, the padded digits stand for a fraction of a million. -/
theorem ofDigitChars_paddedToSix (whole : Nat) {n : UInt64} (h : n.toNat < 10 ^ 6) :
    Nat.ofDigitChars 10 (whole.repr.toList ++ (paddedToSix n).toList) 0 = 1000000 * whole + n.toNat := by
  have hwhole : Nat.ofDigitChars 10 whole.repr.toList 0 = whole := by
    rw [Nat.toList_repr]
    exact Nat.ofDigitChars_ten_toDigits
  have hfraction : Nat.ofDigitChars 10 (paddedToSix n).toList 0 = n.toNat := by
    rw [paddedToSix, String.toList_ofList, List.leftpad, Nat.ofDigitChars_append,
      Nat.ofDigitChars_replicate_zero, Nat.mul_zero, Nat.toList_repr]
    exact Nat.ofDigitChars_ten_toDigits
  rw [Nat.ofDigitChars_append, hwhole, Nat.ofDigitChars_eq_ofDigitChars_zero, hfraction,
    length_paddedToSix h]

/-! ## The whole text -/

/-- Both branches are one: where there is no separator none is due. -/
theorem formatMicroTari_toList (x : UInt64) :
    (formatMicroTari x).toList = (formatWithThousandsSeparator (x / 1000000)).toList ++
      '.' :: (paddedToSix (x % 1000000)).toList ++ " XTM".toList := by
  unfold formatMicroTari
  dsimp only
  split_ifs with hlarge
  · simp
  · have hsmall : x / 1000000 < 1000 := UInt64.not_le.mp hlarge
    rw [formatWithThousandsSeparator_of_lt hsmall]
    simp

theorem fraction_lt (x : UInt64) : (x % 1000000).toNat < 10 ^ 6 := by
  rw [UInt64.toNat_mod]
  exact Nat.mod_lt _ (by decide)

/-- What is left of an amount without its suffix, its commas and its dot. -/
def amountDigits (text : List Char) : List Char :=
  (text.take (text.length - " XTM".toList.length)).filter fun c => decide (c ≠ ',') && decide (c ≠ '.')

/-- The number that they are the digits of. -/
def readAmount (text : String) : Nat := Nat.ofDigitChars 10 (amountDigits text.toList) 0

theorem amountDigits_append {whole fraction : List Char} (hwhole : IsWhole whole)
    (hfraction : ∀ c ∈ fraction, c.isDigit = true) :
    amountDigits (whole ++ '.' :: fraction ++ " XTM".toList) =
      whole.filter (fun c => decide (c ≠ ',')) ++ fraction := by
  have hkept : fraction.filter (fun c => decide (c ≠ ',') && decide (c ≠ '.')) = fraction := by
    rw [List.filter_eq_self]
    intro c hc
    simp [ne_comma_of_isDigit (hfraction c hc), ne_dot_of_isDigit (hfraction c hc)]
  have hnodot : ∀ c ∈ whole, (decide (c ≠ ',') && decide (c ≠ '.')) = decide (c ≠ ',') := by
    intro c hc
    rcases hwhole.digits c hc with hdigit | rfl
    · simp [ne_dot_of_isDigit hdigit]
    · rfl
  rw [amountDigits, List.length_append, Nat.add_sub_cancel, List.take_left, List.filter_append,
    List.filter_congr hnodot, List.filter_cons_of_neg (by decide), hkept]

/-- Read back, a displayed amount is the amount. -/
theorem readAmount_formatMicroTari (x : UInt64) : readAmount (formatMicroTari x) = x.toNat := by
  rw [readAmount, formatMicroTari_toList, amountDigits_append (isWhole_formatWithThousandsSeparator _)
    isDigit_of_mem_paddedToSix, filter_formatWithThousandsSeparator,
    ofDigitChars_paddedToSix _ (fraction_lt x), UInt64.toNat_div, UInt64.toNat_mod]
  exact Nat.div_add_mod x.toNat 1000000

/-- An amount as it is displayed. -/
structure IsAmount (text : List Char) : Prop where
  shape : ∃ whole fraction, text = whole ++ '.' :: fraction ++ " XTM".toList ∧ IsWhole whole ∧
    fraction.length = 6 ∧ ∀ c ∈ fraction, c.isDigit = true
  one_dot : text.count '.' = 1

theorem isAmount_formatMicroTari (x : UInt64) : IsAmount (formatMicroTari x).toList := by
  have hwhole := isWhole_formatWithThousandsSeparator (x / 1000000)
  constructor
  · exact ⟨_, _, formatMicroTari_toList x, hwhole, length_paddedToSix (fraction_lt x),
      isDigit_of_mem_paddedToSix⟩
  · have hleft : '.' ∉ (formatWithThousandsSeparator (x / 1000000)).toList := by
      intro hdot
      rcases hwhole.digits '.' hdot with hdigit | hcomma
      · cases hdigit
      · cases hcomma
    have hright : '.' ∉ (paddedToSix (x % 1000000)).toList := by
      intro hdot
      exact ne_dot_of_isDigit (isDigit_of_mem_paddedToSix '.' hdot) rfl
    rw [formatMicroTari_toList, List.count_append, List.count_append, List.count_cons_self,
      List.count_eq_zero_of_not_mem hleft, List.count_eq_zero_of_not_mem hright]
    decide

/-- Every amount is displayed exactly: it is well formed, it can be read back, no two amounts look the same,
and below a thousand XTM the separators make no difference. -/
theorem formatMicroTari_exact :
    (∀ x, IsAmount (formatMicroTari x).toList ∧ readAmount (formatMicroTari x) = x.toNat) ∧
      Function.Injective formatMicroTari ∧
      ∀ n : UInt64, n < 1000 → formatWithThousandsSeparator n = n.toNat.repr := by
  refine ⟨fun x => ⟨isAmount_formatMicroTari x, readAmount_formatMicroTari x⟩, ?_, fun n h => ?_⟩
  · intro x y hxy
    apply UInt64.toNat_inj.mp
    rw [← readAmount_formatMicroTari x, ← readAmount_formatMicroTari y, hxy]
  · exact formatWithThousandsSeparator_of_lt h

end CwTariWallet
