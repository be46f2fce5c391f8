/-
# CwTariWallet.Digits -- reading positional numerals back

Numerals of a base up to sixteen, as `Nat.toDigits` writes them: every character is a digit below the base
(`mem_toDigits`), and the digits read from the left give the number again (`readDigits_toDigits`).
-/
import Mathlib.Data.List.Basic

namespace CwTariWallet.Digits

/-- The value of a lower-case digit. -/
def digitValue (c : Char) : Nat := if c.toNat < 0x61 then c.toNat - 0x30 else c.toNat - 0x57

theorem digitValue_digitChar (d : Nat) (h : d < 16) : digitValue d.digitChar = d := by
  have hall : ∀ d < 16, digitValue (Nat.digitChar d) = d := by decide
  exact hall d h

/-- The digits read from the left, behind those that gave `n`. -/
def readDigits (b n : Nat) (digits : List Char) : Nat := digits.foldl (fun m c => b * m + digitValue c) n

variable {b : Nat}

/-- Numerals are taken apart from the right, where one digit is split off. -/
theorem toDigits_induction {P : Nat → Prop} (hb : 1 < b) (single : ∀ d < b, P d)
    (snoc : ∀ n d, 0 < n → d < b → P n → P (b * n + d)) (n : Nat) : P n := by
  induction n using Nat.strongRecOn with
  | ind n ih =>
    by_cases hlt : n < b
    · exact single n hlt
    · have hpos : 0 < n / b := Nat.div_pos (Nat.le_of_not_lt hlt) (by omega)
      have hprefix := ih (n / b) (Nat.div_lt_self (by omega) hb)
      rw [← Nat.div_add_mod n b]
      exact snoc (n / b) (n % b) hpos (Nat.mod_lt n (by omega)) hprefix

theorem mem_toDigits (hb : 1 < b) (n : Nat) : ∀ c ∈ Nat.toDigits b n, ∃ d < b, c = Nat.digitChar d := by
  induction n using toDigits_induction hb with
  | single d hd =>
    intro c hc
    rw [Nat.toDigits_of_lt_base hd, List.mem_singleton] at hc
    exact ⟨d, hd, hc⟩
  | snoc n d hn hd ih =>
    intro c hc
    rw [← Nat.toDigits_append_toDigits hb hn hd, Nat.toDigits_of_lt_base hd, List.mem_append,
      List.mem_singleton] at hc
    rcases hc with hc | hc
    · exact ih c hc
    · exact ⟨d, hd, hc⟩

theorem readDigits_toDigits (hb : 1 < b) (hb' : b ≤ 16) (n : Nat) : readDigits b 0 (Nat.toDigits b n) = n := by
  induction n using toDigits_induction hb with
  | single d hd =>
    rw [Nat.toDigits_of_lt_base hd]
    simp [readDigits, digitValue_digitChar d (by omega)]
  | snoc n d hn hd ih =>
    rw [← Nat.toDigits_append_toDigits hb hn hd, Nat.toDigits_of_lt_base hd, readDigits, List.foldl_append]
    rw [readDigits] at ih
    rw [ih, List.foldl_cons, List.foldl_nil, digitValue_digitChar d (by omega)]

/-- Only zero is written with a zero in front. -/
theorem eq_zero_of_head_toDigits (hb : 1 < b) (hb' : b ≤ 16) (n : Nat)
    (h : (Nat.toDigits b n).head? = some '0') : n = 0 := by
  have hzero : ∀ d < 16, Nat.digitChar d = '0' → d = 0 := by decide
  induction n using toDigits_induction hb with
  | single d hd =>
    rw [Nat.toDigits_of_lt_base hd, List.head?_cons, Option.some.injEq] at h
    exact hzero d (by omega) h
  | snoc n d hn hd ih =>
    rw [← Nat.toDigits_append_toDigits hb hn hd, List.head?_append_of_ne_nil _ Nat.toDigits_ne_nil] at h
    have hnone := ih h
    omega

end CwTariWallet.Digits
