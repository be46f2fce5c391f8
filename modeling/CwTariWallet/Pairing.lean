/-
# CwTariWallet.Pairing -- numbers that stand for one another

Two runs count up what they make, each for itself, and where one of them makes more the numbers drift
apart.  A `Pairing` says which number of the one stands for which number of the other.  It grows by the
next number of both (`Pairing.next`), and comparing two paired numbers comes out the same on both sides
(`Pairing.eq_iff`).
-/
import Mathlib.Logic.Relator

namespace CwTariWallet

/-- `r` pairs numbers below `n` with numbers below `m`, one to one. -/
structure Pairing (r : Nat → Nat → Prop) (n m : Nat) : Prop where
  left : ∀ {i j j'}, r i j → r i j' → j = j'
  right : ∀ {i i' j}, r i j → r i' j → i = i'
  lt : ∀ {i j}, r i j → i < n ∧ j < m

/-- `r`, and `n` with `m`. -/
def pairUp (r : Nat → Nat → Prop) (n m : Nat) : Nat → Nat → Prop :=
  fun i j => r i j ∨ (i = n ∧ j = m)

theorem pairUp_self (r : Nat → Nat → Prop) (n m : Nat) : pairUp r n m n m := Or.inr ⟨rfl, rfl⟩

theorem pairUp_of {r : Nat → Nat → Prop} {n m i j : Nat} (h : r i j) : pairUp r n m i j := Or.inl h

namespace Pairing

variable {r : Nat → Nat → Prop} {n m i j i' j' : Nat}

theorem biUnique (h : Pairing r n m) : Relator.BiUnique r :=
  ⟨fun _ _ _ hi hj => h.right hi hj, fun _ _ _ hi hj => h.left hi hj⟩

/-- Paired numbers are compared the same on both sides. -/
theorem eq_iff (h : Pairing r n m) (hi : r i j) (hi' : r i' j') : i = i' ↔ j = j' :=
  Relator.rel_eq h.biUnique hi hi'

/-- Counting on loses no pair. -/
theorem mono (h : Pairing r n m) {n' m' : Nat} (hn : n ≤ n') (hm : m ≤ m') : Pairing r n' m' where
  left := h.left
  right := h.right
  lt hij := ⟨Nat.lt_of_lt_of_le (h.lt hij).1 hn, Nat.lt_of_lt_of_le (h.lt hij).2 hm⟩

/-- The next number of the one is paired with the next of the other. -/
theorem next (h : Pairing r n m) : Pairing (pairUp r n m) (n + 1) (m + 1) where
  left := by
    rintro i j j' (hij | ⟨rfl, rfl⟩) (hij' | ⟨hi, rfl⟩)
    · exact h.left hij hij'
    · exact absurd (h.lt hij).1 (by omega)
    · exact absurd (h.lt hij').1 (Nat.lt_irrefl _)
    · rfl
  right := by
    rintro i i' j (hij | ⟨rfl, rfl⟩) (hij' | ⟨rfl, hj⟩)
    · exact h.right hij hij'
    · exact absurd (h.lt hij).2 (by omega)
    · exact absurd (h.lt hij').2 (Nat.lt_irrefl _)
    · rfl
  lt := by
    rintro i j (hij | ⟨rfl, rfl⟩)
    · have hlt := h.lt hij
      omega
    · omega

/-- Where both start from the same count, each number stands for itself. -/
theorem refl (n : Nat) : Pairing (fun i j => i = j ∧ i < n) n n where
  left hi hj := hi.1.symm.trans hj.1
  right hi hj := hi.1.trans hj.1.symm
  lt hij := ⟨hij.2, hij.1 ▸ hij.2⟩

end Pairing

end CwTariWallet
