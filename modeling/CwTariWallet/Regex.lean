/-
# CwTariWallet.Regex -- regular expressions over classes of characters

The syntax of extended regular expressions, less the back references: a character class is whatever a
predicate says.  What an expression denotes is a `Language` (`denote`); a word is matched by taking
derivatives (`accepts`), and so is a prefix of a word (`acceptsPrefix`), which is how an expression that is
anchored at the beginning of a line searches the line.
-/
import Mathlib.Computability.Language

namespace CwTariWallet

universe u

/-- An expression over the alphabet `α`. -/
inductive Regex (α : Type u) where
  | fail
  | empty
  | set (p : α → Bool)
  | seq (r s : Regex α)
  | alt (r s : Regex α)
  | star (r : Regex α)

namespace Regex

variable {α : Type u} {r s : Regex α} {p : α → Bool} {a : α} {w x y : List α}

/-! ## The language of an expression -/

def denote : Regex α → Language α
  | fail => 0
  | empty => 1
  | set p => {w | ∃ a, p a = true ∧ w = [a]}
  | seq r s => r.denote * s.denote
  | alt r s => r.denote + s.denote
  | star r => KStar.kstar r.denote

/-- One or more times. -/
def plus (r : Regex α) : Regex α := seq r (star r)

/-- One expression after the other. -/
def seqs : List (Regex α) → Regex α
  | [] => empty
  | r :: rs => seq r (seqs rs)

/-- One of the expressions. -/
def alts : List (Regex α) → Regex α
  | [] => fail
  | r :: rs => alt r (alts rs)

/-- A word that stands for itself. -/
def word [DecidableEq α] (w : List α) : Regex α := seqs (w.map fun a => set fun b => decide (b = a))

theorem mem_set : w ∈ (set p).denote ↔ ∃ a, p a = true ∧ w = [a] := Iff.rfl

theorem mem_seq : w ∈ (seq r s).denote ↔ ∃ x ∈ r.denote, ∃ y ∈ s.denote, x ++ y = w := Language.mem_mul

theorem mem_alt : w ∈ (alt r s).denote ↔ w ∈ r.denote ∨ w ∈ s.denote := Iff.rfl

theorem mem_seqs_nil : w ∈ (seqs [] : Regex α).denote ↔ w = [] := Language.mem_one w

theorem mem_seqs_cons {rs : List (Regex α)} :
    w ∈ (seqs (r :: rs)).denote ↔ ∃ x ∈ r.denote, ∃ y ∈ (seqs rs).denote, x ++ y = w := mem_seq

theorem mem_alts {rs : List (Regex α)} : w ∈ (alts rs).denote ↔ ∃ r ∈ rs, w ∈ r.denote := by
  induction rs with
  | nil => simp [alts, denote, Language.notMem_zero]
  | cons r rs ih => simp [alts, mem_alt, ih]

/-- A class, repeated. -/
theorem mem_star_set : w ∈ (star (set p)).denote ↔ ∀ a ∈ w, p a = true := by
  show w ∈ KStar.kstar (set p).denote ↔ _
  rw [Language.mem_kstar]
  constructor
  · rintro ⟨parts, rfl, hparts⟩ a ha
    obtain ⟨part, hpart, ha⟩ := List.mem_flatten.mp ha
    obtain ⟨b, hb, rfl⟩ := hparts part hpart
    rwa [List.mem_singleton.mp ha]
  · intro hall
    refine ⟨w.map fun a => [a], (List.flatMap_singleton' w).symm, ?_⟩
    intro part hpart
    obtain ⟨a, ha, rfl⟩ := List.mem_map.mp hpart
    exact ⟨a, hall a ha, rfl⟩

theorem mem_plus_set : w ∈ (plus (set p)).denote ↔ w ≠ [] ∧ ∀ a ∈ w, p a = true := by
  unfold plus
  rw [mem_seq]
  constructor
  · rintro ⟨_, ⟨a, ha, rfl⟩, y, hy, rfl⟩
    rw [mem_star_set] at hy
    refine ⟨List.cons_ne_nil _ _, ?_⟩
    rintro b hb
    rcases List.mem_cons.mp hb with rfl | hb
    · exact ha
    · exact hy b hb
  · rintro ⟨hne, hall⟩
    obtain ⟨a, y, rfl⟩ := List.exists_cons_of_ne_nil hne
    refine ⟨[a], ⟨a, hall a List.mem_cons_self, rfl⟩, y, ?_, rfl⟩
    rw [mem_star_set]
    exact fun b hb => hall b (List.mem_cons_of_mem _ hb)

theorem mem_word [DecidableEq α] : w ∈ (word x).denote ↔ w = x := by
  induction x generalizing w with
  | nil => exact mem_seqs_nil
  | cons a x ih =>
    unfold word at ih ⊢
    rw [List.map_cons, mem_seqs_cons]
    constructor
    · rintro ⟨_, ⟨b, hb, rfl⟩, y, hy, rfl⟩
      rw [of_decide_eq_true hb, ih.mp hy]
      rfl
    · rintro rfl
      exact ⟨[a], ⟨a, decide_eq_true rfl, rfl⟩, x, ih.mpr rfl, rfl⟩

/-! ### Sequences, part by part -/

section Sequences

variable {rs : List (Regex α)}

theorem mem_seqs_set : w ∈ (seqs (set p :: rs)).denote ↔
    ∃ a y, p a = true ∧ y ∈ (seqs rs).denote ∧ w = a :: y := by
  rw [mem_seqs_cons]
  constructor
  · rintro ⟨_, ⟨a, ha, rfl⟩, y, hy, rfl⟩
    exact ⟨a, y, ha, hy, rfl⟩
  · rintro ⟨a, y, ha, hy, rfl⟩
    exact ⟨[a], ⟨a, ha, rfl⟩, y, hy, rfl⟩

theorem mem_seqs_star : w ∈ (seqs (star (set p) :: rs)).denote ↔
    ∃ x y, (∀ a ∈ x, p a = true) ∧ y ∈ (seqs rs).denote ∧ w = x ++ y := by
  rw [mem_seqs_cons]
  constructor
  · rintro ⟨x, hx, y, hy, rfl⟩
    exact ⟨x, y, mem_star_set.mp hx, hy, rfl⟩
  · rintro ⟨x, y, hx, hy, rfl⟩
    exact ⟨x, mem_star_set.mpr hx, y, hy, rfl⟩

theorem mem_seqs_plus : w ∈ (seqs (plus (set p) :: rs)).denote ↔
    ∃ x y, x ≠ [] ∧ (∀ a ∈ x, p a = true) ∧ y ∈ (seqs rs).denote ∧ w = x ++ y := by
  rw [mem_seqs_cons]
  constructor
  · rintro ⟨x, hx, y, hy, rfl⟩
    obtain ⟨hne, hall⟩ := mem_plus_set.mp hx
    exact ⟨x, y, hne, hall, hy, rfl⟩
  · rintro ⟨x, y, hne, hall, hy, rfl⟩
    exact ⟨x, mem_plus_set.mpr ⟨hne, hall⟩, y, hy, rfl⟩

theorem mem_seqs_word [DecidableEq α] : w ∈ (seqs (word x :: rs)).denote ↔
    ∃ y ∈ (seqs rs).denote, w = x ++ y := by
  rw [mem_seqs_cons]
  constructor
  · rintro ⟨x', hx', y, hy, rfl⟩
    rw [mem_word.mp hx']
    exact ⟨y, hy, rfl⟩
  · rintro ⟨y, hy, rfl⟩
    exact ⟨x, mem_word.mpr rfl, y, hy, rfl⟩

end Sequences

/-! ## Derivatives -/

/-- Whether the empty word is matched. -/
def nullable : Regex α → Bool
  | fail => false
  | empty => true
  | set _ => false
  | seq r s => r.nullable && s.nullable
  | alt r s => r.nullable || s.nullable
  | star _ => true

/-- What is left to match after `a`. -/
def deriv (a : α) : Regex α → Regex α
  | fail => fail
  | empty => fail
  | set p => if p a then empty else fail
  -- the letter may be the first of `s`, when `r` matches nothing before it
  | seq r s => if r.nullable then alt (seq (r.deriv a) s) (s.deriv a) else seq (r.deriv a) s
  | alt r s => alt (r.deriv a) (s.deriv a)
  | star r => seq (r.deriv a) (star r)

theorem nullable_iff : r.nullable = true ↔ [] ∈ r.denote := by
  induction r with
  | fail => simp [nullable, denote, Language.notMem_zero]
  | empty => simp [nullable, denote]
  | set p => simp [nullable, mem_set]
  | seq r s ihr ihs =>
    rw [nullable, Bool.and_eq_true, ihr, ihs, mem_seq]
    constructor
    · rintro ⟨hr, hs⟩
      exact ⟨[], hr, [], hs, rfl⟩
    · rintro ⟨x, hx, y, hy, hxy⟩
      obtain ⟨rfl, rfl⟩ := List.append_eq_nil_iff.mp hxy
      exact ⟨hx, hy⟩
  | alt r s ihr ihs => rw [nullable, Bool.or_eq_true, ihr, ihs, mem_alt]
  | star r => simpa [nullable, denote] using Language.nil_mem_kstar r.denote

/-- The derivative is matched by what the expression matches after `a`. -/
theorem mem_deriv : w ∈ (r.deriv a).denote ↔ a :: w ∈ r.denote := by
  induction r generalizing w with
  | fail => exact Iff.rfl
  | empty => exact iff_of_false (Language.notMem_zero w) nofun
  | set p =>
    rw [deriv, mem_set]
    constructor
    · intro h
      split at h
      · rename_i hp
        obtain rfl := (Language.mem_one w).mp h
        exact ⟨a, hp, rfl⟩
      · exact absurd h (Language.notMem_zero w)
    · rintro ⟨b, hb, heq⟩
      obtain ⟨rfl, rfl⟩ := List.cons.inj heq
      rw [if_pos hb]
      exact (Language.mem_one _).mpr rfl
  | seq r s ihr ihs =>
    have hleft : w ∈ (seq (r.deriv a) s).denote ↔ ∃ x ∈ r.denote, ∃ y ∈ s.denote, x ≠ [] ∧ x ++ y = a :: w := by
      rw [mem_seq]
      constructor
      · rintro ⟨x, hx, y, hy, rfl⟩
        exact ⟨a :: x, ihr.mp hx, y, hy, List.cons_ne_nil _ _, rfl⟩
      · rintro ⟨x, hx, y, hy, hne, heq⟩
        obtain ⟨b, x, rfl⟩ := List.exists_cons_of_ne_nil hne
        obtain ⟨rfl, rfl⟩ := List.cons.inj heq
        exact ⟨x, ihr.mpr hx, y, hy, rfl⟩
    rw [mem_seq, deriv]
    split
    · rename_i hnull
      rw [mem_alt, hleft, ihs]
      constructor
      · rintro (⟨x, hx, y, hy, -, heq⟩ | hs)
        · exact ⟨x, hx, y, hy, heq⟩
        · exact ⟨[], nullable_iff.mp hnull, a :: w, hs, rfl⟩
      · rintro ⟨x, hx, y, hy, heq⟩
        by_cases hne : x = []
        · subst hne
          obtain rfl : y = a :: w := heq
          exact Or.inr hy
        · exact Or.inl ⟨x, hx, y, hy, hne, heq⟩
    · rename_i hnull
      rw [hleft]
      constructor
      · rintro ⟨x, hx, y, hy, -, heq⟩
        exact ⟨x, hx, y, hy, heq⟩
      · rintro ⟨x, hx, y, hy, heq⟩
        refine ⟨x, hx, y, hy, ?_, heq⟩
        rintro rfl
        exact hnull (nullable_iff.mpr hx)
  | alt r s ihr ihs => exact or_congr ihr ihs
  | star r ih =>
    rw [deriv, mem_seq]
    show _ ↔ a :: w ∈ KStar.kstar r.denote
    constructor
    · rintro ⟨x, hx, _, ⟨parts, rfl, hparts⟩, rfl⟩
      refine ⟨(a :: x) :: parts, rfl, ?_⟩
      intro part hpart
      rcases List.mem_cons.mp hpart with rfl | hpart
      · exact ih.mp hx
      · exact hparts part hpart
    -- an iteration that takes the letter is not empty
    · rw [Language.mem_kstar_iff_exists_nonempty]
      rintro ⟨parts, heq, hparts⟩
      cases parts with
      | nil => cases heq
      | cons part parts =>
        obtain ⟨hpart, hne⟩ := hparts part List.mem_cons_self
        obtain ⟨b, x, rfl⟩ := List.exists_cons_of_ne_nil hne
        obtain ⟨rfl, rfl⟩ := List.cons.inj heq
        exact ⟨x, ih.mpr hpart, _, ⟨parts, rfl, fun y hy => (hparts y (List.mem_cons_of_mem _ hy)).1⟩, rfl⟩

/-- Matching a whole word. -/
def accepts (r : Regex α) : List α → Bool
  | [] => r.nullable
  | a :: w => (r.deriv a).accepts w

/-- Matching some prefix of a word. -/
def acceptsPrefix (r : Regex α) : List α → Bool
  | [] => r.nullable
  | a :: w => r.nullable || (r.deriv a).acceptsPrefix w

theorem accepts_iff : r.accepts w = true ↔ w ∈ r.denote := by
  induction w generalizing r with
  | nil => exact nullable_iff
  | cons a w ih => exact ih.trans mem_deriv

theorem acceptsPrefix_iff : r.acceptsPrefix w = true ↔ ∃ x ∈ r.denote, ∃ y, w = x ++ y := by
  induction w generalizing r with
  | nil =>
    rw [acceptsPrefix, nullable_iff]
    constructor
    · exact fun h => ⟨[], h, [], rfl⟩
    · rintro ⟨x, hx, y, hxy⟩
      obtain ⟨rfl, -⟩ := List.append_eq_nil_iff.mp hxy.symm
      exact hx
  | cons a w ih =>
    rw [acceptsPrefix, Bool.or_eq_true, nullable_iff, ih]
    constructor
    · rintro (hnil | ⟨x, hx, y, rfl⟩)
      · exact ⟨[], hnil, a :: w, rfl⟩
      · exact ⟨a :: x, mem_deriv.mp hx, y, rfl⟩
    · rintro ⟨x, hx, y, hxy⟩
      cases x with
      | nil => exact Or.inl hx
      | cons b x =>
        obtain ⟨rfl, rfl⟩ := List.cons.inj hxy
        exact Or.inr ⟨x, mem_deriv.mpr hx, y, rfl⟩

theorem acceptsPrefix_word [DecidableEq α] : (word x).acceptsPrefix w = true ↔ x <+: w := by
  rw [acceptsPrefix_iff]
  constructor
  · rintro ⟨x', hx', y, rfl⟩
    rw [mem_word.mp hx']
    exact List.prefix_append _ _
  · rintro ⟨y, rfl⟩
    exact ⟨x, mem_word.mpr rfl, y, rfl⟩

end Regex

end CwTariWallet
