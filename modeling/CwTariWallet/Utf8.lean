/-
# CwTariWallet.Utf8 -- cutting UTF-8 text at a character boundary

A text is its characters, and an offset into it counts the bytes of their UTF-8 encodings.  An offset is a
boundary when some prefix of the text has exactly that many bytes (`isCharBoundary_iff`), and slicing
succeeds at the boundaries alone.  The search for a boundary goes down from a limit, one byte at a time;
it finds the longest prefix that fits (`lastBoundary_spec`), since byte zero is a boundary of every text.
-/
import Mathlib.Algebra.BigOperators.Group.List.Basic
import Mathlib.Algebra.Order.Ring.Nat

namespace CwTariWallet.Utf8

/-- The length of a text in bytes. -/
def byteLen (text : List Char) : Nat := (text.map Char.utf8Size).sum

@[simp] theorem byteLen_nil : byteLen [] = 0 := rfl

@[simp] theorem byteLen_cons (c : Char) (text : List Char) :
    byteLen (c :: text) = c.utf8Size + byteLen text := by
  simp [byteLen]

@[simp] theorem byteLen_append (p s : List Char) : byteLen (p ++ s) = byteLen p + byteLen s := by
  simp [byteLen]

/-- It is the length of the encoding itself. -/
theorem utf8ByteSize_ofList (text : List Char) : (String.ofList text).utf8ByteSize = byteLen text := by
  induction text with
  | nil => rfl
  | cons c text ih =>
    rw [show c :: text = [c] ++ text from rfl, String.ofList_append, String.utf8ByteSize_append, ih,
      byteLen_append, ← String.singleton_eq_ofList, String.utf8ByteSize_singleton]
    simp

theorem utf8ByteSize_eq (text : String) : text.utf8ByteSize = byteLen text.toList := by
  rw [← utf8ByteSize_ofList, String.ofList_toList]

/-! ## Boundaries -/

/-- Whether a character starts at byte `n`, or the text ends there. -/
def isCharBoundary : List Char → Nat → Bool
  | _, 0 => true
  | [], _ + 1 => false
  | c :: rest, n + 1 => decide (c.utf8Size ≤ n + 1) && isCharBoundary rest (n + 1 - c.utf8Size)

/-- The text up to byte `n`; `none` where that is inside a character or past the end. -/
def sliceTo : List Char → Nat → Option (List Char)
  | _, 0 => some []
  | [], _ + 1 => none
  | c :: rest, n + 1 =>
    if c.utf8Size ≤ n + 1 then (sliceTo rest (n + 1 - c.utf8Size)).map (c :: ·) else none

/-- The search downwards from byte `n` for a boundary; `none` where it would go below byte zero. -/
def lastBoundary (text : List Char) : Nat → Option Nat
  | 0 => if isCharBoundary text 0 then some 0 else none
  | n + 1 => if isCharBoundary text (n + 1) then some (n + 1) else lastBoundary text n

theorem isCharBoundary_zero (text : List Char) : isCharBoundary text 0 = true := by
  cases text <;> rfl

theorem isCharBoundary_byteLen (p s : List Char) : isCharBoundary (p ++ s) (byteLen p) = true := by
  induction p with
  | nil => exact isCharBoundary_zero s
  | cons c p ih =>
    have hpos := c.utf8Size_pos
    rw [List.cons_append, byteLen_cons]
    obtain ⟨n, hn⟩ : ∃ n, c.utf8Size + byteLen p = n + 1 := ⟨c.utf8Size + byteLen p - 1, by omega⟩
    have hrest : n + 1 - c.utf8Size = byteLen p := by omega
    rw [hn, isCharBoundary, hrest, ih, Bool.and_true, decide_eq_true_eq]
    omega

/-- The boundaries are the lengths of the prefixes. -/
theorem isCharBoundary_iff (text : List Char) (n : Nat) :
    isCharBoundary text n = true ↔ ∃ p s, text = p ++ s ∧ byteLen p = n := by
  constructor
  · intro h
    induction text generalizing n with
    | nil =>
      cases n with
      | zero => exact ⟨[], [], rfl, rfl⟩
      | succ n => cases h
    | cons c rest ih =>
      cases n with
      | zero => exact ⟨[], c :: rest, rfl, rfl⟩
      | succ n =>
        rw [isCharBoundary, Bool.and_eq_true, decide_eq_true_eq] at h
        obtain ⟨p, s, hps, hlen⟩ := ih _ h.2
        refine ⟨c :: p, s, by rw [hps, List.cons_append], ?_⟩
        rw [byteLen_cons, hlen]
        omega
  · rintro ⟨p, s, rfl, rfl⟩
    exact isCharBoundary_byteLen p s

/-- At a boundary the slice is the prefix that ends there. -/
theorem sliceTo_byteLen (p s : List Char) : sliceTo (p ++ s) (byteLen p) = some p := by
  induction p with
  | nil => cases s <;> rfl
  | cons c p ih =>
    have hpos := c.utf8Size_pos
    rw [List.cons_append, byteLen_cons]
    obtain ⟨n, hn⟩ : ∃ n, c.utf8Size + byteLen p = n + 1 := ⟨c.utf8Size + byteLen p - 1, by omega⟩
    have hrest : n + 1 - c.utf8Size = byteLen p := by omega
    have hle : c.utf8Size ≤ n + 1 := by omega
    rw [hn, sliceTo, if_pos hle, hrest, ih]
    rfl

/-- The search ends, at the last boundary that is not past `n`. -/
theorem lastBoundary_spec (text : List Char) (n : Nat) :
    ∃ m, lastBoundary text n = some m ∧ m ≤ n ∧ isCharBoundary text m = true ∧
      ∀ k ≤ n, isCharBoundary text k = true → k ≤ m := by
  induction n with
  | zero =>
    have hzero := isCharBoundary_zero text
    exact ⟨0, by rw [lastBoundary, if_pos hzero], Nat.le_refl 0, hzero, fun k hk _ => hk⟩
  | succ n ih =>
    rw [lastBoundary]
    split
    next hhere => exact ⟨n + 1, rfl, Nat.le_refl _, hhere, fun k hk _ => hk⟩
    next hnot =>
      obtain ⟨m, hm, hle, hbound, hlast⟩ := ih
      refine ⟨m, hm, by omega, hbound, fun k hk hkb => ?_⟩
      apply hlast k _ hkb
      have hne : k ≠ n + 1 := by
        rintro rfl
        exact hnot hkb
      omega

/-- The longest prefix of at most `n` bytes: where the search ends, and what the slice there is. -/
theorem longest_prefix (text : List Char) (n : Nat) :
    ∃ p s, text = p ++ s ∧ lastBoundary text n = some (byteLen p) ∧
      sliceTo text (byteLen p) = some p ∧ byteLen p ≤ n ∧
      ∀ q t, text = q ++ t → byteLen q ≤ n → q <+: p := by
  obtain ⟨m, hm, hle, hbound, hlast⟩ := lastBoundary_spec text n
  obtain ⟨p, s, rfl, rfl⟩ := (isCharBoundary_iff text m).mp hbound
  refine ⟨p, s, rfl, hm, sliceTo_byteLen p s, hle, fun q t hqt hq => ?_⟩
  have hq_le : byteLen q ≤ byteLen p := by
    apply hlast _ hq
    rw [hqt]
    exact isCharBoundary_byteLen q t
  -- of two prefixes one is a prefix of the other; a longer one has more bytes
  rcases List.prefix_or_prefix_of_prefix (List.prefix_append p s)
    (show q <+: p ++ s by rw [hqt]; exact List.prefix_append q t) with hpq | hqp
  · obtain ⟨x, rfl⟩ := hpq
    rw [byteLen_append] at hq_le
    cases x with
    | nil =>
      have hself : p ++ [] ++ [] = p := by rw [List.append_nil, List.append_nil]
      exact ⟨[], hself⟩
    | cons c x =>
      have hpos := c.utf8Size_pos
      rw [byteLen_cons] at hq_le
      omega
  · exact hqp

end CwTariWallet.Utf8
