/-
# CwTariWallet.LongestMatch -- of the entries that match, the longest, and the last of equals

A list of keyed entries is gone through from the front, and an entry that matches takes over when it is
at least as long as the one before (`pick`).  What is left at the end is the entry that `Wins`: no
matching entry is longer, and no later one is as long.
-/
import Mathlib.Data.List.Induction

namespace CwTariWallet.LongestMatch

variable {K V : Type} (hits : K → Bool) (len : K → Nat)

/-- One turn: the value picked so far, with the length of its key. -/
def turn (best : Option V × Nat) (entry : K × V) : Option V × Nat :=
  if hits entry.1 && decide (best.2 ≤ len entry.1) then (some entry.2, len entry.1) else best

def pick (entries : List (K × V)) : Option V := (entries.foldl (turn hits len) (none, 0)).1

/-- Between `before` and `after`, the key `k` is the longest that hits, and the last of its length. -/
structure Wins (before : List (K × V)) (k : K) (after : List (K × V)) : Prop where
  hit : hits k = true
  longest : ∀ e ∈ before, hits e.1 = true → len e.1 ≤ len k
  last : ∀ e ∈ after, hits e.1 = true → len e.1 < len k

variable {hits len}

/-- Nothing that hits is longer than the winner. -/
theorem Wins.le {before after : List (K × V)} {k : K} {v : V} (h : Wins hits len before k after)
    {e : K × V} (he : e ∈ before ++ (k, v) :: after) (hhit : hits e.1 = true) : len e.1 ≤ len k := by
  rcases List.mem_append.mp he with he | he
  · exact h.longest e he hhit
  · rcases List.mem_cons.mp he with rfl | he
    · exact Nat.le_refl _
    · exact Nat.le_of_lt (h.last e he hhit)

/-- What the turns come to: nothing has hit, or the winner is picked. -/
theorem foldl_turn_cases (hits : K → Bool) (len : K → Nat) (entries : List (K × V)) :
    (entries.foldl (turn hits len) (none, 0) = (none, 0) ∧ ∀ e ∈ entries, hits e.1 = false) ∨
      ∃ before k v after, entries = before ++ (k, v) :: after ∧ Wins hits len before k after ∧
        entries.foldl (turn hits len) (none, 0) = (some v, len k) := by
  induction entries using List.reverseRecOn with
  | nil => exact Or.inl ⟨rfl, fun _ he => by cases he⟩
  | append_singleton entries e ih =>
    obtain ⟨k', v'⟩ := e
    rw [List.foldl_append, List.foldl_cons, List.foldl_nil]
    by_cases hhit : hits k' = true
    · right
      rcases ih with ⟨hfold, hnone⟩ | ⟨before, k, v, after, rfl, hwins, hfold⟩
      · refine ⟨entries, k', v', [], rfl, ⟨hhit, fun e he h => ?_, fun _ he => by cases he⟩, ?_⟩
        · rw [hnone e he] at h
          cases h
        · simp [hfold, turn, hhit]
      · by_cases hlen : len k ≤ len k'
        · refine ⟨before ++ (k, v) :: after, k', v', [], rfl,
            ⟨hhit, fun e he h => ?_, fun _ he => by cases he⟩, ?_⟩
          · exact Nat.le_trans (hwins.le he h) hlen
          · simp [hfold, turn, hhit, hlen]
        · refine ⟨before, k, v, after ++ [(k', v')], by simp, ⟨hwins.hit, hwins.longest, ?_⟩, ?_⟩
          · intro e he h
            rcases List.mem_append.mp he with he | he
            · exact hwins.last e he h
            · obtain rfl := List.mem_singleton.mp he
              exact Nat.lt_of_not_le hlen
          · simp [hfold, turn, hlen]
    · have hkeep (best : Option V × Nat) : turn hits len best (k', v') = best := by
        simp [turn, hhit]
      rw [hkeep]
      rcases ih with ⟨hfold, hnone⟩ | ⟨before, k, v, after, rfl, hwins, hfold⟩
      · refine Or.inl ⟨hfold, fun e he => ?_⟩
        rcases List.mem_append.mp he with he | he
        · exact hnone e he
        · obtain rfl := List.mem_singleton.mp he
          simpa using hhit
      · refine Or.inr ⟨before, k, v, after ++ [(k', v')], by simp, ⟨hwins.hit, hwins.longest, ?_⟩, hfold⟩
        intro e he h
        rcases List.mem_append.mp he with he | he
        · exact hwins.last e he h
        · obtain rfl := List.mem_singleton.mp he
          exact absurd h hhit

/-- Something is picked as soon as one entry hits, and it is the winner. -/
theorem pick_of_hit (len : K → Nat) {entries : List (K × V)} {e : K × V} (he : e ∈ entries)
    (hhit : hits e.1 = true) :
    ∃ before k v after, entries = before ++ (k, v) :: after ∧ Wins hits len before k after ∧
      pick hits len entries = some v := by
  rcases foldl_turn_cases hits len entries with ⟨-, hnone⟩ |
    ⟨before, k, v, after, hsplit, hwins, hfold⟩
  · rw [hnone e he] at hhit
    cases hhit
  · exact ⟨before, k, v, after, hsplit, hwins, by rw [pick, hfold]⟩

/-- Once a winner is picked, the rest is gone through in vain. -/
theorem foldl_turn_of_shorter {k : K} {v : V} {after : List (K × V)}
    (h : ∀ e ∈ after, hits e.1 = true → len e.1 < len k) :
    after.foldl (turn hits len) (some v, len k) = (some v, len k) := by
  induction after with
  | nil => rfl
  | cons e after ih =>
    have hkeep : turn hits len (some v, len k) e = (some v, len k) := by
      by_cases hhit : hits e.1 = true
      · have hlt := h e List.mem_cons_self hhit
        have hnot : ¬ len k ≤ len e.1 := Nat.not_le_of_lt hlt
        simp [turn, hnot]
      · simp [turn, hhit]
    rw [List.foldl_cons, hkeep]
    exact ih fun e he => h e (List.mem_cons_of_mem _ he)

/-- The winner is picked. -/
theorem pick_of_wins {before after : List (K × V)} {k : K} {v : V}
    (h : Wins hits len before k after) : pick hits len (before ++ (k, v) :: after) = some v := by
  have hle : (before.foldl (turn hits len) (none, 0)).2 ≤ len k := by
    rcases foldl_turn_cases hits len before with ⟨hfold, -⟩ |
      ⟨before', k', v', after', rfl, hwins, hfold⟩
    · simp [hfold]
    · rw [hfold]
      exact h.longest (k', v') (by simp) hwins.hit
  rw [pick, List.foldl_append, List.foldl_cons]
  rw [show turn hits len (before.foldl (turn hits len) (none, 0)) (k, v) = (some v, len k) by
    simp [turn, h.hit, hle]]
  rw [foldl_turn_of_shorter h.last]

end CwTariWallet.LongestMatch
