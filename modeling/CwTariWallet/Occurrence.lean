/-
# CwTariWallet.Occurrence -- the first occurrence of a word, and rewriting in context

A list is searched from the front for a word (`cut`): what is found is the first occurrence, since no
other one ends as early (`IsFirst`).  A rewriting in context (`mapInContext`) says element by element what
becomes of a list, where an element may look at all that stands before it and all that follows.
-/
import Mathlib.Data.List.Basic
import Mathlib.Data.List.Infix

namespace CwTariWallet.Occurrence

/-! ## The first occurrence -/

section Search

variable {α : Type} {word p s xs : List α}

/-- `word` does not end within `p ++ word` before its end. -/
def IsFirst (word p : List α) : Prop := ∀ x y, p ++ word = x ++ word ++ y → y = []

theorem IsFirst.tail {a : α} (h : IsFirst word (a :: p)) : IsFirst word p := by
  intro x y hxy
  apply h (a :: x) y
  rw [List.cons_append, hxy, List.cons_append, List.cons_append]

/-- Of two occurrences of which one is first, the other ends no earlier. -/
theorem IsFirst.length_le (h : IsFirst word p) {x y : List α} (hxy : p ++ word ++ s = x ++ word ++ y) :
    p.length ≤ x.length := by
  by_contra hlt
  have hle : (x ++ word).length ≤ (p ++ word).length := by
    simp only [List.length_append]
    omega
  -- what is left of `p ++ word` after the other occurrence
  have hown : p ++ word <+: p ++ word ++ s := List.prefix_append _ _
  have hother : x ++ word <+: p ++ word ++ s := by
    rw [hxy]
    exact List.prefix_append _ _
  obtain ⟨y', hy'⟩ := List.prefix_of_prefix_length_le hother hown hle
  have hnil : y' = [] := h x y' hy'.symm
  have hlen := congrArg List.length hy'
  rw [hnil] at hlen
  simp only [List.length_append, List.length_nil] at hlen
  omega

variable [DecidableEq α]

/-- What stands before the first `word` of a list, and what after it. -/
def cut (word : List α) : List α → Option (List α × List α)
  | [] => if word = [] then some ([], []) else none
  | a :: rest =>
    if word <+: a :: rest then some ([], (a :: rest).drop word.length)
    else (cut word rest).map fun parts => (a :: parts.1, parts.2)

/-- The first occurrence is the one that is found, whatever follows it. -/
theorem cut_of_isFirst (h : IsFirst word p) (s : List α) : cut word (p ++ word ++ s) = some (p, s) := by
  induction p with
  | nil =>
    have hword : word <+: word ++ s := List.prefix_append word s
    rw [List.nil_append]
    cases hws : word ++ s with
    | nil =>
      obtain ⟨rfl, rfl⟩ := List.append_eq_nil_iff.mp hws
      rfl
    | cons a rest =>
      rw [hws] at hword
      rw [cut, if_pos hword, ← hws, List.drop_left]
  | cons a p ih =>
    have hlater : ¬ word <+: a :: (p ++ word ++ s) := by
      intro ⟨y, hy⟩
      have hle := h.length_le (s := s) (x := []) (y := y) hy.symm
      exact absurd hle (by simp)
    rw [List.cons_append, List.cons_append, cut, if_neg hlater, ih h.tail]
    rfl

/-- What is found is the first occurrence. -/
theorem cut_eq_some (h : cut word xs = some (p, s)) : xs = p ++ word ++ s ∧ IsFirst word p := by
  induction xs generalizing p with
  | nil =>
    rw [cut] at h
    split at h
    next hword =>
      cases h
      subst hword
      exact ⟨rfl, fun x y hxy => (List.append_eq_nil_iff.mp hxy.symm).2⟩
    next => cases h
  | cons a rest ih =>
    rw [cut] at h
    split at h
    next hword =>
      cases h
      obtain ⟨y, hy⟩ := hword
      constructor
      · rw [← hy, List.drop_left]
        rfl
      · intro x y' hxy
        have hlen := congrArg List.length hxy
        simp only [List.length_append, List.length_nil] at hlen
        exact List.length_eq_zero_iff.mp (by omega)
    next hword =>
      obtain ⟨⟨p', s'⟩, hcut, hparts⟩ := Option.map_eq_some_iff.mp h
      cases hparts
      obtain ⟨hsplit, hfirst⟩ := ih hcut
      constructor
      · rw [hsplit]
        rfl
      · intro x y hxy
        cases x with
        | nil =>
          -- an occurrence at the very front was looked for and not found
          exfalso
          apply hword
          rw [hsplit, ← List.cons_append, ← List.cons_append]
          change word <+: a :: p' ++ word ++ s'
          rw [hxy, List.nil_append, List.append_assoc]
          exact List.prefix_append _ _
        | cons b x =>
          rw [List.cons_append, List.cons_append, List.cons_append, List.cons.injEq] at hxy
          exact hfirst x y hxy.2

/-- Where nothing is found there is no occurrence. -/
theorem cut_eq_none (h : cut word xs = none) (x y : List α) : xs ≠ x ++ word ++ y := by
  induction xs generalizing x with
  | nil =>
    intro hxy
    obtain ⟨hxw, -⟩ := List.append_eq_nil_iff.mp hxy.symm
    obtain ⟨-, hword⟩ := List.append_eq_nil_iff.mp hxw
    rw [cut, if_pos hword] at h
    cases h
  | cons a rest ih =>
    rw [cut] at h
    split at h
    next => cases h
    next hword =>
      intro hxy
      cases x with
      | nil =>
        apply hword
        rw [hxy, List.nil_append]
        exact List.prefix_append _ _
      | cons b x =>
        rw [List.cons_append, List.cons_append, List.cons.injEq] at hxy
        exact ih (Option.map_eq_none_iff.mp h) x hxy.2

end Search

/-! ## Rewriting in context -/

section Context

variable {α β : Type}

/-- Every element becomes what `f` makes of it, given what stands before it and what from it on. -/
def mapInContext (f : List α → List α → List β) : List α → List α → List β
  | _, [] => []
  | before, a :: rest => f before (a :: rest) ++ mapInContext f (before ++ [a]) rest

/-- Over a stretch where the context does not matter, element by element. -/
theorem mapInContext_append {f : List α → List α → List β} {g : α → List β} {before xs rest : List α}
    (h : ∀ x a y, xs = x ++ a :: y → f (before ++ x) (a :: y ++ rest) = g a) :
    mapInContext f before (xs ++ rest) = xs.flatMap g ++ mapInContext f (before ++ xs) rest := by
  induction xs generalizing before with
  | nil => rw [List.nil_append, List.flatMap_nil, List.nil_append, List.append_nil]
  | cons b xs ih =>
    have hhead := h [] b xs rfl
    rw [List.append_nil] at hhead
    have htail : mapInContext f (before ++ [b]) (xs ++ rest) =
        xs.flatMap g ++ mapInContext f (before ++ [b] ++ xs) rest := by
      apply ih
      intro x a y hxy
      rw [List.append_assoc]
      apply h (b :: x) a y
      rw [hxy, List.cons_append]
    rw [List.cons_append, mapInContext, ← List.cons_append, hhead, htail, List.append_assoc,
      List.flatMap_cons, List.append_assoc]
    rfl

/-- A stretch whose elements stay as they are. -/
theorem mapInContext_keep {f : List α → List α → List α} {before xs rest : List α}
    (h : ∀ x a y, xs = x ++ a :: y → f (before ++ x) (a :: y ++ rest) = [a]) :
    mapInContext f before (xs ++ rest) = xs ++ mapInContext f (before ++ xs) rest := by
  rw [mapInContext_append h, List.flatMap_singleton']

/-- A stretch whose elements go. -/
theorem mapInContext_drop {f : List α → List α → List β} {before xs rest : List α}
    (h : ∀ x a y, xs = x ++ a :: y → f (before ++ x) (a :: y ++ rest) = []) :
    mapInContext f before (xs ++ rest) = mapInContext f (before ++ xs) rest := by
  rw [mapInContext_append h, List.flatMap_eq_nil_iff.mpr fun _ _ => rfl, List.nil_append]

end Context

end CwTariWallet.Occurrence
