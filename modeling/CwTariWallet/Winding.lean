/-
# CwTariWallet.Winding -- how long the calls in flight can go on

A call's *rank* bounds the work it still has to do: a step that is work lowers it, a step that is idling
does not raise it.  Once no call starts any more, the steps of work are at most the ranks of the calls
added up, whatever their order (`Winds.le_sum`); and a system that can always do work until it is at rest
comes to rest (`Winds.exists_rest`).  Nothing here knows what the calls are.
-/
import CwTariWallet.Interleaving
import Mathlib.Algebra.Order.BigOperators.Group.Finset

namespace CwTariWallet.Interleaving

variable {Shared Local : Type}

/-- What a call does in one step, from where it stands to where it stands next. -/
abbrev StepRel (Shared Local : Type) := CallId → Local → Shared → Local → Shared → Prop

/-- A schedule from `s` that starts no call, with `n` steps of work among its steps. -/
inductive Winds (work idle : StepRel Shared Local) (s : Config Shared Local) :
    Nat → Config Shared Local → Prop
  | refl : Winds work idle s 0 s
  | work {n : Nat} {t : Config Shared Local} {c : CallId} {l l' : Local} {σ' : Shared} :
      Winds work idle s n t → t.calls c = some l → work c l t.shared l' σ' →
      Winds work idle s (n + 1) (t.put c l' σ')
  | idle {n : Nat} {t : Config Shared Local} {c : CallId} {l l' : Local} {σ' : Shared} :
      Winds work idle s n t → t.calls c = some l → idle c l t.shared l' σ' →
      Winds work idle s n (t.put c l' σ')

/-- `rank` bounds the work a call still has to do. -/
structure Ranked (work idle : StepRel Shared Local) (rank : Local → Nat) : Prop where
  work : ∀ {c l σ l' σ'}, work c l σ l' σ' → rank l' < rank l
  idle : ∀ {c l σ l' σ'}, idle c l σ l' σ' → rank l' ≤ rank l

namespace Config

/-- The rank of call `c`, with none for a call never made. -/
def rankOf (rank : Local → Nat) (s : Config Shared Local) (c : CallId) : Nat :=
  (s.calls c).elim 0 rank

@[simp]
theorem rankOf_of_call {rank : Local → Nat} {s : Config Shared Local} {c : CallId} {l : Local}
    (hc : s.calls c = some l) : s.rankOf rank c = rank l := by
  simp [rankOf, hc]

@[simp]
theorem rankOf_put_self (rank : Local → Nat) (s : Config Shared Local) (c : CallId) (l : Local) (σ : Shared) :
    (s.put c l σ).rankOf rank c = rank l := by
  simp [rankOf]

theorem rankOf_put_ne (rank : Local → Nat) (s : Config Shared Local) {c d : CallId} (l : Local) (σ : Shared)
    (h : d ≠ c) : (s.put c l σ).rankOf rank d = s.rankOf rank d := by
  simp [rankOf, put_calls_ne _ _ _ h]

/-- The calls made so far are the ones of `made`. -/
def Made (s : Config Shared Local) (made : Finset CallId) : Prop :=
  ∀ c, c ∈ made ↔ (s.calls c).isSome = true

theorem Made.put {s : Config Shared Local} {made : Finset CallId} (h : s.Made made) {c : CallId} {l l' : Local}
    {σ : Shared} (hc : s.calls c = some l) : (s.put c l' σ).Made made := by
  intro d
  by_cases hd : d = c
  · subst hd
    simp [h d, hc]
  · rw [put_calls_ne _ _ _ hd]
    exact h d

/-- The ranks added up before and after a call moved differ by what its own rank lost. -/
theorem sum_rankOf_put (rank : Local → Nat) {s : Config Shared Local} {made : Finset CallId} (h : s.Made made)
    {c : CallId} {l : Local} (l' : Local) (σ : Shared) (hc : s.calls c = some l) :
    (∑ d ∈ made, (s.put c l' σ).rankOf rank d) + rank l = (∑ d ∈ made, s.rankOf rank d) + rank l' := by
  have hmem : c ∈ made := by
    rw [h c, hc]
    rfl
  have hothers : ∑ d ∈ made.erase c, (s.put c l' σ).rankOf rank d = ∑ d ∈ made.erase c, s.rankOf rank d :=
    Finset.sum_congr rfl fun d hd => rankOf_put_ne rank s l' σ (Finset.ne_of_mem_erase hd)
  have hafter := Finset.add_sum_erase made (fun d => (s.put c l' σ).rankOf rank d) hmem
  have hbefore := Finset.add_sum_erase made (fun d => s.rankOf rank d) hmem
  rw [rankOf_put_self] at hafter
  rw [rankOf_of_call hc] at hbefore
  omega

end Config

/-- Finitely many calls have been made. -/
theorem System.Reach.exists_made {S : System Shared Local} {ok : Guard Shared Local} {s : Config Shared Local}
    (h : S.Reach ok s) : ∃ made, s.Made made := by
  refine h.invariant (I := fun s => ∃ made, s.Made made) ?_ ?_ ?_
  · intro σ _
    exact ⟨∅, fun c => by simp⟩
  · rintro s c l _ ⟨made, hmade⟩ _ _ _
    refine ⟨insert c made, fun d => ?_⟩
    by_cases hd : d = c
    · subst hd
      simp
    · rw [Finset.mem_insert, Config.put_calls_ne _ _ _ hd, ← hmade d]
      simp [hd]
  · rintro s c l l' σ' _ ⟨made, hmade⟩ _ hc _
    exact ⟨made, hmade.put hc⟩

namespace Winds

variable {work idle : StepRel Shared Local} {rank : Local → Nat} {s t : Config Shared Local} {n : Nat}
  {made : Finset CallId}

/-- The same calls are there in the end. -/
theorem made_of_made (h : Winds work idle s n t) (hs : s.Made made) : t.Made made := by
  induction h with
  | refl => exact hs
  | work _ hc _ ih => exact ih.put hc
  | idle _ hc _ ih => exact ih.put hc

/-- It is a segment of a schedule of any system whose steps these are. -/
theorem steps {S : System Shared Local} {ok : Guard Shared Local} (hok : ∀ c s, ok (.step c) s)
    (hwork : ∀ {c l σ l' σ'}, work c l σ l' σ' → S.step c l σ l' σ')
    (hidle : ∀ {c l σ l' σ'}, idle c l σ l' σ' → S.step c l σ l' σ')
    (h : Winds work idle s n t) : S.Steps ok s t := by
  induction h with
  | refl => exact .refl
  | work _ hc hst ih => exact ih.move (hok _ _) (.step hc (hwork hst))
  | idle _ hc hst ih => exact ih.move (hok _ _) (.step hc (hidle hst))

/-- The work done and the work still to do are at most what there was to do. -/
theorem add_sum_le (hrank : Ranked work idle rank) (hs : s.Made made) (h : Winds work idle s n t) :
    n + ∑ c ∈ made, t.rankOf rank c ≤ ∑ c ∈ made, s.rankOf rank c := by
  induction h with
  | refl => omega
  | @work n t c l l' σ' hst hc hwork ih =>
    have hless := hrank.work hwork
    have hsum := Config.sum_rankOf_put rank (hst.made_of_made hs) l' σ' hc
    omega
  | @idle n t c l l' σ' hst hc hidle ih =>
    have hless := hrank.idle hidle
    have hsum := Config.sum_rankOf_put rank (hst.made_of_made hs) l' σ' hc
    omega

/-- The work of a schedule is at most what its calls had to do. -/
theorem le_sum (hrank : Ranked work idle rank) (hs : s.Made made) (h : Winds work idle s n t) :
    n ≤ ∑ c ∈ made, s.rankOf rank c :=
  Nat.le_trans (Nat.le_add_right _ _) (h.add_sum_le hrank hs)

/-- No call has more to do than `k`, so the work is at most that for each of them. -/
theorem le_card_mul {k : Nat} (hrank : Ranked work idle rank) (hk : ∀ l, rank l ≤ k) (hs : s.Made made)
    (h : Winds work idle s n t) : n ≤ made.card * k := by
  have hranks : ∑ c ∈ made, s.rankOf rank c ≤ ∑ _c ∈ made, k := by
    refine Finset.sum_le_sum fun c _ => ?_
    cases hc : s.calls c with
    | none => simp [Config.rankOf, hc]
    | some l =>
      rw [Config.rankOf_of_call hc]
      exact hk l
  rw [Finset.sum_const_nat fun _ _ => rfl] at hranks
  exact Nat.le_trans (h.le_sum hrank hs) hranks

/-- Calls that can always do work until all is at rest come to rest. -/
theorem exists_rest {rest : Config Shared Local → Prop} (hrank : Ranked work idle rank) (hs : s.Made made)
    (hprogress : ∀ {n t}, Winds work idle s n t → rest t ∨ ∃ t', Winds work idle s (n + 1) t') :
    ∃ n t, Winds work idle s n t ∧ rest t := by
  by_contra hnone
  -- else there is a schedule with any amount of work
  have hall : ∀ n, ∃ t, Winds work idle s n t := by
    intro n
    induction n with
    | zero => exact ⟨s, .refl⟩
    | succ n ih =>
      obtain ⟨t, ht⟩ := ih
      rcases hprogress ht with hrest | hmore
      · exact absurd ⟨n, t, ht, hrest⟩ hnone
      · exact hmore
  obtain ⟨t, ht⟩ := hall (∑ c ∈ made, s.rankOf rank c + 1)
  have hbound := ht.le_sum hrank hs
  omega

end Winds

end CwTariWallet.Interleaving
