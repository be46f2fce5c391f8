/-
# CwTariWallet.WaitGraph -- who waits for whom

A relation `R a b`, "`a` waits for `b`".  What a deadlock needs is a chain of waits without an end, a
cycle for instance; `Unwinds R a` says that every chain from `a` comes to one.  The facts here are the ones
an interleaving needs of it: fewer waits end as well, waits of someone nobody waits for keep everybody's
chains ending, and at the end of a chain there is someone who waits for nobody.
-/
import Mathlib.Logic.Relation

namespace CwTariWallet.WaitGraph

variable {α : Type*} {R R' : α → α → Prop} {a m : α}

/-- Every chain of waits from `a` comes to an end. -/
def Unwinds (R : α → α → Prop) (a : α) : Prop := Acc (fun b c => R c b) a

theorem Unwinds.intro (h : ∀ b, R a b → Unwinds R b) : Unwinds R a := Acc.intro a h

theorem Unwinds.next (h : Unwinds R a) {b : α} (hab : R a b) : Unwinds R b := Acc.inv h hab

/-- Someone who waits for nobody. -/
theorem Unwinds.of_free (h : ∀ b, ¬ R a b) : Unwinds R a := .intro fun b hab => absurd hab (h b)

theorem Unwinds.mono (hsub : ∀ a b, R' a b → R a b) (h : Unwinds R a) : Unwinds R' a :=
  Subrelation.accessible (fun {b c} hbc => hsub c b hbc) h

/-- Nobody waits for `m`: whatever `m` itself starts to wait for, the chains of the others end as
before. -/
theorem Unwinds.of_fresh (hsub : ∀ a b, R' a b → R a b ∨ a = m) (hfresh : ∀ a, ¬ R' a m) (ha : a ≠ m)
    (h : Unwinds R a) : Unwinds R' a := by
  induction h with
  | intro a _ ih =>
    apply Unwinds.intro
    intro b hab
    have hb : b ≠ m := by
      rintro rfl
      exact hfresh a hab
    rcases hsub a b hab with hold | rfl
    · exact ih b hold hb
    · exact absurd rfl ha

/-- Nobody on a chain that ends waits for himself. -/
theorem Unwinds.not_cycle (h : Unwinds R a) : ¬ Relation.TransGen R a a := by
  induction h with
  | intro a _ ih =>
    intro hcycle
    -- The cycle goes on through whomever `a` waits for.
    obtain ⟨b, hab, hba⟩ := Relation.TransGen.head'_iff.mp hcycle
    exact ih b hab (Relation.TransGen.tail' hba hab)

/-- At the end of a chain stands someone who waits for nobody; what goes from each to the one it waits
for holds there. -/
theorem Unwinds.exists_free {P : α → Prop} (hP : ∀ b c, P b → R b c → P c) (h : Unwinds R a) (ha : P a) :
    ∃ b, Relation.ReflTransGen R a b ∧ P b ∧ ∀ c, ¬ R b c := by
  induction h with
  | intro a _ ih =>
    by_cases hfree : ∀ c, ¬ R a c
    · exact ⟨a, .refl, ha, hfree⟩
    · obtain ⟨c, hac⟩ := Classical.not_forall_not.mp hfree
      obtain ⟨b, hcb, hb, hlast⟩ := ih c hac (hP a c ha hac)
      exact ⟨b, .head hac hcb, hb, hlast⟩

end CwTariWallet.WaitGraph
