/-
# CwTariWallet.CommitPoint -- failing before the write, or not at all

A computation that can fail runs over a state that outlives its failure, so what it wrote before it failed
stays.  It is all or nothing when a failure leaves the state alone and a success has done the whole write.
Steps that only compute may stand before the write (`AllOrNothing.after`); behind it they are all right
just if they succeed (`allOrNothing_commit`).
-/
import Mathlib.Logic.Basic

namespace CwTariWallet.CommitPoint

/-- A computation that can fail. -/
abbrev Fallible (σ ε : Type) := ExceptT ε (StateM σ)

variable {σ ε α β : Type}

/-- Its result and the state it leaves. -/
def exec (x : Fallible σ ε α) (s : σ) : Except ε α × σ := (x.run).run s

/-- A computation that only computes. -/
def attempt (r : Except ε α) : Fallible σ ε α := ExceptT.mk (Pure.pure r)

@[simp]
theorem exec_pure (a : α) (s : σ) : exec (Pure.pure a : Fallible σ ε α) s = (.ok a, s) := rfl

@[simp]
theorem exec_attempt (r : Except ε α) (s : σ) : exec (attempt r) s = (r, s) := rfl

/-- The first failure is the last thing that happens. -/
theorem exec_bind (x : Fallible σ ε α) (f : α → Fallible σ ε β) (s : σ) :
    exec (x >>= f) s =
      match exec x s with
      | (.error e, s') => (.error e, s')
      | (.ok a, s') => exec (f a) s' := by
  unfold exec
  rw [ExceptT.run_bind, StateT.run_bind]
  cases (x.run).run s with
  | mk r s' =>
    cases r with
    | error e => rfl
    | ok a => rfl

/-- Whatever happens, the state stays. -/
def Keeps (x : Fallible σ ε α) : Prop := ∀ s, (exec x s).2 = s

theorem Keeps.attempt (r : Except ε α) : Keeps (attempt r : Fallible σ ε α) := fun _ => rfl

theorem Keeps.pure (a : α) : Keeps (Pure.pure a : Fallible σ ε α) := fun _ => rfl

theorem Keeps.bind {x : Fallible σ ε α} {f : α → Fallible σ ε β} (hx : Keeps x) (hf : ∀ a, Keeps (f a)) :
    Keeps (x >>= f) := by
  intro s
  have hs := hx s
  rw [exec_bind]
  cases hexec : exec x s with
  | mk r s' =>
    rw [hexec] at hs
    cases r with
    | error e => exact hs
    | ok a =>
      show (exec (f a) s').2 = s
      rw [hf a s']
      exact hs

/-- A failure leaves the state alone, and a success takes it to where `W` says. -/
def AllOrNothing (W : σ → σ → Prop) (x : Fallible σ ε α) (s : σ) : Prop :=
  (∀ e, (exec x s).1 = .error e → (exec x s).2 = s) ∧ ∀ a, (exec x s).1 = .ok a → W s (exec x s).2

variable {W : σ → σ → Prop} {x : Fallible σ ε α} {f : α → Fallible σ ε β} {s s' : σ}

theorem allOrNothing_of_error {e : ε} (h : exec x s = (.error e, s)) : AllOrNothing W x s := by
  constructor
  · intro _ _
    rw [h]
  · intro a ha
    rw [h] at ha
    cases ha

theorem allOrNothing_of_ok {a : α} (h : exec x s = (.ok a, s')) (hW : W s s') : AllOrNothing W x s := by
  constructor
  · intro e he
    rw [h] at he
    cases he
  · intro _ _
    rw [h]
    exact hW

/-- A step that fails without a write. -/
theorem allOrNothing_bind_of_error {e : ε} (h : exec x s = (.error e, s)) : AllOrNothing W (x >>= f) s := by
  apply allOrNothing_of_error
  rw [exec_bind, h]

/-- A step that succeeds without a write. -/
theorem allOrNothing_bind_of_ok {a : α} (h : exec x s = (.ok a, s)) :
    AllOrNothing W (x >>= f) s ↔ AllOrNothing W (f a) s := by
  have hexec : exec (x >>= f) s = exec (f a) s := by rw [exec_bind, h]
  unfold AllOrNothing
  rw [hexec]

/-- What only computes may stand before. -/
theorem AllOrNothing.after (hx : Keeps x) (hf : ∀ a, AllOrNothing W (f a) s) : AllOrNothing W (x >>= f) s := by
  have hs := hx s
  cases hexec : exec x s with
  | mk r s' =>
    rw [hexec] at hs
    obtain rfl : s' = s := hs
    cases r with
    | error e => exact allOrNothing_bind_of_error hexec
    | ok a => exact (allOrNothing_bind_of_ok hexec).mpr (hf a)

/-- Behind the write, all is well just if nothing fails any more. -/
theorem allOrNothing_commit {a : α} (h : exec x s = (.ok a, s')) (hW : W s s') (hne : s' ≠ s)
    (hf : Keeps (f a)) : AllOrNothing W (x >>= f) s ↔ ∃ b, (exec (f a) s').1 = .ok b := by
  have hexec : exec (x >>= f) s = exec (f a) s' := by rw [exec_bind, h]
  have hs := hf s'
  cases hlast : exec (f a) s' with
  | mk r s'' =>
    rw [hlast] at hs
    obtain rfl : s'' = s' := hs
    rw [hlast] at hexec
    cases r with
    | error e =>
      constructor
      · intro hall
        have hkept := hall.1 e (by rw [hexec])
        rw [hexec] at hkept
        exact absurd hkept hne
      · rintro ⟨b, hb⟩
        cases hb
    | ok b =>
      constructor
      · intro _
        exact ⟨b, rfl⟩
      · intro _
        exact allOrNothing_of_ok hexec hW

end CwTariWallet.CommitPoint
