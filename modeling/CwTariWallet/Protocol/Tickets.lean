/-
# CwTariWallet.Protocol.Tickets -- numbers that are handed out once

A counter mints numbers; a minted number is put up for claiming, and whoever claims it takes it down.
However the calls interleave, no two calls ever hold the same number (`holder_unique`).
-/
import CwTariWallet.Interleaving

namespace CwTariWallet.TicketProtocol

open Interleaving

/-- The numbers put up, and the next number to mint. -/
structure View where
  issued : Nat → Prop
  next : Nat

inductive Phase where
  | out
  /-- Minted `id`, not put up yet. -/
  | minted (id : Nat)
  /-- Claimed `id`. -/
  | claimed (id : Nat)
  deriving DecidableEq, Repr

/-- The number a call holds. -/
def Phase.id : Phase → Option Nat
  | out => none
  | minted id | claimed id => some id

open Phase

inductive Step (c : CallId) : Phase → View → Phase → View → Prop
  /-- Something else; numbers may be withdrawn. -/
  | tick {p v i} : (∀ id, i id → v.issued id) → Step c p v p { v with issued := i }
  | mint {v} : Step c out v (minted v.next) { v with next := v.next + 1 }
  | issue {v id} : Step c (minted id) v out { v with issued := fun i => i = id ∨ v.issued i }
  | claim {v id} : v.issued id →
      Step c out v (claimed id) { v with issued := fun i => i ≠ id ∧ v.issued i }
  | finish {v id} : Step c (claimed id) v out v

def protocol : System View Phase where
  init v := v = ⟨fun _ => False, 0⟩
  start p := p = out
  step := Step

variable {ok : Guard View Phase} {s : Config View Phase}

/-- A number that is up, or held, was minted. -/
theorem lt_next (h : protocol.Reach ok s) :
    (∀ id, s.shared.issued id → id < s.shared.next) ∧
      ∀ c p id, s.calls c = some p → p.id = some id → id < s.shared.next := by
  refine h.invariant (I := fun s => (∀ id, s.shared.issued id → id < s.shared.next) ∧
    ∀ c p id, s.calls c = some p → p.id = some id → id < s.shared.next) ?_ ?_ ?_
  · rintro v rfl
    exact ⟨nofun, nofun⟩
  · rintro s c p _ ⟨hup, hheld⟩ _ _ rfl
    refine ⟨hup, fun d q id hd hq => ?_⟩
    rcases Config.put_calls_eq_some hd with ⟨_, rfl⟩ | ⟨_, hd⟩
    · cases hq
    · exact hheld d q id hd hq
  · rintro s c p p' v' _ ⟨hup, hheld⟩ _ hc hstep
    cases hstep with
    | tick hi =>
      refine ⟨fun id hid => hup id (hi id hid), fun d q id hd hq => ?_⟩
      rcases Config.put_calls_eq_some hd with ⟨_, rfl⟩ | ⟨_, hd⟩
      · exact hheld c _ id hc hq
      · exact hheld d q id hd hq
    | mint =>
      refine ⟨fun id hid => Nat.lt_succ_of_lt (hup id hid), fun d q id hd hq => ?_⟩
      rcases Config.put_calls_eq_some hd with ⟨_, rfl⟩ | ⟨_, hd⟩
      · obtain rfl := Option.some.inj hq
        exact Nat.lt_succ_self _
      · exact Nat.lt_succ_of_lt (hheld d q id hd hq)
    | issue =>
      refine ⟨fun id hid => ?_, fun d q id hd hq => ?_⟩
      · rcases hid with rfl | hid
        · exact hheld c _ id hc rfl
        · exact hup id hid
      rcases Config.put_calls_eq_some hd with ⟨_, rfl⟩ | ⟨_, hd⟩
      · cases hq
      · exact hheld d q id hd hq
    | claim hid =>
      refine ⟨fun id hi => hup id hi.2, fun d q id hd hq => ?_⟩
      rcases Config.put_calls_eq_some hd with ⟨_, rfl⟩ | ⟨_, hd⟩
      · obtain rfl := Option.some.inj hq
        exact hup _ hid
      · exact hheld d q id hd hq
    | finish =>
      refine ⟨hup, fun d q id hd hq => ?_⟩
      rcases Config.put_calls_eq_some hd with ⟨_, rfl⟩ | ⟨_, hd⟩
      · cases hq
      · exact hheld d q id hd hq

/-- A number a call holds is not up, and no other call holds it. -/
def Sole (s : Config View Phase) : Prop :=
  ∀ c p id, s.calls c = some p → p.id = some id →
    ¬ s.shared.issued id ∧ ∀ d q, s.calls d = some q → q.id = some id → d = c

theorem sole (h : protocol.Reach ok s) : Sole s := by
  refine h.invariant (I := Sole) ?_ ?_ ?_
  · rintro v rfl c p id hc
    cases hc
  · rintro s c p _ ih _ _ rfl d q id hd hq
    rcases Config.put_calls_eq_some hd with ⟨_, rfl⟩ | ⟨_, hd⟩
    · cases hq
    refine ⟨(ih d q id hd hq).1, fun e r he hr => ?_⟩
    rcases Config.put_calls_eq_some he with ⟨_, rfl⟩ | ⟨_, he⟩
    · cases hr
    · exact (ih d q id hd hq).2 e r he hr
  · rintro s c p p' v' hs ih _ hc hstep
    obtain ⟨hup, hheld⟩ := lt_next hs
    -- A holder other than the mover was one before, and the only one.
    have hold : ∀ d q id, d ≠ c → s.calls d = some q → q.id = some id →
        ¬ s.shared.issued id ∧ p.id ≠ some id ∧
          ∀ e r, e ≠ c → s.calls e = some r → r.id = some id → e = d := by
      intro d q id hne hd hq
      refine ⟨(ih d q id hd hq).1, fun hp => hne ((ih d q id hd hq).2 c p hc hp).symm, ?_⟩
      exact fun e r _ he hr => (ih d q id hd hq).2 e r he hr
    -- So it is enough that the mover takes no number that is held, and puts none up.
    suffices hmover : (∀ id, p'.id = some id → ¬ v'.issued id ∧
        ∀ d q, d ≠ c → s.calls d = some q → q.id ≠ some id) ∧
        ∀ d q id, d ≠ c → s.calls d = some q → q.id = some id → ¬ v'.issued id by
      intro d q id hd' hq
      rcases Config.put_calls_eq_some hd' with ⟨rfl, rfl⟩ | ⟨hne, hd⟩
      · refine ⟨(hmover.1 id hq).1, fun e r he hr => ?_⟩
        rcases Config.put_calls_eq_some he with ⟨rfl, _⟩ | ⟨hec, he⟩
        · rfl
        · exact absurd hr ((hmover.1 id hq).2 e r hec he)
      · refine ⟨hmover.2 d q id hne hd hq, fun e r he hr => ?_⟩
        rcases Config.put_calls_eq_some he with ⟨rfl, rfl⟩ | ⟨hec, he⟩
        · exact absurd hq ((hmover.1 id hr).2 d q hne hd)
        · exact (hold d q id hne hd hq).2.2 e r hec he hr
    cases hstep with
    | tick hi =>
      refine ⟨fun id hp => ⟨fun hid => (ih c _ id hc hp).1 (hi id hid), fun d q hne hd hq => ?_⟩, ?_⟩
      · exact hne ((ih c _ id hc hp).2 d q hd hq)
      · exact fun d q id hne hd hq hid => (hold d q id hne hd hq).1 (hi id hid)
    | mint =>
      refine ⟨fun id hp => ?_, fun d q id hne hd hq => (hold d q id hne hd hq).1⟩
      obtain rfl := Option.some.inj hp
      refine ⟨fun hid => Nat.lt_irrefl _ (hup _ hid), fun d q _ hd hq => ?_⟩
      exact Nat.lt_irrefl _ (hheld d q _ hd hq)
    | issue =>
      refine ⟨nofun, fun d q id hne hd hq hid => ?_⟩
      rcases hid with rfl | hid
      · exact (hold d q _ hne hd hq).2.1 rfl
      · exact (hold d q id hne hd hq).1 hid
    | claim hid =>
      refine ⟨fun id hp => ?_, fun d q id hne hd hq hi => (hold d q id hne hd hq).1 hi.2⟩
      obtain rfl := Option.some.inj hp
      exact ⟨fun hi => hi.1 rfl, fun d q hne hd hq => (hold d q _ hne hd hq).1 hid⟩
    | finish => exact ⟨nofun, fun d q id hne hd hq => (hold d q id hne hd hq).1⟩

/-- Two calls that hold the same number are one. -/
theorem holder_unique (h : protocol.Reach ok s) {c d : CallId} {p q : Phase} {id : Nat}
    (hc : s.calls c = some p) (hp : p.id = some id) (hd : s.calls d = some q)
    (hq : q.id = some id) : c = d :=
  (sole h d q id hd hq).2 c p hc hp

/-! ## Numbers that are used up -/

/-- A number that was minted and put up, and is up no more. -/
structure Spent (s : Config View Phase) (id : Nat) : Prop where
  handedOut : id < s.shared.next
  down : ¬ s.shared.issued id
  published : ∀ c, s.calls c ≠ some (minted id)

/-- It never comes up again. -/
theorem Spent.move {id : Nat} (h : Spent s id) {e : Event Phase} {t : Config View Phase}
    (hmove : protocol.Move e s t) : Spent t id := by
  obtain ⟨hlt, hdown, hpublished⟩ := h
  cases hmove with
  | @start _ c p hc hp =>
    obtain rfl : p = out := hp
    refine ⟨hlt, hdown, fun d hd => ?_⟩
    rcases Config.put_calls_eq_some hd with ⟨-, hout⟩ | ⟨-, hd⟩
    · cases hout
    · exact hpublished d hd
  | @step _ c p p' v' hc hstep =>
    -- Only a new number is minted, and only a minted one is put up.
    have hold : p' ≠ minted id → ∀ d, (s.put c p' v').calls d ≠ some (minted id) := by
      intro hp' d hd
      rcases Config.put_calls_eq_some hd with ⟨-, hmover⟩ | ⟨-, hd⟩
      · exact hp' hmover.symm
      · exact hpublished d hd
    cases hstep with
    | tick hi =>
      refine ⟨hlt, fun hup => hdown (hi id hup), hold ?_⟩
      rintro rfl
      exact hpublished c hc
    | mint =>
      refine ⟨Nat.lt_succ_of_lt hlt, hdown, hold fun heq => ?_⟩
      obtain rfl := Phase.minted.inj heq
      exact absurd hlt (Nat.lt_irrefl _)
    | @issue _ id' =>
      refine ⟨hlt, fun hup => ?_, hold nofun⟩
      rcases hup with rfl | hup
      · exact hpublished c hc
      · exact hdown hup
    | claim hid =>
      exact ⟨hlt, fun hup => hdown hup.2, hold nofun⟩
    | finish => exact ⟨hlt, hdown, hold nofun⟩

/-- A number that is claimed is used up. -/
theorem spent_of_claimed (h : protocol.Reach ok s) {c : CallId} {id : Nat}
    (hc : s.calls c = some (claimed id)) : Spent s id where
  handedOut := (lt_next h).2 c (claimed id) id hc rfl
  down := (sole h c (claimed id) id hc rfl).1
  published d hd := by
    obtain rfl := (sole h c (claimed id) id hc rfl).2 d (minted id) hd rfl
    rw [hc] at hd
    cases hd

/-- A number that is up is held by nobody. -/
theorem free_of_issued (h : protocol.Reach ok s) {id : Nat} (hid : s.shared.issued id) :
    id < s.shared.next ∧ ∀ c p, s.calls c = some p → p.id ≠ some id :=
  ⟨(lt_next h).1 id hid, fun c p hc hp => (sole h c p id hc hp).1 hid⟩

end CwTariWallet.TicketProtocol
