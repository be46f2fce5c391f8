/-
# CwTariWallet.Bridge.Waiting -- what a call waits for, and who can end the wait

A call waits for a wallet's gate, for a wallet's maintenance lock, or for a scan's `stopped` token; the
guards of `DB_STATE` and `SCAN_STATE` never outlive an atomic step, so nobody waits for them between two.
The order that keeps the waits from closing a circle: whoever has a gate waits for nothing, whoever has a
maintenance lock waits for no other, a scan past its slot waits only for the scan it replaced, and no scan
replaces one that came after it (`no_deadlock`).
-/
import CwTariWallet.Bridge.ScanStops
import CwTariWallet.Bridge.KeyRefinement
import CwTariWallet.WaitGraph

namespace CwTariWallet

open Interleaving WaitGraph

/-! ## Positions that wait -/

/-- What a call can wait for. -/
inductive Awaited where
  /-- The wallet's gate of `UNLOCK_GATES`. -/
  | gate (walletName : WalletName)
  /-- The wallet's lock of `MAINTENANCE`. -/
  | maintenance (walletName : WalletName)
  /-- The `stopped` token of a scan. -/
  | stopped (scan : CallId)
  deriving DecidableEq, Repr

def GateAt.awaits (w : WalletName) : GateAt → Option Awaited
  | .wait => some (.gate w)
  | _ => none

def StopAt.awaits : StopAt → Option Awaited
  | .cancel => none
  | .wait scan => some (.stopped scan)

def EverywhereAt.awaits (w : WalletName) : EverywhereAt → Option Awaited
  | .remove => none
  | .gate _ g => g.awaits w
  | .stop s => s.awaits

def LockAt.awaits (w : WalletName) : LockAt → Option Awaited
  | .gate _ g => g.awaits w
  | .stop s => s.awaits
  | _ => none

def ForceAt.awaits (w : WalletName) : ForceAt → Option Awaited
  | .everywhere e => e.awaits w
  | .returned => none

def UnlockAt.awaits (w : WalletName) : UnlockAt → Option Awaited
  | .gate _ => some (.gate w)
  | _ => none

/-- A rename to the same name is refused before the maintenance lock. -/
def WithWalletLocked.awaits (m : WithWalletLocked) : Option Awaited :=
  match m.pos with
  | .begin => if m.change = .rename m.walletName then none else some (.maintenance m.walletName)
  | .lockBefore _ e | .lockAfter e _ => e.awaits m.walletName
  | _ => none

def ChangeAt.awaits (w : WalletName) : ChangeAt → Option Awaited
  | .begin => some (.maintenance w)
  | .stop s => s.awaits
  | _ => none

def AbandonAt.awaits (w : WalletName) : AbandonAt → Option Awaited
  | .begin _ => some (.maintenance w)
  | .stop s _ => s.awaits
  | _ => none

def ScanAt.awaits (w : WalletName) : ScanAt → Option Awaited
  | .maintenance => some (.maintenance w)
  | .waitPrevious previous => some (.stopped previous)
  | _ => none

def StopScanAt.awaits : StopScanAt → Option Awaited
  | .wait scan => some (.stopped scan)
  | _ => none

/-- What a call needs before it can take its next step. -/
def Call.awaits : Call → Option Awaited
  | .unlockWallet u => u.pos.awaits u.walletName
  | .lockWallet l => l.pos.awaits l.walletName
  | .forceLockWallet f => f.pos.awaits f.walletName
  | .withWalletLocked m => m.awaits
  | .changePassphrase p => p.pos.awaits p.walletName
  | .abandonSend a => a.pos.awaits a.walletName
  | .scan x => x.pos.awaits x.walletName
  | .stopScan x => x.pos.awaits
  | _ => none

/-- Who has to move before the wait can end. -/
def Shared.holder (σ : Shared) : Awaited → Option CallId
  | .gate w => σ.gates w
  | .maintenance w => σ.maintenance w
  | .stopped scan => if (σ.tokens scan).stopped then none else some scan

/-- Call `a` cannot go on before call `b` has moved. -/
def World.WaitsFor (s : World) (a b : CallId) : Prop :=
  ∃ call r, s.calls a = some call ∧ call.awaits = some r ∧ s.shared.holder r = some b

/-! ## Calls that do not wait -/

variable {me : CallId} {ch : Choice} {σ σ' : Shared} {w : WalletName}

theorem Shared.holdGate_of_free (h : σ.holder (.gate w) = none) :
    ∃ σ', σ.holdGate w me = some σ' := by
  have hfree : σ.gates w = none := h
  exact ⟨_, if_pos hfree⟩

theorem Shared.beginMaintenance_of_free (h : σ.holder (.maintenance w) = none) :
    ∃ σ', σ.beginMaintenance w me = some σ' := by
  have hfree : σ.maintenance w = none := h
  exact ⟨_, if_pos hfree⟩

theorem Shared.of_holder_stopped {d e : CallId} (h : σ.holder (.stopped e) = some d) :
    ¬ (σ.tokens e).stopped = true ∧ d = e := by
  dsimp only [holder] at h
  split at h
  · cases h
  · exact ⟨‹_›, (Option.some.inj h).symm⟩

theorem Shared.stopped_of_free {scan : CallId} (h : σ.holder (.stopped scan) = none) :
    (σ.tokens scan).stopped = true := by
  by_contra hrunning
  simp [holder, hrunning] at h

theorem GateAt.exists_next (g : GateAt) (hfree : ∀ r, g.awaits w = some r → σ.holder r = none) :
    ∃ r, g.next me w σ = some r := by
  cases g with
  | wait =>
    obtain ⟨σ', hσ⟩ := Shared.holdGate_of_free (hfree _ rfl)
    exact ⟨_, by rw [next, hσ]; rfl⟩
  | held h =>
    rcases hnext : h.next w σ with ⟨h' | locked, σ'⟩ <;> exact ⟨_, by rw [next, hnext]⟩
  | leave locked => exact ⟨_, rfl⟩

theorem StopAt.exists_next (s : StopAt) (hfree : ∀ r, s.awaits = some r → σ.holder r = none) :
    ∃ r, s.next w σ = some r := by
  cases s with
  | cancel =>
    rcases hnext : σ.cancelWalletScans w with ⟨_ | scan, σ'⟩ <;> exact ⟨_, by rw [next, hnext]⟩
  | wait scan => exact ⟨_, if_pos (Shared.stopped_of_free (hfree _ rfl))⟩

theorem EverywhereAt.exists_next (e : EverywhereAt)
    (hfree : ∀ r, e.awaits w = some r → σ.holder r = none) : ∃ r, e.next me w σ = some r := by
  cases e with
  | remove => exact ⟨_, rfl⟩
  | gate file g =>
    obtain ⟨⟨g' | locked, σ'⟩, hnext⟩ := g.exists_next hfree <;>
      exact ⟨_, by rw [next, hnext]⟩
  | stop s =>
    obtain ⟨⟨s' | _, σ'⟩, hnext⟩ := s.exists_next (w := w) hfree <;>
      exact ⟨_, by rw [next, hnext]⟩

/-- An answer every step can go on with. -/
def Choice.refused : Choice := { upstream := some "" }

theorem UnlockWallet.exists_next (u : UnlockWallet)
    (hfree : ∀ r, u.pos.awaits u.walletName = some r → σ.holder r = none)
    (hreturned : (Call.unlockWallet u).returned = false) : ∃ r, u.next me .refused σ = some r := by
  obtain ⟨path, v, passphrase, pos⟩ := u
  unfold next
  cases pos with
  | gate g =>
    obtain ⟨σ', hσ⟩ := Shared.holdGate_of_free (hfree _ rfl)
    dsimp only
    exact ⟨_, by rw [hσ]; rfl⟩
  | returned g r => cases hreturned
  | _ =>
    dsimp only
    (repeat' split) <;> exact ⟨_, rfl⟩

theorem LockWallet.exists_next (l : LockWallet)
    (hfree : ∀ r, l.pos.awaits l.walletName = some r → σ.holder r = none)
    (hreturned : (Call.lockWallet l).returned = false) : ∃ r, l.next me σ = some r := by
  obtain ⟨v, holder, pos⟩ := l
  unfold next
  cases pos with
  | release =>
    dsimp only
    split <;> exact ⟨_, rfl⟩
  | gate file g =>
    obtain ⟨⟨g' | (_ | _), σ'⟩, hnext⟩ := g.exists_next hfree <;>
      exact ⟨_, by dsimp only; rw [hnext]⟩
  | stop s =>
    obtain ⟨⟨s' | _, σ'⟩, hnext⟩ := s.exists_next (w := v) hfree <;>
      exact ⟨_, by dsimp only; rw [hnext]⟩
  | returned b => cases hreturned

theorem ForceLockWallet.exists_next (f : ForceLockWallet)
    (hfree : ∀ r, f.pos.awaits f.walletName = some r → σ.holder r = none)
    (hreturned : (Call.forceLockWallet f).returned = false) : ∃ r, f.next me σ = some r := by
  obtain ⟨v, pos⟩ := f
  unfold next
  cases pos with
  | everywhere e =>
    obtain ⟨⟨e' | _, σ'⟩, hnext⟩ := e.exists_next hfree <;>
      exact ⟨_, by dsimp only; rw [hnext]⟩
  | returned => cases hreturned

theorem WithWalletLocked.exists_next (m : WithWalletLocked)
    (hfree : ∀ r, m.awaits = some r → σ.holder r = none)
    (hreturned : (Call.withWalletLocked m).returned = false) : ∃ r, m.next me .refused σ = some r := by
  obtain ⟨v, change, pos⟩ := m
  unfold next
  cases pos with
  | «begin» =>
    dsimp only
    split
    · exact ⟨_, rfl⟩
    · rename_i hname
      obtain ⟨σ', hσ⟩ := Shared.beginMaintenance_of_free (hfree _ (if_neg hname))
      exact ⟨_, by rw [hσ]; rfl⟩
  | lockBefore file e =>
    obtain ⟨⟨e' | _, σ'⟩, hnext⟩ := e.exists_next hfree <;>
      exact ⟨_, by dsimp only; rw [hnext]⟩
  | lockAfter e changed =>
    obtain ⟨⟨e' | _, σ'⟩, hnext⟩ := e.exists_next hfree <;>
      exact ⟨_, by dsimp only; rw [hnext]⟩
  | returned r => cases hreturned
  | _ =>
    dsimp only
    (repeat' split) <;> exact ⟨_, rfl⟩

theorem ChangePassphrase.exists_next (p : ChangePassphrase)
    (hfree : ∀ r, p.pos.awaits p.walletName = some r → σ.holder r = none)
    (hreturned : (Call.changePassphrase p).returned = false) : ∃ r, p.next me .refused σ = some r := by
  obtain ⟨v, old, new, pos⟩ := p
  unfold next
  cases pos with
  | «begin» =>
    obtain ⟨σ', hσ⟩ := Shared.beginMaintenance_of_free (hfree _ rfl)
    exact ⟨_, by dsimp only; rw [hσ]; rfl⟩
  | stop s =>
    obtain ⟨⟨s' | _, σ'⟩, hnext⟩ := s.exists_next (w := v) hfree <;>
      exact ⟨_, by dsimp only; rw [hnext]⟩
  | returned r => cases hreturned
  | _ =>
    dsimp only
    (repeat' split) <;> exact ⟨_, rfl⟩

theorem AbandonSend.exists_next (a : AbandonSend)
    (hfree : ∀ r, a.pos.awaits a.walletName = some r → σ.holder r = none)
    (hreturned : (Call.abandonSend a).returned = false) : ∃ r, a.next me .refused σ = some r := by
  obtain ⟨v, passphrase, transactionId, pos⟩ := a
  unfold next
  cases pos with
  | «begin» account =>
    obtain ⟨σ', hσ⟩ := Shared.beginMaintenance_of_free (hfree _ rfl)
    exact ⟨_, by dsimp only; rw [hσ]; rfl⟩
  | stop s account =>
    obtain ⟨⟨s' | _, σ'⟩, hnext⟩ := s.exists_next (w := v) hfree <;>
      exact ⟨_, by dsimp only; rw [hnext]⟩
  | returned r => cases hreturned
  | _ =>
    dsimp only
    (repeat' split) <;> exact ⟨_, rfl⟩

theorem Scan.exists_next (x : Scan)
    (hfree : ∀ r, x.pos.awaits x.walletName = some r → σ.holder r = none)
    (hreturned : (Call.scan x).returned = false) : ∃ r, x.next me .refused σ = some r := by
  obtain ⟨handle, v, priority, continuous, rescanFrom, pos, dbPath, forwarder, checked, swept, rolledBack⟩ := x
  unfold next
  cases pos with
  | maintenance =>
    obtain ⟨σ', hσ⟩ := Shared.beginMaintenance_of_free (hfree _ rfl)
    exact ⟨_, by dsimp only; rw [hσ]; rfl⟩
  | waitPrevious previous => exact ⟨_, if_pos (Shared.stopped_of_free (hfree _ rfl))⟩
  | returned r => cases hreturned
  | _ =>
    dsimp only
    (repeat' split) <;> exact ⟨_, rfl⟩

theorem StopScan.exists_next (x : StopScan) (hfree : ∀ r, x.pos.awaits = some r → σ.holder r = none)
    (hreturned : (Call.stopScan x).returned = false) : ∃ r, x.next σ = some r := by
  obtain ⟨handle, pos⟩ := x
  unfold next
  cases pos with
  | stop =>
    dsimp only
    split <;> exact ⟨_, rfl⟩
  | wait scan => exact ⟨_, if_pos (Shared.stopped_of_free (hfree _ rfl))⟩
  | returned => cases hreturned

/-- A call that has not returned and waits for nobody can take a step. -/
theorem Call.exists_next {call : Call} (hfree : ∀ r, call.awaits = some r → σ.holder r = none)
    (hreturned : call.returned = false) : ∃ ch r, call.next me ch σ = some r := by
  cases call with
  | setDatabasePath p =>
    obtain ⟨path, pos⟩ := p
    cases pos with
    | set =>
      cases hset : σ.db.setDatabasePath path <;>
        exact ⟨.refused, _, by rw [next, SetDatabasePath.next, hset]; rfl⟩
    | returned r => cases hreturned
  | unlockWallet u =>
    obtain ⟨r, hr⟩ := u.exists_next hfree hreturned
    exact ⟨_, _, by rw [next, hr]; rfl⟩
  | lockWallet l =>
    obtain ⟨r, hr⟩ := l.exists_next hfree hreturned
    exact ⟨.refused, _, by rw [next, hr]; rfl⟩
  | forceLockWallet f =>
    obtain ⟨r, hr⟩ := f.exists_next hfree hreturned
    exact ⟨.refused, _, by rw [next, hr]; rfl⟩
  | withWalletLocked m =>
    obtain ⟨r, hr⟩ := m.exists_next hfree hreturned
    exact ⟨_, _, by rw [next, hr]; rfl⟩
  | changePassphrase p =>
    obtain ⟨r, hr⟩ := p.exists_next hfree hreturned
    exact ⟨_, _, by rw [next, hr]; rfl⟩
  | abandonSend a =>
    obtain ⟨r, hr⟩ := a.exists_next hfree hreturned
    exact ⟨_, _, by rw [next, hr]; rfl⟩
  | scan x =>
    obtain ⟨r, hr⟩ := x.exists_next hfree hreturned
    exact ⟨_, _, by rw [next, hr]; rfl⟩
  | stopScan x =>
    obtain ⟨r, hr⟩ := x.exists_next hfree hreturned
    exact ⟨.refused, _, by rw [next, hr]; rfl⟩
  | createScanHandle a =>
    obtain ⟨v, pos⟩ := a
    cases pos with
    | returned handle => cases hreturned
    | _ => exact ⟨.refused, _, rfl⟩
  | sendTransaction x =>
    obtain ⟨details, pos, log⟩ := x
    refine ⟨.refused, ?_⟩
    simp only [next, SendTransaction.next]
    cases pos with
    | returned r => cases hreturned
    | _ =>
      dsimp only
      (repeat' split) <;> first
        | exact ⟨_, rfl⟩
        | cases (show some "" = none from ‹Choice.refused.upstream = none›)
  | createWallet x =>
    obtain ⟨v, network, passphrase, source, pos⟩ := x
    refine ⟨.refused, ?_⟩
    simp only [next, CreateWallet.next]
    cases pos with
    | returned r => cases hreturned
    | _ =>
      dsimp only
      (repeat' split) <;> first
        | exact ⟨_, rfl⟩
        | cases (show some "" = none from ‹Choice.refused.upstream = none›)
  | getAddress x =>
    obtain ⟨v, network, pos, live⟩ := x
    refine ⟨.refused, ?_⟩
    simp only [next, GetAddress.next]
    cases pos with
    | returned r => cases hreturned
    | _ =>
      dsimp only
      (repeat' split) <;> exact ⟨_, rfl⟩

/-! ## Stops -/

def EverywhereAt.stopAt : EverywhereAt → Option StopAt
  | .stop s => some s
  | _ => none

/-- Where a call stands in a `stop_wallet_scans`, and of which wallet. -/
def Call.stopAt : Call → Option (WalletName × StopAt)
  | .lockWallet ⟨v, _, .stop s⟩ => some (v, s)
  | .forceLockWallet ⟨v, .everywhere e⟩ => e.stopAt.map fun s => (v, s)
  | .withWalletLocked ⟨v, _, .lockBefore _ e⟩ | .withWalletLocked ⟨v, _, .lockAfter e _⟩ =>
    e.stopAt.map fun s => (v, s)
  | .changePassphrase ⟨v, _, _, .stop s⟩ => some (v, s)
  | .abandonSend ⟨v, _, _, .stop s _⟩ => some (v, s)
  | _ => none

/-- Where `StopAt.next` leaves a call. -/
def stoppedAt (w : WalletName) : StopAt ⊕ Unit → Option (WalletName × StopAt)
  | .inl s => some (w, s)
  | .inr _ => none

theorem EverywhereAt.next_stopAt {e : EverywhereAt} {s : StopAt} {r : EverywhereAt ⊕ Unit}
    (h : e.next me w σ = some (r, σ')) (hs : e.stopAt = some s) :
    ∃ a, s.next w σ = some (a, σ') ∧ r = a.map .stop id := by
  cases e with
  | stop s' =>
    obtain rfl := Option.some.inj hs
    dsimp only [next] at h
    split at h <;> cases h <;> exact ⟨_, ‹_›, rfl⟩
  | _ => cases hs

/-- A call in a stop does what the stop does. -/
theorem Call.next_stopAt {call call' : Call} {s : StopAt} (h : call.next me ch σ = some (call', σ'))
    (hs : call.stopAt = some (w, s)) :
    ∃ r, s.next w σ = some (r, σ') ∧ call'.stopAt = stoppedAt w r := by
  unfold stopAt at hs
  split at hs
  · cases hs
    obtain ⟨⟨l', σ''⟩, hr, h⟩ := Option.map_eq_some_iff.mp h
    cases h
    dsimp only [LockWallet.next] at hr
    split at hr <;> cases hr <;> exact ⟨_, ‹_›, rfl⟩
  · obtain ⟨s', hs', hs⟩ := Option.map_eq_some_iff.mp hs
    cases hs
    obtain ⟨⟨f', σ''⟩, hr, h⟩ := Option.map_eq_some_iff.mp h
    cases h
    dsimp only [ForceLockWallet.next] at hr
    split at hr <;> cases hr
    all_goals
      obtain ⟨_ | _, hnext, ha⟩ := EverywhereAt.next_stopAt ‹_› hs' <;> cases ha
      exact ⟨_, hnext, rfl⟩
  · obtain ⟨s', hs', hs⟩ := Option.map_eq_some_iff.mp hs
    cases hs
    obtain ⟨⟨m', σ''⟩, hr, h⟩ := Option.map_eq_some_iff.mp h
    cases h
    dsimp only [WithWalletLocked.next] at hr
    split at hr <;> cases hr
    all_goals
      obtain ⟨_ | _, hnext, ha⟩ := EverywhereAt.next_stopAt ‹_› hs' <;> cases ha
      exact ⟨_, hnext, rfl⟩
  · obtain ⟨s', hs', hs⟩ := Option.map_eq_some_iff.mp hs
    cases hs
    obtain ⟨⟨m', σ''⟩, hr, h⟩ := Option.map_eq_some_iff.mp h
    cases h
    dsimp only [WithWalletLocked.next] at hr
    split at hr <;> cases hr
    all_goals
      obtain ⟨_ | _, hnext, ha⟩ := EverywhereAt.next_stopAt ‹_› hs' <;> cases ha
      exact ⟨_, hnext, rfl⟩
  · cases hs
    obtain ⟨⟨p', σ''⟩, hr, h⟩ := Option.map_eq_some_iff.mp h
    cases h
    dsimp only [ChangePassphrase.next] at hr
    split at hr <;> cases hr <;> exact ⟨_, ‹_›, rfl⟩
  · cases hs
    obtain ⟨⟨a', σ''⟩, hr, h⟩ := Option.map_eq_some_iff.mp h
    cases h
    dsimp only [AbandonSend.next] at hr
    split at hr <;> cases hr <;> exact ⟨_, ‹_›, rfl⟩
  · cases hs

theorem EverywhereAt.stopAt_new {e e' : EverywhereAt} {s : StopAt}
    (h : e.next me w σ = some (.inl e', σ')) (hs : e'.stopAt = some s) :
    (∃ s₀, e.stopAt = some s₀) ∨ s = .cancel := by
  cases e with
  | remove =>
    cases h
    cases hs
  | gate file g =>
    dsimp only [next] at h
    split at h <;> cases h
    · cases hs
    · exact Or.inr (Option.some.inj hs).symm
  | stop s₀ => exact Or.inl ⟨s₀, rfl⟩

theorem EverywhereAt.stopAt_mapped {e e' : EverywhereAt} {v : WalletName} {s : StopAt}
    (h : e.next me v σ = some (.inl e', σ')) (hs : e'.stopAt.map (v, ·) = some (w, s)) :
    v = w ∧ (∃ s₀, e.stopAt = some s₀) ∨ s = .cancel := by
  obtain ⟨s₁, hs₁, heq⟩ := Option.map_eq_some_iff.mp hs
  cases heq
  rcases stopAt_new h hs₁ with hold | hcancel
  · exact Or.inl ⟨rfl, hold⟩
  · exact Or.inr hcancel

/-- A call comes to a stop where the stop cancels. -/
theorem Call.stopAt_new {call call' : Call} {s : StopAt} (h : call.next me ch σ = some (call', σ'))
    (hs : call'.stopAt = some (w, s)) : (∃ s₀, call.stopAt = some (w, s₀)) ∨ s = .cancel := by
  cases call <;> obtain ⟨⟨x', σ''⟩, hr, h⟩ := Option.map_eq_some_iff.mp h <;> cases h <;>
    try (cases hs)
  case lockWallet l =>
    obtain ⟨v, holder, pos⟩ := l
    unfold LockWallet.next at hr
    cases pos with
    | stop s₀ =>
      dsimp only at hr
      split at hr <;> cases hr <;> cases hs
      exact Or.inl ⟨s₀, rfl⟩
    | gate file g =>
      dsimp only at hr
      (repeat' split at hr) <;> cases hr <;> cases hs
      exact Or.inr rfl
    | _ =>
      dsimp only at hr
      (repeat' split at hr) <;> cases hr <;> cases hs
  case forceLockWallet f =>
    obtain ⟨v, pos⟩ := f
    unfold ForceLockWallet.next at hr
    cases pos with
    | everywhere e =>
      dsimp only at hr
      split at hr <;> cases hr
      · rcases EverywhereAt.stopAt_mapped ‹_› hs with ⟨rfl, s₀, hs₀⟩ | hcancel
        · exact Or.inl ⟨s₀, by rw [stopAt, hs₀]; rfl⟩
        · exact Or.inr hcancel
      · cases hs
    | returned => cases hr
  case withWalletLocked m =>
    obtain ⟨v, change, pos⟩ := m
    unfold WithWalletLocked.next at hr
    cases pos with
    | lockBefore file e =>
      dsimp only at hr
      split at hr <;> cases hr
      · rcases EverywhereAt.stopAt_mapped ‹_› hs with ⟨rfl, s₀, hs₀⟩ | hcancel
        · exact Or.inl ⟨s₀, by rw [stopAt, hs₀]; rfl⟩
        · exact Or.inr hcancel
      · cases hs
    | lockAfter e changed =>
      dsimp only at hr
      split at hr <;> cases hr
      · rcases EverywhereAt.stopAt_mapped ‹_› hs with ⟨rfl, s₀, hs₀⟩ | hcancel
        · exact Or.inl ⟨s₀, by rw [stopAt, hs₀]; rfl⟩
        · exact Or.inr hcancel
      · cases hs
    | «begin» =>
      dsimp only at hr
      split at hr
      · cases hr
        cases hs
      · obtain ⟨σ₁, -, hr⟩ := Option.map_eq_some_iff.mp hr
        cases hr
        cases hs
    | _ =>
      dsimp only at hr
      (repeat' split at hr) <;> cases hr <;> cases hs
  case changePassphrase p =>
    obtain ⟨v, old, new, pos⟩ := p
    unfold ChangePassphrase.next at hr
    cases pos with
    | stop s₀ =>
      dsimp only at hr
      split at hr <;> cases hr <;> cases hs
      exact Or.inl ⟨s₀, rfl⟩
    | «begin» =>
      obtain ⟨σ₁, -, hr⟩ := Option.map_eq_some_iff.mp hr
      cases hr
      cases hs
      exact Or.inr rfl
    | _ =>
      dsimp only at hr
      (repeat' split at hr) <;> cases hr <;> cases hs
  case abandonSend a =>
    obtain ⟨v, passphrase, transactionId, pos⟩ := a
    unfold AbandonSend.next at hr
    cases pos with
    | stop s₀ account =>
      dsimp only at hr
      split at hr <;> cases hr <;> cases hs
      exact Or.inl ⟨s₀, rfl⟩
    | «begin» account =>
      obtain ⟨σ₁, -, hr⟩ := Option.map_eq_some_iff.mp hr
      cases hr
      cases hs
    | sameAccount file account =>
      dsimp only at hr
      (repeat' split at hr) <;> cases hr <;> cases hs
      exact Or.inr rfl
    | _ =>
      dsimp only at hr
      (repeat' split at hr) <;> cases hr <;> cases hs

/-! ## Scans that are waited for -/

/-- The scan whose place a scan took, until it has stopped. -/
def ScanAt.follows : ScanAt → Option CallId
  | .dropMaintenance previous => previous
  | .waitPrevious previous => some previous
  | _ => none

theorem ScanAt.active_of_follows {p : ScanAt} {d : CallId} (h : p.follows = some d) :
    p.stage = .active := by
  cases p <;> first | rfl | cases h

/-- The scan a call waits for, or will. -/
def Call.follows (call : Call) : Option CallId :=
  match call with
  | .scan x => x.pos.follows
  | .stopScan ⟨_, .wait d⟩ => some d
  | _ =>
    match call.stopAt with
    | some (_, .wait d) => some d
    | _ => none

theorem StopAt.eq_of_awaits {s : StopAt} {d : CallId} (h : s.awaits = some (.stopped d)) :
    s = .wait d := by
  cases s <;> cases h
  rfl

theorem EverywhereAt.eq_of_awaits {e : EverywhereAt} {d : CallId}
    (h : e.awaits w = some (.stopped d)) : e = .stop (.wait d) := by
  cases e with
  | remove => cases h
  | gate file g => cases g <;> cases h
  | stop s => rw [StopAt.eq_of_awaits h]

theorem Call.follows_of_awaits {call : Call} {d : CallId} (h : call.awaits = some (.stopped d)) :
    call.follows = some d := by
  cases call with
  | unlockWallet u =>
    obtain ⟨path, v, passphrase, pos⟩ := u
    cases pos <;> cases h
  | lockWallet l =>
    obtain ⟨v, holder, pos⟩ := l
    cases pos with
    | stop s => cases StopAt.eq_of_awaits h; rfl
    | gate file g => cases g <;> cases h
    | _ => cases h
  | forceLockWallet f =>
    obtain ⟨v, pos⟩ := f
    cases pos with
    | everywhere e => cases EverywhereAt.eq_of_awaits h; rfl
    | returned => cases h
  | withWalletLocked m =>
    obtain ⟨v, change, pos⟩ := m
    cases pos with
    | lockBefore file e => cases EverywhereAt.eq_of_awaits h; rfl
    | lockAfter e changed => cases EverywhereAt.eq_of_awaits h; rfl
    | «begin» =>
      dsimp only [awaits, WithWalletLocked.awaits] at h
      split at h <;> cases h
    | _ => cases h
  | changePassphrase p =>
    obtain ⟨v, old, new, pos⟩ := p
    cases pos with
    | stop s => cases StopAt.eq_of_awaits h; rfl
    | _ => cases h
  | abandonSend a =>
    obtain ⟨v, passphrase, transactionId, pos⟩ := a
    cases pos with
    | stop s account => cases StopAt.eq_of_awaits h; rfl
    | _ => cases h
  | scan x =>
    obtain ⟨handle, v, priority, continuous, rescanFrom, pos, dbPath,
      forwarder, checked, swept, rolledBack⟩ := x
    cases pos <;> cases h
    rfl
  | stopScan x =>
    obtain ⟨handle, pos⟩ := x
    cases pos <;> cases h
    rfl
  | _ => cases h

/-- The step has found scan `d` in a slot, and leaves it cancelled. -/
def FoundInSlot (σ σ' : Shared) (d : CallId) : Prop :=
  ∃ w k, σ.scans.running.lookup w = some k ∧ k.scan = d ∧ (σ'.tokens d).cancelled = true

/-- A scan follows the one it finds in its slot. -/
theorem Scan.follows_own {x x' : Scan} {d : CallId} (h : x.next me ch σ = some (x', σ'))
    (hd : x'.pos.follows = some d) :
    x.pos.follows = some d ∨ x.pos.stage = .starting ∧ ∃ k,
      σ.scans.running.lookup x.walletName = some k ∧ k.scan = d ∧ (σ'.tokens d).cancelled = true := by
  obtain ⟨handle, v, priority, continuous, rescanFrom, pos, dbPath, forwarder, checked, swept, rolledBack⟩ := x
  unfold next at h
  cases pos with
  | slot =>
    right
    refine ⟨rfl, ?_⟩
    dsimp only at h
    split at h <;> cases h
    · cases hd
    · cases hd
    · rcases Shared.enterSlot_eq ‹_› with ⟨hr, -, -⟩ | ⟨e, hr, -⟩ | ⟨wallet, -, hr, rfl⟩ <;> cases hr
      obtain ⟨k, hk, rfl⟩ := Option.map_eq_some_iff.mp hd
      exact ⟨k, hk, rfl, by simp [hk]⟩
  | dropMaintenance previous =>
    cases previous <;> cases h
    · cases hd
    · exact Or.inl hd
  | maintenance =>
    obtain ⟨σ₁, -, h⟩ := Option.map_eq_some_iff.mp h
    cases h
    cases hd
  | sweepConn | sweep file =>
    cases rescanFrom <;> dsimp only at h <;> (repeat' split at h) <;> cases h <;> cases hd
  | _ =>
    dsimp only at h
    (repeat' split at h) <;> cases h <;> cases hd

theorem Scan.follows_new {x x' : Scan} {d : CallId} (h : x.next me ch σ = some (x', σ'))
    (hd : x'.pos.follows = some d) :
    x.pos.follows = some d ∨ x.pos.stage = .starting ∧ FoundInSlot σ σ' d := by
  rcases Scan.follows_own h hd with hold | ⟨hstarting, k, hk⟩
  · exact Or.inl hold
  · exact Or.inr ⟨hstarting, _, k, hk⟩

/-- `stop_scan` waits for the scan it finds in the slot. -/
theorem StopScan.next_wait {x x' : StopScan} {d : CallId} (h : x.next σ = some (x', σ'))
    (hd : x'.pos = .wait d) :
    x.pos = .stop ∧ ∃ k, σ.scans.running.lookup x.handle.walletName = some k ∧ k.id = x.handle.id ∧
      k.scan = d ∧ σ'.tokens = σ.tokens.cancel d := by
  by_cases hpos : x.pos = .stop
  · obtain ⟨waitFor, scans, tokens, hstop, rfl, rfl⟩ := StopScan.next_stop h hpos
    rcases ScanState.stopScan_cases hstop with ⟨-, rfl, -, -⟩ | ⟨-, -, rfl, -, -⟩ |
      ⟨k, hk, hid, rfl, rfl, -⟩ | ⟨-, -, -, rfl, -, -⟩ <;> cases hd
    exact ⟨hpos, k, hk, hid, rfl, rfl⟩
  · exfalso
    unfold next at h
    split at h
    · exact absurd ‹_› hpos
    · split at h <;> cases h
      cases hd
    · cases h

theorem Call.wallet_of_stopAt {call : Call} {v : WalletName} {s : StopAt}
    (h : call.stopAt = some (v, s)) : call.wallet = some v := by
  unfold stopAt at h
  split at h
  · cases h
    rfl
  · obtain ⟨s₀, -, h⟩ := Option.map_eq_some_iff.mp h
    cases h
    rfl
  · obtain ⟨s₀, -, h⟩ := Option.map_eq_some_iff.mp h
    cases h
    rfl
  · obtain ⟨s₀, -, h⟩ := Option.map_eq_some_iff.mp h
    cases h
    rfl
  · cases h
    rfl
  · cases h
    rfl
  · cases h

/-- What a call comes to wait for is in the slot of its wallet. -/
theorem Call.follows_own {call call' : Call} {d : CallId} (h : call.next me ch σ = some (call', σ'))
    (hd : call'.follows = some d) :
    call.follows = some d ∨ ∃ v k, call.wallet = some v ∧ σ.scans.running.lookup v = some k ∧
      k.scan = d ∧ (σ'.tokens d).cancelled = true := by
  have hstop : ∀ v, call'.stopAt = some (v, .wait d) → ∃ v k, call.wallet = some v ∧
      σ.scans.running.lookup v = some k ∧ k.scan = d ∧ (σ'.tokens d).cancelled = true := by
    intro v hv
    rcases Call.stopAt_new h hv with ⟨s₀, hs₀⟩ | hcancel
    · obtain ⟨r, hr, hr'⟩ := Call.next_stopAt h hs₀
      rw [hv] at hr'
      rcases StopAt.next_eq hr with ⟨rfl, rfl, rfl⟩ | ⟨c, -, -, -, rfl⟩
      · cases hrun : σ.scans.running.lookup v with
        | none => simp [hrun, stoppedAt] at hr'
        | some k =>
          obtain rfl : d = k.scan := by simpa [hrun, stoppedAt] using hr'
          exact ⟨v, k, Call.wallet_of_stopAt hs₀, hrun, rfl,
            by simp [Shared.cancelWalletScans_eq, hrun]⟩
      · cases hr'
    · cases hcancel
  cases call <;> obtain ⟨⟨y, σ''⟩, hr, h'⟩ := Option.map_eq_some_iff.mp h <;> cases h'
  case scan x =>
    rcases Scan.follows_own hr hd with hold | ⟨-, k, hk⟩
    · exact Or.inl hold
    · exact Or.inr ⟨_, k, rfl, hk⟩
  case stopScan x =>
    obtain ⟨handle, pos⟩ := y
    cases pos with
    | wait e =>
      cases hd
      obtain ⟨-, k, hk, -, hscan, htokens⟩ := StopScan.next_wait hr rfl
      exact Or.inr ⟨_, k, rfl, hk, hscan, by rw [htokens]; simp⟩
    | _ => cases hd
  all_goals
    right
    dsimp only [follows] at hd
    split at hd
    · cases hd
      exact hstop _ ‹_›
    · cases hd

theorem Call.follows_new {call call' : Call} {d : CallId} (h : call.next me ch σ = some (call', σ'))
    (hd : call'.follows = some d) : call.follows = some d ∨ FoundInSlot σ σ' d := by
  rcases Call.follows_own h hd with hold | ⟨v, k, -, hk⟩
  · exact Or.inl hold
  · exact Or.inr ⟨v, k, hk⟩

/-! ## No circle -/

variable {ok : Guard Shared Call} {s : World} {d : CallId}

/-- Call `d` is a scan that has come as far as its slot. -/
def World.Entered (s : World) (d : CallId) : Prop :=
  ∃ x, s.calls d = some (.scan x) ∧ 2 ≤ x.pos.stage.rank

theorem World.Entered.put (h : s.Entered d) {m : CallId} {l l' : Call} (hm : s.calls m = some l)
    (hstep : l.next m ch s.shared = some (l', σ')) : World.Entered (s.put m l' σ') d := by
  obtain ⟨x, hx, hrank⟩ := h
  obtain ⟨x', hx', ⟨-, hnext⟩ | ⟨-, rfl⟩⟩ := scan_put hm hstep hx
  · have hle := Scan.next_rank hnext
    exact ⟨x', hx', by omega⟩
  · exact ⟨x', hx', hrank⟩

theorem entered_of_running (h : system.Reach ok s) {k : ScanController}
    (hk : s.shared.scans.running.lookup w = some k) : s.Entered k.scan := by
  obtain ⟨x, hx, hstage, -⟩ := running_scan h hk
  exact ⟨x, hx, by rw [hstage]; exact Nat.le_refl 2⟩

/-- A call about to take its first step waits for nobody yet. -/
theorem Call.follows_of_starts {call : Call} (h : call.starts = true) : call.follows = none := by
  cases call <;> have hpos := of_decide_eq_true h
  case scan x => rw [hpos]; rfl
  case lockWallet l => obtain ⟨v, holder, pos⟩ := l; cases hpos; rfl
  case forceLockWallet f => obtain ⟨v, pos⟩ := f; cases hpos; rfl
  case withWalletLocked m => obtain ⟨v, change, pos⟩ := m; cases hpos; rfl
  case changePassphrase p => obtain ⟨v, old, new, pos⟩ := p; cases hpos; rfl
  case abandonSend a => obtain ⟨v, passphrase, transactionId, pos⟩ := a; cases hpos; rfl
  case stopScan x => obtain ⟨handle, pos⟩ := x; cases hpos; rfl
  all_goals rfl

/-- Whom a call waits for, or will, is a scan that has been in its slot and is cancelled. -/
theorem entered_of_follows (h : system.Reach ok s) :
    ∀ c call d, s.calls c = some call → call.follows = some d →
      s.Entered d ∧ (s.shared.tokens d).cancelled = true := by
  refine h.invariant (I := fun s : World => ∀ c call d, s.calls c = some call →
    call.follows = some d → s.Entered d ∧ (s.shared.tokens d).cancelled = true) ?_ ?_ ?_
  · intro σ _ c call d hc
    cases hc
  · intro (s : World) m l hs ih _ hfree hl c call d hc hd
    rcases Config.put_calls_eq_some hc with ⟨-, rfl⟩ | ⟨-, hc⟩
    · rw [Call.follows_of_starts hl] at hd
      cases hd
    · obtain ⟨⟨x, hx, hrank⟩, hcancelled⟩ := ih c call d hc hd
      exact ⟨⟨x, Config.put_calls_of_free hfree hx, hrank⟩, hcancelled⟩
  · rintro (s : World) m l l' σ' hs ih _ hm ⟨ch, hstep⟩ c call d hc hd
    have hold : s.Entered d ∧ (s.shared.tokens d).cancelled = true →
        World.Entered (s.put m l' σ') d ∧ (σ'.tokens d).cancelled = true := by
      rintro ⟨hentered, hcancelled⟩
      exact ⟨hentered.put hm hstep, (Call.scanStep hstep).cancelled hcancelled⟩
    rcases Config.put_calls_eq_some hc with ⟨-, rfl⟩ | ⟨-, hc⟩
    · rcases Call.follows_new hstep hd with hd | ⟨v, k, hk, rfl, hcancelled⟩
      · exact hold (ih m l d hm hd)
      · exact ⟨(entered_of_running hs hk).put hm hstep, hcancelled⟩
    · exact hold (ih c call d hc hd)

/-- Scan `a` has taken the place of scan `b`, which has not stopped, as far as `a` knows. -/
def World.Follows (s : World) (a b : CallId) : Prop :=
  ∃ x, s.calls a = some (.scan x) ∧ x.pos.follows = some b

theorem entered_of_scan_follows (h : system.Reach ok s) {a b : CallId} (hab : s.Follows a b) :
    s.Entered a ∧ s.Entered b := by
  obtain ⟨x, hx, hb⟩ := hab
  have hrank : 2 ≤ x.pos.stage.rank := by
    rw [ScanAt.active_of_follows hb]
    exact Nat.le_refl 2
  exact ⟨⟨x, hx, hrank⟩, (entered_of_follows h a _ b hx hb).1⟩

/-- The scans that took one another's place form no circle: each came to the slot after the one it
follows. -/
theorem unwinds_follows (h : system.Reach ok s) : ∀ a, Unwinds s.Follows a := by
  refine h.invariant (I := fun s : World => ∀ a, Unwinds s.Follows a) ?_ ?_ ?_
  · intro σ _ a
    apply Unwinds.of_free
    rintro b ⟨x, hx, -⟩
    cases hx
  · intro (s : World) m l _ ih _ _ hl a
    refine Unwinds.mono ?_ (ih a)
    rintro a b ⟨x, hx, hb⟩
    rcases Config.put_calls_eq_some hx with ⟨-, rfl⟩ | ⟨-, hx⟩
    · have hnone : x.pos.follows = none := Call.follows_of_starts hl
      rw [hnone] at hb
      cases hb
    · exact ⟨x, hx, hb⟩
  · rintro (s : World) m l l' σ' hs ih _ hm ⟨ch, hstep⟩
    -- Only the scan that moves can come to follow another.
    have hsub : ∀ a b, World.Follows (s.put m l' σ') a b → s.Follows a b ∨ a = m := by
      rintro a b ⟨x, hx, hb⟩
      rcases Config.put_calls_eq_some hx with ⟨rfl, -⟩ | ⟨-, hx⟩
      · exact Or.inr rfl
      · exact Or.inl ⟨x, hx, hb⟩
    by_cases hnew : ∃ b, World.Follows (s.put m l' σ') m b ∧ ¬ s.Follows m b
    · obtain ⟨b, ⟨x', hx', hb⟩, hbefore⟩ := hnew
      rw [Config.put_calls_self] at hx'
      obtain rfl := Option.some.inj hx'
      obtain ⟨x, rfl, hnext⟩ := Call.of_next_scan hstep
      rcases Scan.follows_new hnext hb with hold | ⟨hstarting, v, k, hk, rfl, -⟩
      · exact absurd ⟨x, hm, hold⟩ hbefore
      -- Nobody follows a scan that has only come to its slot now.
      have hlate : ¬ s.Entered m := by
        rintro ⟨y, hy, hrank⟩
        obtain rfl := Call.scan.inj (Option.some.inj (hm.symm.trans hy))
        rw [hstarting] at hrank
        cases hrank with | step h => cases h
      have hne : k.scan ≠ m := by
        rintro rfl
        exact hlate (entered_of_running hs hk)
      have hfresh : ∀ a, ¬ World.Follows (s.put m (.scan x') σ') a m := by
        intro a ham
        rcases hsub a m ham with hold | rfl
        · exact hlate (entered_of_scan_follows hs hold).2
        · obtain ⟨y, hy, hself⟩ := ham
          rw [Config.put_calls_self] at hy
          obtain rfl := Call.scan.inj (Option.some.inj hy)
          exact hne (Option.some.inj (hb.symm.trans hself))
      intro a
      by_cases ha : a = m
      · subst ha
        apply Unwinds.intro
        rintro c ⟨y, hy, hc⟩
        rw [Config.put_calls_self] at hy
        obtain rfl := Call.scan.inj (Option.some.inj hy)
        obtain rfl := Option.some.inj (hb.symm.trans hc)
        exact Unwinds.of_fresh hsub hfresh hne (ih _)
      · exact Unwinds.of_fresh hsub hfresh ha (ih a)
    · intro a
      refine Unwinds.mono (fun a b hab => ?_) (ih a)
      rcases hsub a b hab with hold | rfl
      · exact hold
      · by_contra hbefore
        exact hnew ⟨b, hab, hbefore⟩

/-! ## Who holds what -/

/-- With the gate of a wallet a call waits for nothing. -/
theorem Call.awaits_of_holdsGate {call : Call} (h : (call.keyPhase w).holdsGate = true) :
    call.awaits = none := by
  cases call with
  | unlockWallet u =>
    obtain ⟨path, v, passphrase, pos⟩ := u
    cases pos with
    | gate g =>
      dsimp only [keyPhase] at h
      split at h <;> cases h
    | _ => rfl
  | lockWallet l =>
    obtain ⟨v, holder, pos⟩ := l
    dsimp only [keyPhase] at h
    split at h
    · cases pos with
      | gate file g => cases g <;> first | rfl | cases h
      | _ => cases h
    · cases h
  | forceLockWallet f =>
    obtain ⟨v, pos⟩ := f
    dsimp only [keyPhase] at h
    split at h
    · cases pos with
      | everywhere e =>
        cases e with
        | gate file g => cases g <;> first | rfl | cases h
        | _ => cases h
      | returned => cases h
    · cases h
  | withWalletLocked m =>
    obtain ⟨v, change, pos⟩ := m
    dsimp only [keyPhase] at h
    split at h
    · cases pos with
      | lockBefore file e =>
        cases e with
        | gate file g => cases g <;> first | rfl | cases h
        | _ => cases h
      | lockAfter e changed =>
        cases e with
        | gate file g => cases g <;> first | rfl | cases h
        | _ => cases h
      | _ => cases h
    · cases h
  | changePassphrase p =>
    obtain ⟨v, old, new, pos⟩ := p
    dsimp only [keyPhase] at h
    split at h
    · cases pos <;> cases h
    · cases h
  | _ => cases h

theorem StopAt.awaits_ne_maintenance (s : StopAt) : s.awaits ≠ some (.maintenance w) := by
  cases s <;> nofun

theorem EverywhereAt.awaits_ne_maintenance {v : WalletName} (e : EverywhereAt) :
    e.awaits v ≠ some (.maintenance w) := by
  cases e with
  | remove => nofun
  | gate file g => cases g <;> nofun
  | stop s => exact s.awaits_ne_maintenance

/-- With a wallet's maintenance lock a call waits for no other maintenance lock. -/
theorem Call.awaits_of_holdsMaintenance {call : Call} {v : WalletName}
    (h : (call.slotPhase w).holdsMaintenance = true) : call.awaits ≠ some (.maintenance v) := by
  cases call with
  | scan x =>
    obtain ⟨handle, u, priority, continuous, rescanFrom, pos, dbPath,
      forwarder, checked, swept, rolledBack⟩ := x
    dsimp only [slotPhase] at h
    split at h <;> cases pos <;> first | (cases h; done) | nofun
  | withWalletLocked m =>
    obtain ⟨u, change, pos⟩ := m
    dsimp only [slotPhase] at h
    split at h
    · cases pos with
      | «begin» => cases h
      | lockBefore file e => exact e.awaits_ne_maintenance
      | lockAfter e changed => exact e.awaits_ne_maintenance
      | _ => nofun
    · cases h
  | changePassphrase p =>
    obtain ⟨u, old, new, pos⟩ := p
    dsimp only [slotPhase] at h
    split at h
    · cases pos with
      | «begin» => cases h
      | stop s => exact s.awaits_ne_maintenance
      | _ => nofun
    · cases h
  | abandonSend a =>
    obtain ⟨u, passphrase, transactionId, pos⟩ := a
    dsimp only [slotPhase] at h
    split at h
    · cases pos with
      | «begin» account => cases h
      | stop s account => exact s.awaits_ne_maintenance
      | _ => nofun
    · cases h
  | _ => cases h

/-- Who holds a gate waits for nothing. -/
theorem awaits_of_gates (h : system.Reach ok s) (hd : s.shared.gates w = some d) :
    ∃ call, s.calls d = some call ∧ call.awaits = none := by
  obtain ⟨p, hp, hgate⟩ := KeyProtocol.gate_held ((keyHom ok w).reach_any h) d hd
  obtain ⟨call, hcall, rfl⟩ := Option.map_eq_some_iff.mp hp
  exact ⟨call, hcall, Call.awaits_of_holdsGate hgate⟩

/-- Who holds a maintenance lock waits for no other. -/
theorem awaits_of_maintenance (h : system.Reach ok s) (hd : s.shared.maintenance w = some d) :
    ∃ call, s.calls d = some call ∧ ∀ v, call.awaits ≠ some (.maintenance v) := by
  obtain ⟨p, hp, hholds⟩ := SlotProtocol.maintenance_held ((slotHom ok w).reach_any h) d hd
  obtain ⟨call, hcall, rfl⟩ := Option.map_eq_some_iff.mp hp
  exact ⟨call, hcall, fun v => Call.awaits_of_holdsMaintenance hholds⟩

/-- A call that has returned holds nothing. -/
theorem Call.holds_of_returned {call : Call} (h : call.returned = true) :
    (call.keyPhase w).holdsGate = false ∧ (call.slotPhase w).holdsMaintenance = false := by
  cases call with
  | unlockWallet u =>
    obtain ⟨path, v, passphrase, pos⟩ := u
    cases pos with
    | returned g r =>
      refine ⟨?_, rfl⟩
      dsimp only [keyPhase]
      split
      · cases g <;> cases r <;> rfl
      · rfl
    | _ => cases h
  | lockWallet l =>
    obtain ⟨v, holder, pos⟩ := l
    cases pos <;> cases h
    exact ⟨by dsimp only [keyPhase]; split <;> rfl, rfl⟩
  | forceLockWallet f =>
    obtain ⟨v, pos⟩ := f
    cases pos <;> cases h
    exact ⟨by dsimp only [keyPhase]; split <;> rfl, rfl⟩
  | withWalletLocked m =>
    obtain ⟨v, change, pos⟩ := m
    cases pos <;> cases h
    exact ⟨by dsimp only [keyPhase]; split <;> rfl, by dsimp only [slotPhase]; split <;> rfl⟩
  | changePassphrase p =>
    obtain ⟨v, old, new, pos⟩ := p
    cases pos <;> cases h
    exact ⟨by dsimp only [keyPhase]; split <;> rfl, by dsimp only [slotPhase]; split <;> rfl⟩
  | abandonSend a =>
    obtain ⟨v, passphrase, transactionId, pos⟩ := a
    cases pos <;> cases h
    exact ⟨rfl, by dsimp only [slotPhase]; split <;> rfl⟩
  | scan x =>
    obtain ⟨handle, v, priority, continuous, rescanFrom, pos, dbPath,
      forwarder, checked, swept, rolledBack⟩ := x
    cases pos <;> cases h
    exact ⟨rfl, by dsimp only [slotPhase]; split <;> rfl⟩
  | _ => exact ⟨rfl, rfl⟩

/-- A scan has returned only once its `stopped` token has fired. -/
theorem stopped_of_returned (h : system.Reach ok s) {x : Scan} (hd : s.calls d = some (.scan x))
    (hreturned : (Call.scan x).returned = true) : (s.shared.tokens d).stopped = true := by
  have hphase : (Call.scan x).slotPhase x.walletName = .done := by
    rw [Call.slotPhase, if_pos rfl]
    obtain ⟨handle, v, priority, continuous, rescanFrom, pos, dbPath,
      forwarder, checked, swept, rolledBack⟩ := x
    cases pos <;> first | rfl | cases hreturned
  have hdone := slotPhase_config ok (w := x.walletName) hd
  rw [hphase] at hdone
  exact SlotProtocol.stopped_of_done ((slotHom ok x.walletName).reach_any h) hdone

/-- Whom a call waits for has not returned. -/
theorem not_returned_of_waitsFor (h : system.Reach ok s) {c : CallId} (hcd : s.WaitsFor c d) :
    ∃ call, s.calls d = some call ∧ call.returned = false := by
  obtain ⟨call, r, hcall, hr, hd⟩ := hcd
  cases r with
  | gate v =>
    obtain ⟨p, hp, hgate⟩ := KeyProtocol.gate_held ((keyHom ok v).reach_any h) d hd
    obtain ⟨call', hcall', rfl⟩ := Option.map_eq_some_iff.mp hp
    refine ⟨call', hcall', Bool.eq_false_iff.mpr fun hreturned => ?_⟩
    have hfree := (Call.holds_of_returned (w := v) hreturned).1
    exact absurd (hgate.symm.trans hfree) nofun
  | maintenance v =>
    obtain ⟨p, hp, hholds⟩ := SlotProtocol.maintenance_held ((slotHom ok v).reach_any h) d hd
    obtain ⟨call', hcall', rfl⟩ := Option.map_eq_some_iff.mp hp
    refine ⟨call', hcall', Bool.eq_false_iff.mpr fun hreturned => ?_⟩
    have hfree := (Call.holds_of_returned (w := v) hreturned).2
    exact absurd (hholds.symm.trans hfree) nofun
  | stopped e =>
    obtain ⟨⟨x, hx, -⟩, -⟩ := entered_of_follows h c call e hcall (Call.follows_of_awaits hr)
    obtain ⟨hrunning, rfl⟩ := Shared.of_holder_stopped hd
    refine ⟨_, hx, Bool.eq_false_iff.mpr fun hreturned => ?_⟩
    exact hrunning (stopped_of_returned h hx hreturned)

/-! ## The order of waits -/

/-- Past its slot a scan waits only for the scan it follows. -/
theorem ScanAt.follows_of_entered {p : ScanAt} {r : Awaited} (hrank : 2 ≤ p.stage.rank)
    (hr : p.awaits w = some r) : ∃ e, r = .stopped e ∧ p.follows = some e := by
  cases p with
  | maintenance => cases hrank with | step h => cases h
  | waitPrevious e => exact ⟨e, (Option.some.inj hr).symm, rfl⟩
  | _ => cases hr

theorem unwinds_of_entered (h : system.Reach ok s) (hd : s.Entered d) : Unwinds s.WaitsFor d := by
  have hends := unwinds_follows h d
  induction hends with
  | intro d _ ih =>
    apply Unwinds.intro
    rintro b ⟨call, r, hcall, hr, hb⟩
    obtain ⟨x, hx, hrank⟩ := hd
    obtain rfl := Option.some.inj (hx.symm.trans hcall)
    obtain ⟨e, rfl, hfollows⟩ := ScanAt.follows_of_entered hrank hr
    obtain ⟨-, rfl⟩ := Shared.of_holder_stopped hb
    have hdb : s.Follows d b := ⟨x, hx, hfollows⟩
    exact ih b hdb (entered_of_scan_follows h hdb).2

/-- Whoever waits for no maintenance lock is on no endless chain. -/
theorem unwinds_of_awaits (h : system.Reach ok s) {c : CallId} {call : Call} (hc : s.calls c = some call)
    (hawaits : ∀ v, call.awaits ≠ some (.maintenance v)) : Unwinds s.WaitsFor c := by
  apply Unwinds.intro
  rintro b ⟨call', r, hcall, hr, hb⟩
  obtain rfl := Option.some.inj (hc.symm.trans hcall)
  cases r with
  | gate v =>
    obtain ⟨holder, hholder, hfree⟩ := awaits_of_gates h hb
    apply Unwinds.of_free
    rintro e ⟨call', r, hcall', hr', -⟩
    obtain rfl := Option.some.inj (hholder.symm.trans hcall')
    rw [hfree] at hr'
    cases hr'
  | maintenance v => exact absurd hr (hawaits v)
  | stopped e =>
    obtain ⟨-, rfl⟩ := Shared.of_holder_stopped hb
    exact unwinds_of_entered h (entered_of_follows h c call b hc (Call.follows_of_awaits hr)).1

theorem unwinds_waitsFor (h : system.Reach ok s) (c : CallId) : Unwinds s.WaitsFor c := by
  apply Unwinds.intro
  rintro b ⟨call, r, hcall, hr, hb⟩
  cases r with
  | gate v =>
    obtain ⟨holder, hholder, hfree⟩ := awaits_of_gates h hb
    exact unwinds_of_awaits h hholder fun v => by rw [hfree]; nofun
  | maintenance v =>
    obtain ⟨holder, hholder, hother⟩ := awaits_of_maintenance h hb
    exact unwinds_of_awaits h hholder hother
  | stopped e =>
    obtain ⟨-, rfl⟩ := Shared.of_holder_stopped hb
    exact unwinds_of_entered h (entered_of_follows h c call b hcall (Call.follows_of_awaits hr)).1

/-! ## Waiting is all that keeps a call from going on -/

theorem GateAt.next_of_waits {g : GateAt} {r : Awaited} (hr : g.awaits w = some r)
    (hd : σ.holder r = some d) : g.next me w σ = none := by
  cases g with
  | wait =>
    cases hr
    have hheld : σ.gates w = some d := hd
    simp [next, Shared.holdGate, hheld]
  | _ => cases hr

theorem StopAt.next_of_waits {s : StopAt} {r : Awaited} (hr : s.awaits = some r)
    (hd : σ.holder r = some d) : s.next w σ = none := by
  cases s with
  | cancel => cases hr
  | wait e =>
    cases hr
    exact if_neg (Shared.of_holder_stopped hd).1

theorem EverywhereAt.next_of_waits {e : EverywhereAt} {r : Awaited} (hr : e.awaits w = some r)
    (hd : σ.holder r = some d) : e.next me w σ = none := by
  cases e with
  | remove => cases hr
  | gate file g => rw [next, GateAt.next_of_waits hr hd]
  | stop s => rw [next, StopAt.next_of_waits hr hd]

theorem Shared.beginMaintenance_of_held (hd : σ.holder (.maintenance w) = some d) :
    σ.beginMaintenance w me = none := by
  have hheld : σ.maintenance w = some d := hd
  simp [beginMaintenance, hheld]

/-- A call whose wait somebody has to end takes no step, whatever it is answered. -/
theorem Call.next_of_waits {call : Call} {r : Awaited} (hr : call.awaits = some r)
    (hd : σ.holder r = some d) : call.next me ch σ = none := by
  cases call with
  | unlockWallet u =>
    obtain ⟨path, v, passphrase, pos⟩ := u
    cases pos with
    | gate g =>
      cases hr
      have hheld : σ.gates v = some d := hd
      simp [next, UnlockWallet.next, Shared.holdGate, hheld]
    | _ => cases hr
  | lockWallet l =>
    obtain ⟨v, holder, pos⟩ := l
    cases pos with
    | gate file g => simp [next, LockWallet.next, GateAt.next_of_waits hr hd]
    | stop s => simp [next, LockWallet.next, StopAt.next_of_waits hr hd]
    | _ => cases hr
  | forceLockWallet f =>
    obtain ⟨v, pos⟩ := f
    cases pos with
    | everywhere e => simp [next, ForceLockWallet.next, EverywhereAt.next_of_waits hr hd]
    | returned => cases hr
  | withWalletLocked m =>
    obtain ⟨v, change, pos⟩ := m
    cases pos with
    | «begin» =>
      dsimp only [awaits, WithWalletLocked.awaits] at hr
      split at hr <;> cases hr
      rename_i hname
      simp [next, WithWalletLocked.next, hname, Shared.beginMaintenance_of_held hd]
    | lockBefore file e => simp [next, WithWalletLocked.next, EverywhereAt.next_of_waits hr hd]
    | lockAfter e changed => simp [next, WithWalletLocked.next, EverywhereAt.next_of_waits hr hd]
    | _ => cases hr
  | changePassphrase p =>
    obtain ⟨v, old, new, pos⟩ := p
    cases pos with
    | «begin» =>
      cases hr
      simp [next, ChangePassphrase.next, Shared.beginMaintenance_of_held hd]
    | stop s => simp [next, ChangePassphrase.next, StopAt.next_of_waits hr hd]
    | _ => cases hr
  | abandonSend a =>
    obtain ⟨v, passphrase, transactionId, pos⟩ := a
    cases pos with
    | «begin» account =>
      cases hr
      simp [next, AbandonSend.next, Shared.beginMaintenance_of_held hd]
    | stop s account => simp [next, AbandonSend.next, StopAt.next_of_waits hr hd]
    | _ => cases hr
  | scan x =>
    obtain ⟨handle, v, priority, continuous, rescanFrom, pos, dbPath,
      forwarder, checked, swept, rolledBack⟩ := x
    cases pos with
    | maintenance =>
      cases hr
      simp [next, Scan.next, Shared.beginMaintenance_of_held hd]
    | waitPrevious e =>
      cases hr
      simp [next, Scan.next, (Shared.of_holder_stopped hd).1]
    | _ => cases hr
  | stopScan x =>
    obtain ⟨handle, pos⟩ := x
    cases pos with
    | wait e =>
      cases hr
      simp [next, StopScan.next, (Shared.of_holder_stopped hd).1]
    | _ => cases hr
  | _ => cases hr

/-- A call in flight takes a step unless it waits for somebody. -/
theorem exists_next_iff {c : CallId} {call : Call} (hc : s.calls c = some call)
    (hflight : call.returned = false) :
    (∃ ch r, call.next c ch s.shared = some r) ↔ ∀ d, ¬ s.WaitsFor c d := by
  constructor
  · rintro ⟨ch, next, hnext⟩ d ⟨call', r, hcall', hr, hd⟩
    obtain rfl := Option.some.inj (hc.symm.trans hcall')
    rw [Call.next_of_waits hr hd] at hnext
    cases hnext
  · intro hfree
    refine Call.exists_next (fun r hr => ?_) hflight
    cases hd : s.shared.holder r with
    | none => rfl
    | some d => exact absurd ⟨call, r, hc, hr, hd⟩ (hfree d)

/-- No deadlock.  A call in flight takes a step unless it waits, for a gate, a maintenance lock or a
scan's `stopped` token, and no chain of waits closes a circle: the waits of every call lead to one in
flight that can take a step.  A scan somebody waits for to stop is cancelled. -/
theorem no_deadlock (h : system.Reach ok s) :
    (∀ c, ¬ Relation.TransGen s.WaitsFor c c) ∧
    (∀ c call, s.calls c = some call → call.returned = false →
      ((∃ ch r, call.next c ch s.shared = some r) ↔ ∀ d, ¬ s.WaitsFor c d) ∧
      ∃ d call' ch r, Relation.ReflTransGen s.WaitsFor c d ∧ s.calls d = some call' ∧
        call'.returned = false ∧ call'.next d ch s.shared = some r) ∧
    ∀ c call d, s.calls c = some call → call.awaits = some (.stopped d) →
      (s.shared.tokens d).cancelled = true := by
  refine ⟨fun c => (unwinds_waitsFor h c).not_cycle, fun c call hc hflight => ⟨?_, ?_⟩, ?_⟩
  · exact exists_next_iff hc hflight
  · obtain ⟨d, hcd, ⟨call', hd, hflight'⟩, hlast⟩ := (unwinds_waitsFor h c).exists_free
      (P := fun d => ∃ call, s.calls d = some call ∧ call.returned = false)
      (fun _ _ _ hab => not_returned_of_waitsFor h hab) ⟨call, hc, hflight⟩
    obtain ⟨ch, r, hnext⟩ := (exists_next_iff hd hflight').mpr hlast
    exact ⟨d, call', ch, r, hcd, hd, hflight', hnext⟩
  · intro c call d hc hd
    exact (entered_of_follows h c call d hc (Call.follows_of_awaits hd)).2

/-- A scan of "main" is at work, a passphrase change waits for it to stop, and a second scan waits for the
passphrase change. -/
def threeInLine : Option World :=
  (replay 6 fun _ _ => true).exec fresh
    (unlocks 0 firstPath ++ startsScan 1 2 0 ++ go 2 2 ++
      .start 3 (.changePassphrase ⟨"main", "secret", "new", .conn⟩) :: go 3 4 ++
        (startsScan 4 5 1).take 9)

theorem no_deadlock_threeInLine : ∃ s call, threeInLine = some s ∧ s.WaitsFor 5 3 ∧ s.WaitsFor 3 2 ∧
    ¬ Relation.TransGen s.WaitsFor 5 5 ∧ (s.shared.tokens 2).cancelled = true ∧
    s.calls 5 = some call ∧ ¬ (∃ ch r, call.next 5 ch s.shared = some r) ∧
    ∃ d call' ch r, Relation.ReflTransGen s.WaitsFor 5 d ∧ s.calls d = some call' ∧
      call'.returned = false ∧ call'.next d ch s.shared = some r := by
  obtain ⟨s, hs⟩ := Option.isSome_iff_exists.mp (by decide : threeInLine.isSome = true)
  have facts : threeInLine.map (fun s => ((s.calls 5).map fun call => (call.awaits, call.returned),
      (s.calls 3).bind Call.awaits, s.shared.maintenance "main", (s.shared.tokens 2).stopped)) =
      some (some (some (.maintenance "main"), false), some (.stopped 2), some 3, false) := by decide
  simp only [hs, Option.map_some, Option.some.injEq, Prod.mk.injEq, Option.map_eq_some_iff,
    Option.bind_eq_some_iff] at facts
  obtain ⟨⟨scan, hscan, hawaits, hflight⟩, ⟨change, hchange, hwait⟩, hholder, hrunning⟩ := facts
  have hreach : system.Reach (fun _ _ => True) s :=
    (replay_sound fun _ _ _ _ => trivial).reach fresh_init hs
  have h53 : s.WaitsFor 5 3 := ⟨scan, _, hscan, hawaits, hholder⟩
  have h32 : s.WaitsFor 3 2 := ⟨change, _, hchange, hwait, by simp [Shared.holder, hrunning]⟩
  obtain ⟨hacyclic, hflights, hcancelled⟩ := no_deadlock hreach
  obtain ⟨hblocked, hlast⟩ := hflights 5 scan hscan hflight
  exact ⟨s, scan, hs, h53, h32, hacyclic 5, hcancelled 3 change 2 hchange hwait, hscan,
    fun hnext => hblocked.mp hnext 3 h53, hlast⟩

end CwTariWallet
