/-
# CwTariWallet.Bridge.KeySteps -- the ways a step can change the key sessions

Sessions are stored by `unlock_wallet` alone, with the wallet's gate held; they are dropped by the gate
step of a lock, and by minotari while it deletes, renames or re-encrypts an account.
-/
import CwTariWallet.Bridge.KeyRefinement

namespace CwTariWallet

open Interleaving

/-- What a step can do to the key sessions. -/
inductive KeysStep (me : CallId) : Call → Shared → Call → Shared → Prop
  | same {call call' σ σ'} : σ'.keys = σ.keys → σ'.nextSerial = σ.nextSerial →
      KeysStep me call σ call' σ'
  | stored {u g keys foreign σ} : u.pos = .unlock g →
      σ.keys.unlock u.path (σ.files u.path) u.walletName u.passphrase foreign σ.nextSerial =
        .ok keys →
      KeysStep me (.unlockWallet u) σ (.unlockWallet (u.to (.confirm g)))
        { σ with keys := keys, nextSerial := σ.nextSerial + 1 }
  | locked {v call call' σ} : call.keyPhase v = .locking → call'.keyPhase v = .cancelling →
      KeysStep me call σ call' { σ with keys := σ.keys.lock v }
  | dropped {v call σ} : (call.keyPhase v).maintains = true →
      KeysStep me call σ call { σ with keys := σ.keys.lock v }

variable {w : WalletName} {me : CallId} {ch : Choice} {σ σ' : Shared}

/-! ## Every step is one of them -/

/-- A gate step keeps the sessions, or is at `session::lock`. -/
theorem GateHeldAt.next_keys {v : WalletName} {h : GateHeldAt} {r : GateHeldAt ⊕ Bool}
    (hnext : h.next v σ = (r, σ')) :
    (σ'.keys = σ.keys ∧ σ'.nextSerial = σ.nextSerial) ∨
      (h = .lockSession ∧ r = .inl .cancelScans ∧ σ' = { σ with keys := σ.keys.lock v }) := by
  cases h with
  | readState =>
    simp only [GateHeldAt.next] at hnext
    split at hnext <;> obtain ⟨-, rfl⟩ := Prod.mk.inj hnext <;> exact Or.inl ⟨rfl, rfl⟩
  | lockSession =>
    obtain ⟨rfl, rfl⟩ := Prod.mk.inj hnext
    exact Or.inr ⟨rfl, rfl, rfl⟩
  | cancelScans =>
    obtain ⟨-, rfl⟩ := Prod.mk.inj hnext
    rw [Shared.cancelWalletScans_eq]
    exact Or.inl ⟨rfl, rfl⟩

theorem GateAt.next_keys {v : WalletName} {g : GateAt} {r : GateAt ⊕ Bool}
    (hnext : g.next me v σ = some (r, σ')) :
    (σ'.keys = σ.keys ∧ σ'.nextSerial = σ.nextSerial) ∨
      (g = .held .lockSession ∧ r = .inl (.held .cancelScans) ∧
        σ' = { σ with keys := σ.keys.lock v }) := by
  cases g with
  | wait =>
    obtain ⟨σ₁, hhold, h⟩ := Option.map_eq_some_iff.mp hnext
    obtain ⟨-, rfl⟩ := Shared.holdGate_eq_some hhold
    cases h
    exact Or.inl ⟨rfl, rfl⟩
  | held h =>
    simp only [GateAt.next] at hnext
    split at hnext <;> cases hnext <;>
      rcases GateHeldAt.next_keys ‹_› with hsame | ⟨rfl, hr, rfl⟩
    · exact Or.inl hsame
    · obtain rfl := Sum.inl.inj hr
      exact Or.inr ⟨rfl, rfl, rfl⟩
    · exact Or.inl hsame
    · cases hr
  | leave locked =>
    cases hnext
    exact Or.inl ⟨rfl, rfl⟩

theorem StopAt.next_keys {v : WalletName} {s : StopAt} {r : StopAt ⊕ Unit}
    (h : s.next v σ = some (r, σ')) : σ'.keys = σ.keys ∧ σ'.nextSerial = σ.nextSerial := by
  obtain ⟨scans, tokens, rfl⟩ := StopAt.next_frame h
  exact ⟨rfl, rfl⟩

theorem EverywhereAt.next_keys {v : WalletName} {e : EverywhereAt} {r : EverywhereAt ⊕ Unit}
    (hnext : e.next me v σ = some (r, σ')) :
    (σ'.keys = σ.keys ∧ σ'.nextSerial = σ.nextSerial) ∨
      ∃ file, e = .gate file (.held .lockSession) ∧ r = .inl (.gate file (.held .cancelScans)) ∧
        σ' = { σ with keys := σ.keys.lock v } := by
  cases e with
  | remove =>
    cases hnext
    exact Or.inl ⟨rfl, rfl⟩
  | gate file g =>
    simp only [EverywhereAt.next] at hnext
    split at hnext <;> cases hnext <;>
      rcases GateAt.next_keys ‹_› with hsame | ⟨rfl, hr, rfl⟩
    · exact Or.inl hsame
    · obtain rfl := Sum.inl.inj hr
      exact Or.inr ⟨file, rfl, rfl, rfl⟩
    · exact Or.inl hsame
    · cases hr
  | stop s =>
    simp only [EverywhereAt.next] at hnext
    split at hnext <;> cases hnext <;> exact Or.inl (StopAt.next_keys ‹_›)

theorem LockWallet.keysStep {l l' : LockWallet} (h : l.next me σ = some (l', σ')) :
    KeysStep me (.lockWallet l) σ (.lockWallet l') σ' := by
  obtain ⟨v, holder, pos⟩ := l
  unfold next at h
  cases pos with
  | release =>
    dsimp only at h
    split at h <;> cases h <;> obtain ⟨db, -, rfl⟩ := Shared.releaseSession_eq ‹_› <;>
      exact .same rfl rfl
  | gate file g =>
    dsimp only at h
    split at h <;> cases h <;> rcases GateAt.next_keys ‹_› with ⟨hkeys, hserial⟩ | ⟨rfl, hr, rfl⟩
    · exact .same hkeys hserial
    · obtain rfl := Sum.inl.inj hr
      exact .locked (by simp [Call.keyPhase, LockAt.keyPhase, GateAt.keyPhase, GateHeldAt.keyPhase])
        (by simp [Call.keyPhase, LockAt.keyPhase, GateAt.keyPhase, GateHeldAt.keyPhase])
    · exact .same hkeys hserial
    · cases hr
    · exact .same hkeys hserial
    · cases hr
  | stop s =>
    dsimp only at h
    split at h <;> cases h
    all_goals
      obtain ⟨hkeys, hserial⟩ := StopAt.next_keys ‹_›
      exact .same hkeys hserial
  | returned r => cases h

theorem ForceLockWallet.keysStep {f f' : ForceLockWallet} (h : f.next me σ = some (f', σ')) :
    KeysStep me (.forceLockWallet f) σ (.forceLockWallet f') σ' := by
  obtain ⟨v, pos⟩ := f
  unfold next at h
  cases pos with
  | everywhere e =>
    dsimp only at h
    split at h <;> cases h <;>
      rcases EverywhereAt.next_keys ‹_› with ⟨hkeys, hserial⟩ | ⟨file, rfl, hr, rfl⟩
    · exact .same hkeys hserial
    · obtain rfl := Sum.inl.inj hr
      exact .locked (by simp [Call.keyPhase, ForceAt.keyPhase, EverywhereAt.keyPhase,
        GateAt.keyPhase, GateHeldAt.keyPhase]) (by simp [Call.keyPhase, ForceAt.keyPhase,
        EverywhereAt.keyPhase, GateAt.keyPhase, GateHeldAt.keyPhase])
    · exact .same hkeys hserial
    · cases hr
  | returned => cases h

theorem UnlockWallet.keysStep {u u' : UnlockWallet} (h : u.next me ch σ = some (u', σ')) :
    KeysStep me (.unlockWallet u) σ (.unlockWallet u') σ' := by
  obtain ⟨path, v, passphrase, pos⟩ := u
  unfold next at h
  cases pos with
  | count =>
    dsimp only at h
    split at h <;> cases h
    · obtain ⟨db, rfl, -⟩ := Shared.count_error ‹_›
      exact .same rfl rfl
    · obtain ⟨db, files, rfl, -, -⟩ := Shared.count_ok ‹_›
      exact .same rfl rfl
  | gate g =>
    obtain ⟨σ₁, hhold, h⟩ := Option.map_eq_some_iff.mp h
    obtain ⟨-, rfl⟩ := Shared.holdGate_eq_some hhold
    cases h
    exact .same rfl rfl
  | unlock g =>
    dsimp only at h
    split at h
    · cases h
      exact .same rfl rfl
    · split at h <;> cases h
      · exact .same rfl rfl
      · exact .stored rfl ‹_›
  | failed g e =>
    dsimp only at h
    split at h <;> cases h <;>
      rcases Shared.releaseFailed_eq ‹_› with ⟨-, db, -, rfl⟩ | ⟨-, -, rfl⟩ <;> exact .same rfl rfl
  | lockHeld hh g e =>
    dsimp only at h
    split at h <;> cases h <;>
      rcases GateHeldAt.next_keys ‹_› with ⟨hkeys, hserial⟩ | ⟨rfl, hr, rfl⟩
    · exact .same hkeys hserial
    · obtain rfl := Sum.inl.inj hr
      exact .locked (by simp [Call.keyPhase, UnlockAt.keyPhase, GateHeldAt.keyPhase])
        (by simp [Call.keyPhase, UnlockAt.keyPhase, GateHeldAt.keyPhase, UnlockWallet.to])
    · exact .same hkeys hserial
    · cases hr
  | leave g r =>
    cases h
    exact .same rfl rfl
  | returned g r => cases h
  | _ =>
    dsimp only at h
    (repeat' split at h) <;> cases h <;> exact .same rfl rfl

theorem WithWalletLocked.keysStep {m m' : WithWalletLocked} (h : m.next me ch σ = some (m', σ')) :
    KeysStep me (.withWalletLocked m) σ (.withWalletLocked m') σ' := by
  obtain ⟨v, change, pos⟩ := m
  unfold next at h
  cases pos with
  | «begin» =>
    dsimp only at h
    split at h
    · cases h
      exact .same rfl rfl
    · obtain ⟨σ₁, hbegin, h⟩ := Option.map_eq_some_iff.mp h
      obtain ⟨-, rfl⟩ := Shared.beginMaintenance_eq_some hbegin
      cases h
      exact .same rfl rfl
  | conn =>
    dsimp only at h
    split at h <;> cases h <;> exact .same rfl rfl
  | lockBefore file' e =>
    dsimp only at h
    split at h <;> cases h <;>
      rcases EverywhereAt.next_keys ‹_› with ⟨hkeys, hserial⟩ | ⟨file, rfl, hr, rfl⟩
    · exact .same hkeys hserial
    · obtain rfl := Sum.inl.inj hr
      exact .locked (by simp [Call.keyPhase, WithLockedAt.keyPhase, EverywhereAt.keyPhase,
        GateAt.keyPhase, GateHeldAt.keyPhase]) (by simp [Call.keyPhase, WithLockedAt.keyPhase,
        EverywhereAt.keyPhase, GateAt.keyPhase, GateHeldAt.keyPhase, WithWalletLocked.to])
    · exact .same hkeys hserial
    · cases hr
  | change file =>
    dsimp only at h
    split at h <;> cases h
    · exact .dropped (by simp [Call.keyPhase, WithLockedAt.keyPhase, KeyProtocol.Phase.maintains])
    · exact .same rfl rfl
  | settle file changed =>
    dsimp only at h
    split at h <;> cases h
    · exact .dropped (by simp [Call.keyPhase, WithLockedAt.keyPhase, KeyProtocol.Phase.maintains])
    · exact .same rfl rfl
  | lockAfter e changed =>
    dsimp only at h
    split at h <;> cases h <;>
      rcases EverywhereAt.next_keys ‹_› with ⟨hkeys, hserial⟩ | ⟨file, rfl, hr, rfl⟩
    · exact .same hkeys hserial
    · obtain rfl := Sum.inl.inj hr
      exact .locked (by simp [Call.keyPhase, WithLockedAt.keyPhase, EverywhereAt.keyPhase,
        GateAt.keyPhase, GateHeldAt.keyPhase]) (by simp [Call.keyPhase, WithLockedAt.keyPhase,
        EverywhereAt.keyPhase, GateAt.keyPhase, GateHeldAt.keyPhase, WithWalletLocked.to])
    · exact .same hkeys hserial
    · cases hr
  | leave r =>
    cases h
    exact .same rfl rfl
  | returned r => cases h

theorem ChangePassphrase.keysStep {p p' : ChangePassphrase} (h : p.next me ch σ = some (p', σ')) :
    KeysStep me (.changePassphrase p) σ (.changePassphrase p') σ' := by
  obtain ⟨v, old, new, pos⟩ := p
  unfold next at h
  cases pos with
  | «begin» =>
    obtain ⟨σ₁, hbegin, h⟩ := Option.map_eq_some_iff.mp h
    obtain ⟨-, rfl⟩ := Shared.beginMaintenance_eq_some hbegin
    cases h
    exact .same rfl rfl
  | stop s =>
    dsimp only at h
    split at h <;> cases h
    all_goals
      obtain ⟨hkeys, hserial⟩ := StopAt.next_keys ‹_›
      exact .same hkeys hserial
  | write file =>
    dsimp only at h
    split at h
    · cases h
      exact .dropped (by simp [Call.keyPhase, ChangeAt.keyPhase, KeyProtocol.Phase.maintains])
    · split at h <;> cases h <;> exact .same rfl rfl
  | settle file r =>
    dsimp only at h
    split at h <;> cases h
    · exact .dropped (by simp [Call.keyPhase, ChangeAt.keyPhase, KeyProtocol.Phase.maintains])
    · exact .same rfl rfl
  | _ =>
    dsimp only at h
    (repeat' split at h) <;> cases h <;> exact .same rfl rfl

/-- Every step of the bridge changes the key sessions in one of these ways. -/
theorem Call.keysStep {call call' : Call} (h : call.next me ch σ = some (call', σ')) :
    KeysStep me call σ call' σ' := by
  cases call <;> obtain ⟨r, hr, h⟩ := Option.map_eq_some_iff.mp h <;> cases h
  case setDatabasePath p =>
    obtain ⟨path, hσ⟩ := SetDatabasePath.next_frame hr
    rw [hσ]
    exact .same rfl rfl
  case unlockWallet u => exact UnlockWallet.keysStep hr
  case lockWallet l => exact LockWallet.keysStep hr
  case forceLockWallet f => exact ForceLockWallet.keysStep hr
  case withWalletLocked m => exact WithWalletLocked.keysStep hr
  case changePassphrase p => exact ChangePassphrase.keysStep hr
  case abandonSend a =>
    obtain ⟨scans, tokens, maintenance, hσ⟩ := AbandonSend.next_frame hr
    rw [hσ]
    exact .same rfl rfl
  case scan s =>
    obtain ⟨files, scans, tokens, maintenance, hσ⟩ := Scan.next_frame hr
    rw [hσ]
    exact .same rfl rfl
  case stopScan s =>
    obtain ⟨scans, tokens, hσ, -⟩ := StopScan.next_frame hr
    rw [hσ]
    exact .same rfl rfl
  case createScanHandle s =>
    obtain ⟨issued, scanId, hσ⟩ := CreateScanHandle.next_frame hr
    rw [hσ]
    exact .same rfl rfl
  case sendTransaction s =>
    obtain ⟨files, network, hσ⟩ := SendTransaction.next_frame hr
    rw [hσ]
    exact .same rfl rfl
  case createWallet c =>
    obtain ⟨files, network, hσ⟩ := CreateWallet.next_frame hr
    rw [hσ]
    exact .same rfl rfl
  case getAddress c =>
    obtain ⟨files, network, hσ⟩ := GetAddress.next_frame hr
    rw [hσ]
    exact .same rfl rfl

/-! ## Where a session comes from -/

/-- A session is the one there was, or an `unlock_wallet` stores it now, for the right passphrase. -/
theorem KeysStep.origin {call call' : Call} (h : KeysStep me call σ call' σ') {k : KeySession}
    (hk : σ'.keys w = some k) :
    σ.keys w = some k ∨ ∃ u g foreign account, call = .unlockWallet u ∧ u.walletName = w ∧
      u.pos = .unlock g ∧ k = ⟨u.path, σ.nextSerial⟩ ∧ σ'.nextSerial = σ.nextSerial + 1 ∧
      σ.keys.isUnlocked u.path w foreign = false ∧
      (σ.files u.path).getAccountByName w = some account ∧ account.passphrase = u.passphrase := by
  have hlock {v : WalletName} (hk : σ.keys.lock v w = some k) : σ.keys w = some k := by
    by_cases hv : w = v
    · subst hv
      simp at hk
    · rwa [KeySessions.lock_ne _ hv] at hk
  cases h with
  | same hkeys _ => exact Or.inl (hkeys ▸ hk)
  | @stored u g _ foreign _ hpos hunlock =>
    rcases KeySessions.unlock_ok hunlock with ⟨-, rfl⟩ | ⟨hlocked, rfl, account, ha, hp⟩
    · exact Or.inl hk
    · dsimp only at hk
      by_cases hw : w = u.walletName
      · subst hw
        rw [Function.update_self] at hk
        exact Or.inr ⟨u, g, foreign, account, rfl, rfl, hpos, (Option.some.inj hk).symm, rfl,
          hlocked, ha, hp⟩
      · rw [Function.update_of_ne hw] at hk
        exact Or.inl hk
  | locked _ _ => exact Or.inl (hlock hk)
  | dropped _ => exact Or.inl (hlock hk)

/-- A wallet's gate has one holder. -/
theorem gate_holder_unique {ok : Guard Shared Call} {s : World} (h : system.Reach ok s) {c d : CallId}
    {call other : Call} (hc : s.calls c = some call) (hgate : (call.keyPhase w).holdsGate = true)
    (hd : s.calls d = some other) (hgate' : (other.keyPhase w).holdsGate = true) : c = d := by
  have hT := (keyHom ok w).reach_any h
  refine KeyProtocol.gate_unique hT (p := call.keyPhase w) (q := other.keyPhase w) ?_ hgate ?_ hgate'
  · simp [keyHom, hc]
  · simp [keyHom, hd]

/-- While one call holds the gate, no other stores a session. -/
theorem no_session_kept {ok : Guard Shared Call} {s : World} (h : system.Reach ok s) {c m : CallId}
    {call l l' : Call} (hc : s.calls c = some call) (hgate : (call.keyPhase w).holdsGate = true)
    (hm : s.calls m = some l) (hstep : l.next m ch s.shared = some (l', σ')) (hne : c ≠ m)
    (hnone : s.shared.keys w = none) : σ'.keys w = none := by
  by_contra hsome
  obtain ⟨k, hk⟩ := Option.ne_none_iff_exists'.mp hsome
  rcases (Call.keysStep hstep).origin hk with hold | ⟨u, g, _, _, rfl, hw, hpos, -⟩
  · rw [hnone] at hold
    cases hold
  · apply hne (gate_holder_unique h hc hgate hm _)
    simp [Call.keyPhase, hw, hpos, UnlockAt.keyPhase, KeyProtocol.Phase.holdsGate]

end CwTariWallet
