/-
# CwTariWallet.Isolation.Calls -- what a call brings along, and one file

A call keeps the arguments it was made with (`Call.next_begun`), its wallet among them.  When every call
names one database file, only that file is ever recorded or opened (`Call.onOne_next`).  The process network
is the one `tari_common` was left with (`Call.next_network`).  Whom a call waits for is a scan of its own
wallet (`awaited_wallet`).
-/
import CwTariWallet.Bridge.Handles
import CwTariWallet.Bridge.SendCourse
import CwTariWallet.Bridge.Waiting
import CwTariWallet.Domain.SendGate
import CwTariWallet.Isolation.Sessions

namespace CwTariWallet

open Interleaving

variable {me : CallId} {ch : Choice} {σ σ' : Shared} {call call' : Call}

/-! ## The arguments of a call -/

/-- The call as it began. -/
def Call.begun : Call → Call
  | .setDatabasePath p => .setDatabasePath { p with pos := .set }
  | .unlockWallet u => .unlockWallet (u.to .count)
  | .lockWallet l => .lockWallet { l with pos := .release }
  | .forceLockWallet f => .forceLockWallet { f with pos := .everywhere .remove }
  | .withWalletLocked m => .withWalletLocked (m.to .begin)
  | .changePassphrase p => .changePassphrase (p.to .conn)
  | .abandonSend a => .abandonSend (a.to .conn)
  | .scan s =>
    .scan ⟨s.handle, s.walletName, s.priority, s.continuous, s.rescanFrom, .claim, none, {}, none, none, none⟩
  | .stopScan s => .stopScan { s with pos := .stop }
  | .createScanHandle h => .createScanHandle { h with pos := .fetch }
  | .sendTransaction s => .sendTransaction ⟨s.details, .initializing, []⟩
  | .createWallet c => .createWallet (c.goto .network)
  | .getAddress a => .getAddress ⟨a.walletName, a.network, .network, none⟩

theorem Scan.next_begun {x x' : Scan} (h : x.next me ch σ = some (x', σ')) :
    (Call.scan x').begun = (Call.scan x).begun := by
  obtain ⟨handle, v, priority, continuous, rescanFrom, pos, dbPath, forwarder, checked, swept, rolledBack⟩ := x
  unfold next at h
  cases pos with
  | maintenance =>
    obtain ⟨σ₁, -, h⟩ := Option.map_eq_some_iff.mp h
    cases h
    rfl
  | sweepConn | sweep file =>
    cases rescanFrom <;> dsimp only at h <;> (repeat' split at h) <;> cases h <;> rfl
  | _ =>
    dsimp only at h
    (repeat' split at h) <;> cases h <;> rfl

/-- A call keeps its arguments. -/
theorem Call.next_begun (h : call.next me ch σ = some (call', σ')) : call'.begun = call.begun := by
  cases call <;> obtain ⟨⟨x', σ''⟩, hr, h⟩ := Option.map_eq_some_iff.mp h <;> cases h
  case setDatabasePath p =>
    obtain ⟨path, pos⟩ := p
    unfold SetDatabasePath.next at hr
    cases pos <;> dsimp only at hr <;> (repeat' split at hr) <;> cases hr <;> rfl
  case unlockWallet u =>
    obtain ⟨hpath, hname, hpass, -⟩ := UnlockWallet.next_same hr
    simp only [begun, UnlockWallet.to, hpath, hname, hpass]
  case lockWallet l =>
    obtain ⟨v, holder, pos⟩ := l
    unfold LockWallet.next at hr
    cases pos <;> dsimp only at hr <;> (repeat' split at hr) <;> cases hr <;> rfl
  case forceLockWallet f =>
    obtain ⟨v, pos⟩ := f
    unfold ForceLockWallet.next at hr
    cases pos <;> dsimp only at hr <;> (repeat' split at hr) <;> cases hr <;> rfl
  case withWalletLocked m =>
    obtain ⟨v, change, pos⟩ := m
    unfold WithWalletLocked.next at hr
    cases pos with
    | «begin» =>
      dsimp only at hr
      split at hr
      · cases hr
        rfl
      · obtain ⟨σ₁, -, hr⟩ := Option.map_eq_some_iff.mp hr
        cases hr
        rfl
    | _ => dsimp only at hr; (repeat' split at hr) <;> cases hr <;> rfl
  case changePassphrase p =>
    obtain ⟨v, old, new, pos⟩ := p
    unfold ChangePassphrase.next at hr
    cases pos with
    | «begin» =>
      obtain ⟨σ₁, -, hr⟩ := Option.map_eq_some_iff.mp hr
      cases hr
      rfl
    | _ => dsimp only at hr; (repeat' split at hr) <;> cases hr <;> rfl
  case abandonSend a =>
    obtain ⟨v, passphrase, transactionId, pos⟩ := a
    unfold AbandonSend.next at hr
    cases pos with
    | «begin» account =>
      obtain ⟨σ₁, -, hr⟩ := Option.map_eq_some_iff.mp hr
      cases hr
      rfl
    | _ => dsimp only at hr; (repeat' split at hr) <;> cases hr <;> rfl
  case scan x => exact Scan.next_begun hr
  case stopScan x =>
    obtain ⟨handle, pos⟩ := x
    unfold StopScan.next at hr
    cases pos <;> dsimp only at hr <;> (repeat' split at hr) <;> cases hr <;> rfl
  case createScanHandle x =>
    obtain ⟨v, pos⟩ := x
    unfold CreateScanHandle.next at hr
    cases pos <;> cases hr <;> rfl
  case sendTransaction x => simp only [begun, SendTransaction.next_details hr]
  case createWallet c =>
    obtain ⟨v, network, passphrase, source, pos⟩ := c
    unfold CreateWallet.next at hr
    cases pos <;> dsimp only at hr <;> (repeat' split at hr) <;> cases hr <;> rfl
  case getAddress a =>
    obtain ⟨v, network, pos, live⟩ := a
    unfold GetAddress.next at hr
    cases pos <;> dsimp only at hr <;> (repeat' split at hr) <;> cases hr <;> rfl

theorem Call.wallet_begun (call : Call) : call.begun.wallet = call.wallet := by
  cases call <;> rfl

theorem Call.next_wallet (h : call.next me ch σ = some (call', σ')) : call'.wallet = call.wallet := by
  rw [← call'.wallet_begun, Call.next_begun h, call.wallet_begun]

/-- A call for the wallets in `W`, or for none. -/
def Call.On (W : WalletName → Prop) (call : Call) : Prop := ∀ w, call.wallet = some w → W w

theorem Call.on_next {W : WalletName → Prop} (h : call.next me ch σ = some (call', σ')) :
    call'.On W ↔ call.On W := by
  unfold Call.On
  rw [Call.next_wallet h]

/-! ## One file, renames among the wallets -/

variable {W : WalletName → Prop} {path : PathBuf} {tariCommon : TariCommon}

/-- What a call names: the one database file, and for a rename two wallets in `W` or none. -/
def Call.Fits (W : WalletName → Prop) (path : PathBuf) : Call → Prop
  | .setDatabasePath p => p.path = path
  | .unlockWallet u => u.path = path
  | .withWalletLocked m => ∀ new, m.change = .rename new → (W m.walletName ↔ W new)
  | _ => True

theorem Call.fits_begun : call.begun.Fits W path ↔ call.Fits W path := by
  cases call <;> exact Iff.rfl

theorem Call.fits_next (h : call.next me ch σ = some (call', σ')) :
    call'.Fits W path ↔ call.Fits W path := by
  rw [← Call.fits_begun, Call.next_begun h, Call.fits_begun]

/-- Only `path` was recorded or opened, in a process built with `tariCommon`. -/
structure Shared.OnOne (path : PathBuf) (tariCommon : TariCommon) (σ : Shared) : Prop where
  db : σ.db.OnFile path
  tariCommon : σ.network.tariCommon = tariCommon

theorem DbStep.onFile (h : DbStep me call σ call' σ') (hfits : call.Fits W path)
    (hdb : σ.db.OnFile path) : σ'.db.OnFile path := by
  cases h with
  | same heq _ =>
    rw [heq]
    exact hdb
  | setPath _ hset =>
    obtain rfl := hfits
    unfold DbState.setDatabasePath at hset
    split at hset <;> cases hset
    exact ⟨hdb.pool, fun p hp => (Option.some.inj hp).symm, hdb.counted⟩
  | @countError u ch _ _ _ _ hcount =>
    obtain rfl := hfits
    unfold Shared.count at hcount
    split at hcount <;> cases hcount
    exact hdb.count ‹_›
  | @count u ch _ _ _ _ hcount =>
    obtain rfl := hfits
    unfold Shared.count at hcount
    split at hcount <;> cases hcount
    split <;> exact hdb.count ‹_›
  | release _ hrel _ =>
    obtain ⟨db, hone, rfl⟩ := Shared.releaseSession_eq hrel
    exact hdb.releaseOne hone
  | giveBack _ hgive _ =>
    rcases Shared.releaseFailed_eq hgive with ⟨-, db, hone, rfl⟩ | ⟨-, -, rfl⟩
    · exact hdb.releaseOne hone
    · exact hdb
  | remove _ => exact hdb.removeSession _

theorem ProcessNetwork.setIfChoiceValid_tariCommon {network network' : ProcessNetwork} {n : Network}
    (h : network.setIfChoiceValid n = .ok network') : network'.tariCommon = network.tariCommon := by
  unfold setIfChoiceValid at h
  split at h <;> cases h
  rfl

/-- What a step can leave for the process network: the one there was, or what the crate made of a choice. -/
def Shared.NetworkFrom (σ σ' : Shared) : Prop :=
  σ'.network = σ.network ∨ ∃ n, σ.network.setIfChoiceValid n = .ok σ'.network

theorem Shared.applyNetwork_network {n : Network} {r : Except BridgeError Unit}
    (h : σ.applyNetwork n = (r, σ')) : σ.NetworkFrom σ' := by
  unfold applyNetwork at h
  split at h <;> cases h
  · exact Or.inl rfl
  · exact Or.inr ⟨n, ‹_›⟩

theorem Shared.NetworkFrom.crate_eq (h : σ.NetworkFrom σ') :
    σ'.network.tariCommon = σ.network.tariCommon := by
  rcases h with hsame | ⟨n, hset⟩
  · rw [hsame]
  · exact ProcessNetwork.setIfChoiceValid_tariCommon hset

theorem GateHeldAt.next_network {w : WalletName} {h : GateHeldAt} {r : GateHeldAt ⊕ Bool}
    (hnext : h.next w σ = (r, σ')) : σ'.network = σ.network := by
  cases h with
  | readState =>
    simp only [GateHeldAt.next] at hnext
    split at hnext <;> obtain ⟨-, rfl⟩ := Prod.mk.inj hnext <;> rfl
  | lockSession =>
    obtain ⟨-, rfl⟩ := Prod.mk.inj hnext
    rfl
  | cancelScans =>
    obtain ⟨-, rfl⟩ := Prod.mk.inj hnext
    rw [Shared.cancelWalletScans_eq]

theorem GateAt.next_network {w : WalletName} {g : GateAt} {r : GateAt ⊕ Bool}
    (hnext : g.next me w σ = some (r, σ')) : σ'.network = σ.network := by
  cases g with
  | wait =>
    obtain ⟨σ₁, hhold, h⟩ := Option.map_eq_some_iff.mp hnext
    obtain ⟨-, rfl⟩ := Shared.holdGate_eq_some hhold
    cases h
    rfl
  | held h =>
    simp only [GateAt.next] at hnext
    split at hnext <;> cases hnext <;> exact GateHeldAt.next_network ‹_›
  | leave locked =>
    cases hnext
    rfl

theorem StopAt.next_network {w : WalletName} {s : StopAt} {r : StopAt ⊕ Unit}
    (h : s.next w σ = some (r, σ')) : σ'.network = σ.network := by
  obtain ⟨scans, tokens, rfl⟩ := StopAt.next_frame h
  rfl

theorem EverywhereAt.next_network {w : WalletName} {e : EverywhereAt} {r : EverywhereAt ⊕ Unit}
    (hnext : e.next me w σ = some (r, σ')) : σ'.network = σ.network := by
  cases e with
  | remove =>
    cases hnext
    rfl
  | gate file g =>
    simp only [EverywhereAt.next] at hnext
    split at hnext <;> cases hnext <;> exact GateAt.next_network ‹_›
  | stop s =>
    simp only [EverywhereAt.next] at hnext
    split at hnext <;> cases hnext <;> exact StopAt.next_network ‹_›

theorem UnlockWallet.next_network {u u' : UnlockWallet} (h : u.next me ch σ = some (u', σ')) :
    σ'.network = σ.network := by
  obtain ⟨path, v, passphrase, pos⟩ := u
  unfold next at h
  cases pos with
  | count =>
    dsimp only at h
    split at h <;> cases h
    · obtain ⟨db, rfl, -⟩ := Shared.count_error ‹_›
      rfl
    · obtain ⟨db, files, rfl, -⟩ := Shared.count_ok ‹_›
      rfl
  | gate g =>
    obtain ⟨σ₁, hhold, h⟩ := Option.map_eq_some_iff.mp h
    obtain ⟨-, rfl⟩ := Shared.holdGate_eq_some hhold
    cases h
    rfl
  | failed g e =>
    dsimp only at h
    split at h <;> cases h
    all_goals
      rcases Shared.releaseFailed_eq ‹_› with ⟨-, db, -, rfl⟩ | ⟨-, -, rfl⟩ <;> rfl
  | lockHeld hh g e =>
    dsimp only at h
    split at h <;> cases h <;> exact GateHeldAt.next_network ‹_›
  | _ =>
    dsimp only at h
    (repeat' split at h) <;> cases h <;> rfl

theorem LockWallet.next_network {l l' : LockWallet} (h : l.next me σ = some (l', σ')) :
    σ'.network = σ.network := by
  obtain ⟨v, holder, pos⟩ := l
  unfold next at h
  cases pos with
  | release =>
    dsimp only at h
    split at h <;> cases h
    all_goals
      obtain ⟨db, -, rfl⟩ := Shared.releaseSession_eq ‹_›
      rfl
  | gate file g =>
    dsimp only at h
    split at h <;> cases h <;> exact GateAt.next_network ‹_›
  | stop s =>
    dsimp only at h
    split at h <;> cases h <;> exact StopAt.next_network ‹_›
  | returned r => cases h

theorem WithWalletLocked.next_network {m m' : WithWalletLocked} (h : m.next me ch σ = some (m', σ')) :
    σ'.network = σ.network := by
  obtain ⟨v, change, pos⟩ := m
  unfold next at h
  cases pos with
  | «begin» =>
    dsimp only at h
    split at h
    · cases h
      rfl
    · obtain ⟨σ₁, hbegin, h⟩ := Option.map_eq_some_iff.mp h
      obtain ⟨-, rfl⟩ := Shared.beginMaintenance_eq_some hbegin
      cases h
      rfl
  | lockBefore file e | lockAfter e changed =>
    dsimp only at h
    split at h <;> cases h <;> exact EverywhereAt.next_network ‹_›
  | _ =>
    dsimp only at h
    (repeat' split at h) <;> cases h <;> rfl

theorem ChangePassphrase.next_network {p p' : ChangePassphrase} (h : p.next me ch σ = some (p', σ')) :
    σ'.network = σ.network := by
  obtain ⟨v, old, new, pos⟩ := p
  unfold next at h
  cases pos with
  | «begin» =>
    obtain ⟨σ₁, hbegin, h⟩ := Option.map_eq_some_iff.mp h
    obtain ⟨-, rfl⟩ := Shared.beginMaintenance_eq_some hbegin
    cases h
    rfl
  | stop s =>
    dsimp only at h
    split at h <;> cases h <;> exact StopAt.next_network ‹_›
  | _ =>
    dsimp only at h
    (repeat' split at h) <;> cases h <;> rfl

theorem SendTransaction.next_network {x x' : SendTransaction} (h : x.next ch σ = some (x', σ')) :
    σ.NetworkFrom σ' := by
  obtain ⟨details, pos, log⟩ := x
  unfold next at h
  cases pos with
  | applyNetwork v =>
    dsimp only at h
    split at h <;> cases h <;> exact Shared.applyNetwork_network ‹_›
  | _ =>
    dsimp only at h
    (repeat' split at h) <;> cases h <;> exact Or.inl rfl

/-- The network a call is for, where it is for one. -/
def Call.namesNetwork : Call → Option Network
  | .sendTransaction s => some (parseNetwork s.details.network)
  | .createWallet c => some (parseNetwork c.network)
  | .getAddress a => some (parseNetwork a.network)
  | _ => none

/-- A call that is for no network leaves it alone. -/
theorem Call.next_network_of_unnamed (h : call.next me ch σ = some (call', σ'))
    (hnone : call.namesNetwork = none) : σ'.network = σ.network := by
  cases call <;> obtain ⟨⟨x', σ''⟩, hr, h⟩ := Option.map_eq_some_iff.mp h <;> cases h
  case setDatabasePath p =>
    obtain ⟨path, hσ⟩ := SetDatabasePath.next_frame hr
    rw [hσ]
  case unlockWallet u => exact UnlockWallet.next_network hr
  case lockWallet l => exact LockWallet.next_network hr
  case forceLockWallet f =>
    obtain ⟨v, pos⟩ := f
    unfold ForceLockWallet.next at hr
    split at hr
    · split at hr <;> cases hr <;> exact EverywhereAt.next_network ‹_›
    · cases hr
  case withWalletLocked m => exact WithWalletLocked.next_network hr
  case changePassphrase p => exact ChangePassphrase.next_network hr
  case abandonSend a =>
    obtain ⟨scans, tokens, maintenance, hσ⟩ := AbandonSend.next_frame hr
    rw [hσ]
  case scan s =>
    obtain ⟨files, scans, tokens, maintenance, hσ⟩ := Scan.next_frame hr
    rw [hσ]
  case stopScan s =>
    obtain ⟨scans, tokens, hσ, -⟩ := StopScan.next_frame hr
    rw [hσ]
  case createScanHandle s =>
    obtain ⟨issued, scanId, hσ⟩ := CreateScanHandle.next_frame hr
    rw [hσ]
  case sendTransaction x => cases hnone
  case createWallet c => cases hnone
  case getAddress a => cases hnone

theorem CreateWallet.next_network {c c' : CreateWallet} (h : c.next ch σ = some (c', σ')) :
    σ.NetworkFrom σ' := by
  obtain ⟨v, network, passphrase, source, pos⟩ := c
  unfold next at h
  cases pos with
  | network =>
    dsimp only at h
    split at h <;> cases h <;> exact Shared.applyNetwork_network ‹_›
  | _ =>
    dsimp only at h
    (repeat' split at h) <;> cases h <;> exact Or.inl rfl

theorem GetAddress.next_network {a a' : GetAddress} (h : a.next ch σ = some (a', σ')) :
    σ.NetworkFrom σ' := by
  obtain ⟨v, network, pos, live⟩ := a
  unfold next at h
  cases pos with
  | network =>
    dsimp only at h
    split at h <;> cases h <;> exact Shared.applyNetwork_network ‹_›
  | _ =>
    dsimp only at h
    (repeat' split at h) <;> cases h <;> exact Or.inl rfl

theorem Call.next_network (h : call.next me ch σ = some (call', σ')) : σ.NetworkFrom σ' := by
  cases call with
  | sendTransaction x =>
    obtain ⟨⟨x', σ''⟩, hr, h⟩ := Option.map_eq_some_iff.mp h
    cases h
    exact SendTransaction.next_network hr
  | createWallet c =>
    obtain ⟨⟨c', σ''⟩, hr, h⟩ := Option.map_eq_some_iff.mp h
    cases h
    exact CreateWallet.next_network hr
  | getAddress a =>
    obtain ⟨⟨a', σ''⟩, hr, h⟩ := Option.map_eq_some_iff.mp h
    cases h
    exact GetAddress.next_network hr
  | _ => exact Or.inl (Call.next_network_of_unnamed h rfl)

/-- A call leaves one file the only one. -/
theorem Call.onOne_next (h : call.next me ch σ = some (call', σ')) (hfits : call.Fits W path)
    (hone : σ.OnOne path tariCommon) : σ'.OnOne path tariCommon where
  db := DbStep.onFile (Call.dbStep h) hfits hone.db
  tariCommon := (Call.next_network h).crate_eq.trans hone.tariCommon

/-! ## Whom a call waits for -/

/-- A call waits for a scan of its own wallet. -/
theorem awaited_wallet {ok : Guard Shared Call} {s : World} (h : system.Reach ok s) :
    ∀ c call d, s.calls c = some call → call.follows = some d →
      ∃ x, s.calls d = some (.scan x) ∧ call.wallet = some x.walletName := by
  refine h.invariant (I := fun s : World => ∀ c call d, s.calls c = some call →
    call.follows = some d → ∃ x, s.calls d = some (.scan x) ∧ call.wallet = some x.walletName) ?_ ?_ ?_
  · intro σ _ c call d hc
    cases hc
  · intro s m l _ ih _ hfree hl c call d hc hd
    rcases Config.put_calls_eq_some hc with ⟨-, rfl⟩ | ⟨-, hc⟩
    · rw [Call.follows_of_starts hl] at hd
      cases hd
    · obtain ⟨x, hx, hw⟩ := ih c call d hc hd
      exact ⟨x, Config.put_calls_of_free hfree hx, hw⟩
  · rintro s m l l' σ' hs ih _ hm ⟨ch, hstep⟩ c call d hc hd
    -- A scan stays one, on its wallet.
    have hstays : ∀ x, s.calls d = some (.scan x) →
        ∃ x', (s.put m l' σ').calls d = some (.scan x') ∧ x'.walletName = x.walletName := by
      intro x hx
      obtain ⟨x', hx', ⟨-, hnext⟩ | ⟨-, rfl⟩⟩ := scan_put hm hstep hx
      · exact ⟨x', hx', (Scan.next_same hnext).2⟩
      · exact ⟨x', hx', rfl⟩
    rcases Config.put_calls_eq_some hc with ⟨rfl, rfl⟩ | ⟨-, hc⟩
    · rw [Call.next_wallet hstep]
      rcases Call.follows_own hstep hd with hd | ⟨v, k, hv, hk, rfl, -⟩
      · obtain ⟨x, hx, hw⟩ := ih _ l d hm hd
        obtain ⟨x', hx', hname⟩ := hstays x hx
        exact ⟨x', hx', by rw [hw, hname]⟩
      · obtain ⟨x, hx, -, hw, -⟩ := running_scan hs hk
        obtain ⟨x', hx', hname⟩ := hstays x hx
        exact ⟨x', hx', by rw [hv, hname, hw]⟩
    · obtain ⟨x, hx, hw⟩ := ih c call d hc hd
      obtain ⟨x', hx', hname⟩ := hstays x hx
      exact ⟨x', hx', by rw [hw, hname]⟩

end CwTariWallet
