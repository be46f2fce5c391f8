/-
# CwTariWallet.Bridge.System -- the bridge as one interleaving system

Any number of calls of either engine, of any kind and on any wallets, over the one shared state.  The
claims about the bridge are claims about what `system` can reach.
-/
import CwTariWallet.Bridge.Accounts
import CwTariWallet.Bridge.Maintenance
import CwTariWallet.Bridge.Scan
import CwTariWallet.Bridge.Send
import CwTariWallet.Bridge.Unlock

namespace CwTariWallet

open Interleaving

/-! ## `set_database_path` -/

/-- Where a `set_database_path` call stands. -/
inductive SetPathAt where
  | set
  | returned (r : Except BridgeError Unit)
  deriving DecidableEq, Repr

structure SetDatabasePath where
  path : PathBuf
  pos : SetPathAt
  deriving DecidableEq, Repr

def SetDatabasePath.next (σ : Shared) (p : SetDatabasePath) :
    Option (SetDatabasePath × Shared) :=
  match p.pos with
  | .set =>
    match σ.db.setDatabasePath p.path with
    | .error e => some ({ p with pos := .returned (.error e) }, σ)
    | .ok db => some ({ p with pos := .returned (.ok ()) }, { σ with db := db })
  | .returned _ => none

/-! ## The calls -/

/-- A call of the bridge, wherever it stands. -/
inductive Call where
  | setDatabasePath (p : SetDatabasePath)
  | unlockWallet (u : UnlockWallet)
  | lockWallet (l : LockWallet)
  | forceLockWallet (f : ForceLockWallet)
  /-- `delete_wallet` or `rename_wallet`. -/
  | withWalletLocked (m : WithWalletLocked)
  | changePassphrase (p : ChangePassphrase)
  | abandonSend (a : AbandonSend)
  /-- `start_scan` or `rescan`. -/
  | scan (s : Scan)
  | stopScan (s : StopScan)
  | createScanHandle (h : CreateScanHandle)
  | sendTransaction (s : SendTransaction)
  /-- A call that adds an account. -/
  | createWallet (c : CreateWallet)
  | getAddress (a : GetAddress)
  deriving DecidableEq

namespace Call

/-- A call about to take its first step. -/
def starts : Call → Bool
  | .setDatabasePath p => p.pos = .set
  | .unlockWallet u => u.pos = .count
  | .lockWallet l => l.pos = .release
  | .forceLockWallet f => f.pos = .everywhere .remove
  | .withWalletLocked m => m.pos = .begin
  | .changePassphrase p => p.pos = .conn
  | .abandonSend a => a.pos = .conn
  | .scan s =>
    s = ⟨s.handle, s.walletName, s.priority, s.continuous, s.rescanFrom, .claim, none, {}, none, none, none⟩
  | .stopScan s => s.pos = .stop
  | .createScanHandle h => h.pos = .fetch
  | .sendTransaction s => s = ⟨s.details, .initializing, []⟩
  | .createWallet c => c.pos = .network
  | .getAddress a => a = ⟨a.walletName, a.network, .network, none⟩

/-- A call that has returned. -/
def returned : Call → Bool
  | .setDatabasePath p => match p.pos with | .returned _ => true | _ => false
  | .unlockWallet u => match u.pos with | .returned _ _ => true | _ => false
  | .lockWallet l => match l.pos with | .returned _ => true | _ => false
  | .forceLockWallet f => match f.pos with | .returned => true | _ => false
  | .withWalletLocked m => match m.pos with | .returned _ => true | _ => false
  | .changePassphrase p => match p.pos with | .returned _ => true | _ => false
  | .abandonSend a => match a.pos with | .returned _ => true | _ => false
  | .scan s => match s.pos with | .returned _ => true | _ => false
  | .stopScan s => match s.pos with | .returned => true | _ => false
  | .createScanHandle h => match h.pos with | .returned _ => true | _ => false
  | .sendTransaction s => match s.pos with | .returned _ => true | _ => false
  | .createWallet c => match c.pos with | .returned _ => true | _ => false
  | .getAddress a => match a.pos with | .returned _ => true | _ => false

/-- The wallet a call is on; `set_database_path` is on none. -/
def wallet : Call → Option WalletName
  | .setDatabasePath _ => none
  | .unlockWallet u => some u.walletName
  | .lockWallet l => some l.walletName
  | .forceLockWallet f => some f.walletName
  | .withWalletLocked m => some m.walletName
  | .changePassphrase p => some p.walletName
  | .abandonSend a => some a.walletName
  | .scan s => some s.walletName
  | .stopScan s => some s.handle.walletName
  | .createScanHandle h => some h.walletName
  | .sendTransaction s => some s.details.walletName
  | .createWallet c => some c.walletName
  | .getAddress a => some a.walletName

/-- The next atomic step of call `me`. -/
def next (me : CallId) (call : Call) (ch : Choice) (σ : Shared) : Option (Call × Shared) :=
  match call with
  | .setDatabasePath p => (p.next σ).map fun r => (.setDatabasePath r.1, r.2)
  | .unlockWallet u => (u.next me ch σ).map fun r => (.unlockWallet r.1, r.2)
  | .lockWallet l => (l.next me σ).map fun r => (.lockWallet r.1, r.2)
  | .forceLockWallet f => (f.next me σ).map fun r => (.forceLockWallet r.1, r.2)
  | .withWalletLocked m => (m.next me ch σ).map fun r => (.withWalletLocked r.1, r.2)
  | .changePassphrase p => (p.next me ch σ).map fun r => (.changePassphrase r.1, r.2)
  | .abandonSend a => (a.next me ch σ).map fun r => (.abandonSend r.1, r.2)
  | .scan s => (s.next me ch σ).map fun r => (.scan r.1, r.2)
  | .stopScan s => (s.next σ).map fun r => (.stopScan r.1, r.2)
  | .createScanHandle h => (h.next σ).map fun r => (.createScanHandle r.1, r.2)
  | .sendTransaction s => (s.next ch σ).map fun r => (.sendTransaction r.1, r.2)
  | .createWallet c => (c.next ch σ).map fun r => (.createWallet r.1, r.2)
  | .getAddress a => (a.next ch σ).map fun r => (.getAddress r.1, r.2)

/-- A call that has returned takes no step. -/
theorem next_of_returned {me : CallId} {call : Call} {ch : Choice} {σ : Shared}
    (h : call.returned = true) : call.next me ch σ = none := by
  cases call <;> simp only [returned] at h <;> simp only [next, Option.map_eq_none_iff]
  case setDatabasePath p => unfold SetDatabasePath.next; split at h <;> simp_all
  case unlockWallet u => unfold UnlockWallet.next; split at h <;> simp_all
  case lockWallet l => unfold LockWallet.next; split at h <;> simp_all
  case forceLockWallet f => unfold ForceLockWallet.next; split at h <;> simp_all
  case withWalletLocked m => unfold WithWalletLocked.next; split at h <;> simp_all
  case changePassphrase p => unfold ChangePassphrase.next; split at h <;> simp_all
  case abandonSend a => unfold AbandonSend.next; split at h <;> simp_all
  case scan s => unfold Scan.next; split at h <;> simp_all
  case stopScan s => unfold StopScan.next; split at h <;> simp_all
  case createScanHandle c => unfold CreateScanHandle.next; split at h <;> simp_all
  case sendTransaction s => unfold SendTransaction.next; split at h <;> simp_all
  case createWallet c => unfold CreateWallet.next; split at h <;> simp_all
  case getAddress a => unfold GetAddress.next; split at h <;> simp_all

end Call

/-- The bridge.  A call can take any step some answer of the outside world allows. -/
def system : System Shared Call where
  init σ := ∃ files tariCommon, σ = .initial files tariCommon
  start call := call.starts = true
  step c call σ call' σ' := ∃ ch, call.next c ch σ = some (call', σ')

theorem Call.step_iff (c : CallId) (call : Call) (σ : Shared) (call' : Call) (σ' : Shared) :
    system.step c call σ call' σ' ↔ ∃ ch, call.next c ch σ = some (call', σ') := Iff.rfl

/-- The configurations of the bridge. -/
abbrev World := Config Shared Call

/-- No call is in flight. -/
def World.Quiet (s : World) : Prop :=
  ∀ c call, s.calls c = some call → call.returned = true

/-- An event that starts nothing but calls with `p`. -/
def startsOnly (p : Call → Bool) : Event Call → Bool
  | .start _ call => p call
  | .step _ => true

/-- Schedules that only start calls with `p`. -/
def only (p : Call → Bool) : Guard Shared Call := fun e _ => startsOnly p e = true

/-! ## Schedules of the bridge, written down -/

/-- The bridge, replayed with calls below `bound`. -/
def replay (bound : Nat) (check : Event Call → World → Bool) : Replay Shared Call Choice :=
  ⟨bound, Call.starts, fun me call ch σ => call.next me ch σ, check⟩

theorem replay_sound {bound : Nat} {check : Event Call → World → Bool} {ok : Guard Shared Call}
    (hcheck : ∀ e s, s.Within bound → check e s = true → ok e s) :
    (replay bound check).Sound system ok :=
  ⟨fun _ h => h, fun _ _ ch _ _ _ h => ⟨ch, h⟩, hcheck⟩

/-- The bridge within `only p`, replayed. -/
def replayOnly (bound : Nat) (p : Call → Bool) : Replay Shared Call Choice :=
  replay bound fun e _ => startsOnly p e

theorem replayOnly_sound {bound : Nat} {p : Call → Bool} :
    (replayOnly bound p).Sound system (only p) :=
  replay_sound fun _ _ _ h => h

/-- Two paths, each with a file that holds one account. -/
def firstPath : PathBuf := ⟨["first.db"]⟩
def secondPath : PathBuf := ⟨["second.db"]⟩

def sampleFile : WalletDatabase :=
  ⟨[⟨1, "main", "secret", false⟩], 2, fun _ => none, fun _ => none⟩

/-- `tari_common` in a build for the main networks: it lets them through, and the first one set stays. -/
def TariCommon.mainNetworks : TariCommon where
  setNetworkIfChoiceValid current choice :=
    if choice = .mainNet ∨ choice = .stageNet then .ok (current.or (some choice))
    else .error ("The network " ++ choice.display ++ " is invalid for this binary built for MainNet")

/-- A fresh process over them. -/
def fresh : World := ⟨.initial (fun _ => sampleFile) .mainNetworks, fun _ => none⟩

theorem fresh_init : system.init fresh.shared := ⟨_, _, rfl⟩

/-- `n` steps of call `c`, with nothing going wrong. -/
def go (c : CallId) (n : Nat) : List (Act Call Choice) := List.replicate n (.step c {})

/-- An `unlock_wallet` of "main" from its start to where it has returned. -/
def unlocks (c : CallId) (path : PathBuf) : List (Act Call Choice) :=
  .start c (.unlockWallet ⟨path, "main", "secret", .count⟩) :: go c 6

end CwTariWallet
