/-
# CwTariWallet.Isolation.Likeness -- the same call in two runs

A call of the second run stands where it stands in the first, with the same arguments and the same results.
What differs is the generation of an unlock, the id of a handle, the account id a send or `abandon_send`
has read, and two entries of the histories: which key session a scan looked at, and whether an expiry
acted (`Call.Like`).
-/
import CwTariWallet.Bridge.AbandonCourse
import CwTariWallet.Isolation.Agreement

namespace CwTariWallet

open Interleaving

/-! ## Positions under other names -/

def UnlockAt.withGeneration (j : Nat) : UnlockAt → UnlockAt
  | .count => .count
  | .gate _ => .gate j
  | .isUnlocked _ => .isUnlocked j
  | .verify _ => .verify j
  | .isUnlockedAgain _ => .isUnlockedAgain j
  | .unlock _ => .unlock j
  | .failed _ e => .failed j e
  | .confirm _ => .confirm j
  | .lockHeld h _ e => .lockHeld h j e
  | .leave _ r => .leave j r
  | .returned g r => .returned (g.map fun _ => j) r

def AbandonAt.withAccount (j : AccountId) : AbandonAt → AbandonAt
  | .begin _ => .begin j
  | .connCheck _ => .connCheck j
  | .sameAccount file _ => .sameAccount file j
  | .stop s _ => .stop s j
  | .connWrite _ => .connWrite j
  | .abandon file _ => .abandon file j
  | pos => pos

def SendAt.withAccount (j : AccountId) : SendAt → SendAt
  | .keyCheck sender file account => .keyCheck sender file { account with id := j }
  | .decrypt sender file account => .decrypt sender file { account with id := j }
  | .keyCheckAgain sender file account keys => .keyCheckAgain sender file { account with id := j } keys
  | pos => pos

def CreateHandleAt.withId (j : Nat) : CreateHandleAt → CreateHandleAt
  | .fetch => .fetch
  | .insert _ => .insert j
  | .returned handle => .returned ⟨handle.walletName, j⟩

/-- What a send did, without whether an expiry acted. -/
def SendEvent.done : SendEvent → SendEvent
  | .expired row file _ => .expired row file false
  | event => event

/-- The file a scan looked at, and the file of the key session it found. -/
def seenAt (checked : PathBuf × KeySession) : PathBuf × PathBuf := (checked.1, checked.2.file)

/-! ## Calls under other names -/

inductive Call.Like (ρ : Renaming) (path : PathBuf) : Call → Call → Prop
  | setDatabasePath {p} : Like ρ path (.setDatabasePath p) (.setDatabasePath p)
  | unlockWallet {u j} : (∀ i, u.pos.generation = some i → ρ.generation i j) →
      Like ρ path (.unlockWallet u) (.unlockWallet (u.to (u.pos.withGeneration j)))
  | lockWallet {l} : Like ρ path (.lockWallet l) (.lockWallet l)
  | forceLockWallet {f} : Like ρ path (.forceLockWallet f) (.forceLockWallet f)
  | withWalletLocked {m} : Like ρ path (.withWalletLocked m) (.withWalletLocked m)
  | changePassphrase {p} : Like ρ path (.changePassphrase p) (.changePassphrase p)
  | abandonSend {a j} : (∀ i, a.pos.account = some i → ρ.account path i j) →
      (∀ file, a.pos.file = some file → file = path) →
      Like ρ path (.abandonSend a) (.abandonSend (a.to (a.pos.withAccount j)))
  | scan {x j checked} : (x.handle.walletName = x.walletName → ρ.handle x.handle.id j) →
      checked.map seenAt = x.checked.map seenAt →
      Like ρ path (.scan x) (.scan { x with handle := ⟨x.handle.walletName, j⟩, checked := checked })
  | stopScan {s j} : ρ.handle s.handle.id j →
      Like ρ path (.stopScan s) (.stopScan { s with handle := ⟨s.handle.walletName, j⟩ })
  | createScanHandle {h j} : (∀ i, (Call.createScanHandle h).fetchedId = some i → ρ.handle i j) →
      Like ρ path (.createScanHandle h) (.createScanHandle { h with pos := h.pos.withId j })
  | sendTransaction {x j log} : log.map SendEvent.done = x.log.map SendEvent.done →
      Like ρ path (.sendTransaction x) (.sendTransaction ⟨x.details, x.pos.withAccount j, log⟩)
  | createWallet {c} : Like ρ path (.createWallet c) (.createWallet c)
  | getAddress {a} : Like ρ path (.getAddress a) (.getAddress a)

namespace Call.Like

variable {W : WalletName → Prop} {ρ ρ' : Renaming} {path path' : PathBuf} {tariCommon : TariCommon}
variable {call m : Call}

theorem mono (h : call.Like ρ path m) (hle : ρ ≤ ρ') : call.Like ρ' path m := by
  cases h with
  | unlockWallet hg => exact .unlockWallet fun i hi => hle.1 _ _ (hg i hi)
  | abandonSend haccount hfile => exact .abandonSend (fun i hi => hle.2.2 _ _ _ (haccount i hi)) hfile
  | scan hhandle hchecked => exact .scan (fun hown => hle.2.1 _ _ (hhandle hown)) hchecked
  | stopScan hhandle => exact .stopScan (hle.2.1 _ _ hhandle)
  | createScanHandle hid => exact .createScanHandle fun i hi => hle.2.1 _ _ (hid i hi)
  | sendTransaction hlog => exact .sendTransaction hlog
  | _ => constructor

theorem fits (h : call.Like ρ path m) : m.Fits W path' ↔ call.Fits W path' := by
  cases h <;> exact Iff.rfl

/-- A call that has returned has returned in both. -/
theorem returned (h : call.Like ρ path m) : m.returned = call.returned := by
  cases h with
  | @unlockWallet u j _ =>
    obtain ⟨path, v, passphrase, pos⟩ := u
    cases pos <;> rfl
  | @abandonSend a j _ _ =>
    obtain ⟨v, passphrase, transactionId, pos⟩ := a
    cases pos <;> rfl
  | @createScanHandle h j _ =>
    obtain ⟨v, pos⟩ := h
    cases pos <;> rfl
  | @sendTransaction x j log _ =>
    obtain ⟨details, pos, log⟩ := x
    cases pos <;> rfl
  | _ => rfl

end Call.Like

end CwTariWallet
