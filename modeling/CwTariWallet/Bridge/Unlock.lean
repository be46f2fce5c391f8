/-
# CwTariWallet.Bridge.Unlock -- `unlock_wallet`, step by step

Three critical sections: count, check the passphrase with the wallet's gate held, and confirm the
count or give it back.  `check_and_unlock` is itself four calls into minotari with nothing but the
gate held in between.
-/
import CwTariWallet.Bridge.Locks

namespace CwTariWallet

open Interleaving (CallId)

/-- `map_unlock_error`: the Dart-visible error for a failed unlock. -/
def mapUnlockError (e : WalletDbError) : BridgeError :=
  match e.kind with
  | .invalidPassphrase | .decryptionFailed => .wallet .invalidPassphrase
  | .invalidInput => .wallet .noAccounts
  | .notUnlocked => .wallet .locked
  | .other => .wallet (.database e.text)

/-- Where an `unlock_wallet` call stands; from `gate` on with the generation it was counted into. -/
inductive UnlockAt where
  /-- About to enter the critical section that counts. -/
  | count
  /-- Waiting for the wallet's gate. -/
  | gate (generation : Nat)
  /-- `check_and_unlock`: about to get a connection and ask `is_unlocked`. -/
  | isUnlocked (generation : Nat)
  /-- `check_and_unlock`: about to read the account row and verify the passphrase against it. -/
  | verify (generation : Nat)
  /-- `check_and_unlock`: about to ask `is_unlocked` again. -/
  | isUnlockedAgain (generation : Nat)
  /-- `check_and_unlock`: about to call `session::unlock`. -/
  | unlock (generation : Nat)
  /-- The check failed: about to give the count back. -/
  | failed (generation : Nat) (e : BridgeError)
  /-- The check succeeded: `confirm_still_counted`. -/
  | confirm (generation : Nat)
  /-- Inside `lock_session_gate_held`, to return `e` afterwards. -/
  | lockHeld (h : GateHeldAt) (generation : Nat) (e : BridgeError)
  /-- About to drop the gate and return. -/
  | leave (generation : Nat) (r : Except BridgeError Unit)
  | returned (generation : Option Nat) (r : Except BridgeError Unit)
  deriving DecidableEq, Repr

structure UnlockWallet where
  path : PathBuf
  walletName : WalletName
  passphrase : Passphrase
  pos : UnlockAt
  deriving DecidableEq, Repr

/-- The same call elsewhere. -/
def UnlockWallet.to (u : UnlockWallet) (pos : UnlockAt) : UnlockWallet := { u with pos := pos }

def UnlockWallet.next (me : CallId) (ch : Choice) (σ : Shared) (u : UnlockWallet) :
    Option (UnlockWallet × Shared) :=
  match u.pos with
  | .count =>
    match σ.count me u.path u.walletName ch with
    | (.error e, σ) => some (u.to (.returned none (.error e)), σ)
    | (.ok g, σ) => some (u.to (.gate g), σ)
  | .gate g => (σ.holdGate u.walletName me).map fun σ => (u.to (.isUnlocked g), σ)
  | .isUnlocked g =>
    match ch.poolError with
    | some e => some (u.to (.failed g e), σ)
    | none =>
      match σ.isUnlocked u.path u.walletName ch with
      | .error e => some (u.to (.failed g (mapUnlockError e)), σ)
      | .ok true => some (u.to (.verify g), σ)
      | .ok false => some (u.to (.unlock g), σ)
  | .verify g =>
    match ch.dbError with
    | some e => some (u.to (.failed g (mapUnlockError e)), σ)
    | none =>
      match (σ.files u.path).getAccountByName u.walletName with
      | none => some (u.to (.failed g (.wallet .noAccounts)), σ)
      | some account =>
        match account.verifyPassphrase u.passphrase with
        | .error e => some (u.to (.failed g (mapUnlockError e)), σ)
        | .ok () => some (u.to (.isUnlockedAgain g), σ)
  | .isUnlockedAgain g =>
    -- A passphrase change, delete or rename can have dropped the session meanwhile.
    match σ.isUnlocked u.path u.walletName ch with
    | .error e => some (u.to (.failed g (mapUnlockError e)), σ)
    | .ok true => some (u.to (.confirm g), σ)
    | .ok false => some (u.to (.unlock g), σ)
  | .unlock g =>
    match ch.dbError with
    | some e => some (u.to (.failed g (mapUnlockError e)), σ)
    | none =>
      match σ.keys.unlock u.path (σ.files u.path) u.walletName u.passphrase ch.foreign
          σ.nextSerial with
      | .error e => some (u.to (.failed g (mapUnlockError e)), σ)
      | .ok keys =>
        some (u.to (.confirm g), { σ with keys := keys, nextSerial := σ.nextSerial + 1 })
  | .failed g e =>
    match σ.releaseFailed me u.walletName g with
    | (true, σ) => some (u.to (.lockHeld .readState g e), σ)
    | (false, σ) => some (u.to (.leave g (.error e)), σ)
  | .confirm g =>
    if σ.db.stillCounted u.walletName g then some (u.to (.leave g (.ok ())), σ)
    else some (u.to (.lockHeld .readState g (.wallet .locked)), σ)
  | .lockHeld h g e =>
    match h.next u.walletName σ with
    | (.inl h, σ) => some (u.to (.lockHeld h g e), σ)
    | (.inr _, σ) => some (u.to (.leave g (.error e)), σ)
  | .leave g r => some (u.to (.returned (some g) r), σ.dropGate u.walletName)
  | .returned _ _ => none

end CwTariWallet
