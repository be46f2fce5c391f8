/-
# CwTariWallet.Bridge.Maintenance -- the operations that hold a wallet's maintenance lock

`delete_wallet` and `rename_wallet` (through `with_wallet_locked`), `change_passphrase` and
`abandon_send`: each keeps scans of the wallet out with the wallet's maintenance lock, stops the
running one, and writes.  While such a write is on its way minotari may drop the wallet's key
session at any moment.
-/
import CwTariWallet.Bridge.Locks

namespace CwTariWallet

open Interleaving (CallId)

/-! ## `with_wallet_locked` -/

/-- What `with_wallet_locked` runs. -/
inductive WalletChange where
  | delete
  | rename (newWalletName : WalletName)
  deriving DecidableEq, Repr

/-- `delete_wallet_with_conn` / `rename_wallet_with_conn` on the contents of a file. -/
def WalletChange.apply (change : WalletChange) (walletName : WalletName) (ch : Choice)
    (db : WalletDatabase) : Except BridgeError Unit × WalletDatabase :=
  match change with
  | .delete =>
    if ch.upstream.isSome || (db.getAccountByName walletName).isNone then
      (.error (.context "Failed to delete wallet" ch.causes), db)
    else (.ok (), db.deleteWallet walletName)
  | .rename newWalletName =>
    if ch.upstream.isSome || (db.getAccountByName walletName).isNone ||
        (db.getAccountByName newWalletName).isSome then
      (.error (.context "Failed to rename wallet" ch.causes), db)
    else (.ok (), db.renameWallet walletName newWalletName)

/-- Where a `delete_wallet` / `rename_wallet` call stands. -/
inductive WithLockedAt where
  /-- About to take the maintenance lock. -/
  | begin
  /-- About to get the connection, before locking. -/
  | conn
  | lockBefore (file : PathBuf) (e : EverywhereAt)
  /-- `change` runs: its write is still to come. -/
  | change (file : PathBuf)
  /-- `change` runs: its write is done. -/
  | settle (file : PathBuf) (changed : Except BridgeError Unit)
  | lockAfter (e : EverywhereAt) (changed : Except BridgeError Unit)
  /-- About to drop the maintenance lock and return. -/
  | leave (r : Except BridgeError Unit)
  | returned (r : Except BridgeError Unit)
  deriving DecidableEq, Repr

structure WithWalletLocked where
  walletName : WalletName
  change : WalletChange
  pos : WithLockedAt
  deriving DecidableEq, Repr

def WithWalletLocked.to (m : WithWalletLocked) (pos : WithLockedAt) : WithWalletLocked :=
  { m with pos := pos }

def WithWalletLocked.next (me : CallId) (ch : Choice) (σ : Shared) (m : WithWalletLocked) :
    Option (WithWalletLocked × Shared) :=
  match m.pos with
  | .begin =>
    if m.change = .rename m.walletName then some (m.to (.returned (.error (.wallet .sameName))), σ)
    else (σ.beginMaintenance m.walletName me).map fun σ => (m.to .conn, σ)
  | .conn =>
    match σ.getDbConnection ch with
    | .error e => some (m.to (.leave (.error e)), σ)
    | .ok file => some (m.to (.lockBefore file .remove), σ)
  | .lockBefore file e =>
    match e.next me m.walletName σ with
    | none => none
    | some (.inl e, σ) => some (m.to (.lockBefore file e), σ)
    | some (.inr (), σ) => some (m.to (.change file), σ)
  | .change file =>
    if ch.drops then some (m, { σ with keys := σ.keys.lock m.walletName })
    else
      let (changed, db) := m.change.apply m.walletName ch (σ.files file)
      some (m.to (.settle file changed), σ.setFile file db)
  | .settle _ changed =>
    if ch.drops then some (m, { σ with keys := σ.keys.lock m.walletName })
    else some (m.to (.lockAfter .remove changed), σ)
  | .lockAfter e changed =>
    match e.next me m.walletName σ with
    | none => none
    | some (.inl e, σ) => some (m.to (.lockAfter e changed), σ)
    | some (.inr (), σ) => some (m.to (.leave changed), σ)
  | .leave r => some (m.to (.returned r), σ.dropMaintenance m.walletName)
  | .returned _ => none

/-! ## `change_passphrase` -/

/-- The error mapping of `change_passphrase`. -/
def mapChangeError (e : WalletDbError) : BridgeError :=
  match e.kind with
  | .decryptionFailed => .wallet .invalidPassphrase
  | _ => .wallet (.database e.text)

/-- Where a `change_passphrase` call stands. -/
inductive ChangeAt where
  | conn
  /-- About to read the account row and verify the old passphrase. -/
  | verify (file : PathBuf)
  | begin
  | stop (s : StopAt)
  | connAgain
  /-- The rewrite runs: its write is still to come. -/
  | write (file : PathBuf)
  /-- The rewrite runs: its write is done. -/
  | settle (file : PathBuf) (r : Except BridgeError Unit)
  | leave (r : Except BridgeError Unit)
  | returned (r : Except BridgeError Unit)
  deriving DecidableEq, Repr

structure ChangePassphrase where
  walletName : WalletName
  oldPassphrase : Passphrase
  newPassphrase : Passphrase
  pos : ChangeAt
  deriving DecidableEq, Repr

def ChangePassphrase.to (p : ChangePassphrase) (pos : ChangeAt) : ChangePassphrase :=
  { p with pos := pos }

/-- minotari's `change_passphrase`, which checks the old passphrase itself. -/
def changePassphraseIn (db : WalletDatabase) (walletName : WalletName) (old new : Passphrase) :
    Except BridgeError Unit × WalletDatabase :=
  match db.getAccountByName walletName with
  | none => (.error (mapChangeError ⟨.invalidInput, "account not found"⟩), db)
  | some account =>
    match account.verifyPassphrase old with
    | .error e => (.error (mapChangeError e), db)
    | .ok () => (.ok (), db.rewrite walletName new)

def ChangePassphrase.next (me : CallId) (ch : Choice) (σ : Shared) (p : ChangePassphrase) :
    Option (ChangePassphrase × Shared) :=
  match p.pos with
  | .conn =>
    match σ.getDbConnection ch with
    | .error e => some (p.to (.returned (.error e)), σ)
    | .ok file => some (p.to (.verify file), σ)
  | .verify file =>
    match ch.dbError with
    | some e => some (p.to (.returned (.error (.upstream e.text))), σ)
    | none =>
      match (σ.files file).getAccountByName p.walletName with
      | none => some (p.to (.returned (.error (.wallet .noAccounts))), σ)
      | some account =>
        match account.verifyPassphrase p.oldPassphrase with
        | .error e => some (p.to (.returned (.error (mapChangeError e))), σ)
        | .ok () => some (p.to .begin, σ)
  | .begin => (σ.beginMaintenance p.walletName me).map fun σ => (p.to (.stop .cancel), σ)
  | .stop s =>
    match s.next p.walletName σ with
    | none => none
    | some (.inl s, σ) => some (p.to (.stop s), σ)
    | some (.inr (), σ) => some (p.to .connAgain, σ)
  | .connAgain =>
    match σ.getDbConnection ch with
    | .error e => some (p.to (.leave (.error e)), σ)
    | .ok file => some (p.to (.write file), σ)
  | .write file =>
    if ch.drops then some (p, { σ with keys := σ.keys.lock p.walletName })
    else
      match ch.dbError with
      | some e => some (p.to (.settle file (.error (mapChangeError e))), σ)
      | none =>
        let (r, db) :=
          changePassphraseIn (σ.files file) p.walletName p.oldPassphrase p.newPassphrase
        some (p.to (.settle file r), σ.setFile file db)
  | .settle _ r =>
    if ch.drops then some (p, { σ with keys := σ.keys.lock p.walletName })
    else some (p.to (.leave r), σ)
  | .leave r => some (p.to (.returned r), σ.dropMaintenance p.walletName)
  | .returned _ => none

/-! ## `abandon_send` -/

/-- `str::parse::<u64>`: an optional `+`, then at least one digit, below `2 ^ 64`. -/
def parseU64 (s : String) : Option Nat :=
  let digits := match s.toList with
    | '+' :: rest => rest
    | all => all
  if digits.isEmpty || !digits.all Char.isDigit then none
  else
    let n := digits.foldl (fun n c => 10 * n + (c.toNat - '0'.toNat)) 0
    if n < 18446744073709551616 then some n else none

/-- `WALLET_REPLACED`. -/
def walletReplaced : BridgeError :=
  .wallet (.wallet "The wallet was renamed or replaced; try again")

/-- Where an `abandon_send` call stands; `account` is the id read with the passphrase. -/
inductive AbandonAt where
  /-- About to parse the transaction id and get a connection. -/
  | conn
  /-- About to read the account row and verify the passphrase. -/
  | verify (file : PathBuf)
  | begin (account : AccountId)
  | connCheck (account : AccountId)
  /-- About to check `same_account`. -/
  | sameAccount (file : PathBuf) (account : AccountId)
  | stop (s : StopAt) (account : AccountId)
  | connWrite (account : AccountId)
  /-- minotari's `abandon_send` runs. -/
  | abandon (file : PathBuf) (account : AccountId)
  | leave (r : Except BridgeError String)
  | returned (r : Except BridgeError String)
  deriving DecidableEq, Repr

structure AbandonSend where
  walletName : WalletName
  passphrase : Passphrase
  transactionId : String
  pos : AbandonAt
  deriving DecidableEq, Repr

def AbandonSend.to (a : AbandonSend) (pos : AbandonAt) : AbandonSend := { a with pos := pos }

def AbandonSend.next (me : CallId) (ch : Choice) (σ : Shared) (a : AbandonSend) :
    Option (AbandonSend × Shared) :=
  match a.pos with
  | .conn =>
    match parseU64 a.transactionId with
    | none => some (a.to (.returned (.error (.wallet (.wallet "Invalid transaction id")))), σ)
    | some _ =>
      match σ.getDbConnection ch with
      | .error e => some (a.to (.returned (.error e)), σ)
      | .ok file => some (a.to (.verify file), σ)
  | .verify file =>
    match ch.dbError with
    | some e => some (a.to (.returned (.error (.upstream e.text))), σ)
    | none =>
      match (σ.files file).getAccountByName a.walletName with
      | none => some (a.to (.returned (.error (.wallet .noAccounts))), σ)
      | some account =>
        match account.verifyPassphrase a.passphrase with
        | .error _ => some (a.to (.returned (.error (.wallet .invalidPassphrase))), σ)
        | .ok () => some (a.to (.begin account.id), σ)
  | .begin account =>
    (σ.beginMaintenance a.walletName me).map fun σ => (a.to (.connCheck account), σ)
  | .connCheck account =>
    match σ.getDbConnection ch with
    | .error e => some (a.to (.leave (.error e)), σ)
    | .ok file => some (a.to (.sameAccount file account), σ)
  | .sameAccount file account =>
    match ch.dbError with
    | some e => some (a.to (.leave (.error (.upstream e.text))), σ)
    | none =>
      match (σ.files file).getAccountByName a.walletName with
      | none => some (a.to (.leave (.error (.wallet .noAccounts))), σ)
      | some row =>
        if row.id ≠ account then some (a.to (.leave (.error walletReplaced)), σ)
        else some (a.to (.stop .cancel account), σ)
  | .stop s account =>
    match s.next a.walletName σ with
    | none => none
    | some (.inl s, σ) => some (a.to (.stop s account), σ)
    | some (.inr (), σ) => some (a.to (.connWrite account), σ)
  | .connWrite account =>
    match σ.getDbConnection ch with
    | .error e => some (a.to (.leave (.error e)), σ)
    | .ok file => some (a.to (.abandon file account), σ)
  | .abandon _ _ =>
    match ch.upstream with
    | some text => some (a.to (.leave (.error (.wallet (.wallet text)))), σ)
    | none => some (a.to (.leave (.ok ch.sent.transaction)), σ)
  | .leave r => some (a.to (.returned r), σ.dropMaintenance a.walletName)
  | .returned _ => none

end CwTariWallet
