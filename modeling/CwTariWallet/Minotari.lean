/-
# CwTariWallet.Minotari -- what the bridge relies on of minotari

The wallet database and the key sessions belong to the `minotari-wallet-core` crate, which is not
part of this repository.  What stands here is the documented behaviour the bridge is written
against, and no more:

* an account row opens with one passphrase, and `verify_passphrase` tells the right one from a
  wrong one;
* `session::unlock` returns `Ok` without looking at the passphrase when a session exists, and
  otherwise stores one only for the right passphrase; `session::lock` drops it by name;
* `expire_and_unlock_pending_transaction` acts on the row of that id only while it is still
  `Pending`, and only in the database of the connection it is given.

How minotari answers for a session that was made from *another* database file is documented nowhere;
`foreign` stands for its answer and is left open.
-/
import Mathlib.Logic.Function.Basic

namespace CwTariWallet

abbrev WalletName := String
abbrev Passphrase := String
abbrev AccountId := Nat
abbrev RowId := String
abbrev OutputId := Nat

/-- A path; `PathBuf` equality is equality of the components. -/
structure PathBuf where
  components : List String
  deriving DecidableEq, Repr

/-! ## Errors -/

/-- The variants of minotari's `WalletDbError` the bridge tells apart. -/
inductive WalletDbErrorKind where
  | invalidPassphrase
  | decryptionFailed
  | invalidInput
  | notUnlocked
  | other
  deriving DecidableEq, Repr

/-- minotari's `WalletDbError` with its `Display` text. -/
structure WalletDbError where
  kind : WalletDbErrorKind
  text : String
  deriving DecidableEq, Repr

/-! ## One database file -/

/-- `AccountRow`.  `passphrase` stands for the encrypted wallet: it is the one that opens it. -/
structure AccountRow where
  id : AccountId
  friendlyName : WalletName
  passphrase : Passphrase
  viewOnly : Bool
  deriving DecidableEq, Repr

/-- The status of a `pending_transactions` row. -/
inductive PendingStatus where
  | pending
  | completed
  | expired
  deriving DecidableEq, Repr

/-- The contents of one database file: its accounts, the id the next one gets, its pending rows, and for
each output the row that holds it `Locked`. -/
structure WalletDatabase where
  accounts : List AccountRow
  nextAccountId : AccountId
  pending : RowId → Option PendingStatus
  lockedBy : OutputId → Option RowId

namespace WalletDatabase

/-- `get_account_by_name` (also `get_accounts(.., Some(name))` read at its first row). -/
def getAccountByName (db : WalletDatabase) (walletName : WalletName) : Option AccountRow :=
  db.accounts.find? fun a => decide (a.friendlyName = walletName)

/-- `expire_and_unlock_pending_transaction`: whether it acted, and the database afterwards. -/
def expireAndUnlock (db : WalletDatabase) (id : RowId) : Bool × WalletDatabase :=
  if db.pending id = some .pending then
    (true, { db with
      pending := Function.update db.pending id (some .expired)
      lockedBy := fun o => if db.lockedBy o = some id then none else db.lockedBy o })
  else
    (false, db)

/-- `release_expired_reservations`, for the rows found past their `expires_at`. -/
def releaseExpired (db : WalletDatabase) (expired : List RowId) : WalletDatabase :=
  expired.foldl (fun db id => (db.expireAndUnlock id).2) db

/-- `start_new_transaction_multi` / `start_new_send_all_transaction`: a new `Pending` row with its
inputs `Locked`. -/
def reserve (db : WalletDatabase) (id : RowId) (inputs : List OutputId) : WalletDatabase :=
  { db with
    pending := Function.update db.pending id (some .pending)
    lockedBy := fun o => if o ∈ inputs then some id else db.lockedBy o }

/-- Recording a send completes its row. -/
def complete (db : WalletDatabase) (id : RowId) : WalletDatabase :=
  { db with pending := Function.update db.pending id (some .completed) }

/-- `change_passphrase`: re-encrypt the account under the new passphrase. -/
def rewrite (db : WalletDatabase) (walletName : WalletName) (new : Passphrase) : WalletDatabase :=
  { db with
    accounts := db.accounts.map fun a =>
      if a.friendlyName = walletName then { a with passphrase := new } else a }

/-- `delete_wallet_with_conn`. -/
def deleteWallet (db : WalletDatabase) (walletName : WalletName) : WalletDatabase :=
  { db with accounts := db.accounts.filter fun a => decide (a.friendlyName ≠ walletName) }

/-- `rename_wallet_with_conn`. -/
def renameWallet (db : WalletDatabase) (current new : WalletName) : WalletDatabase :=
  { db with
    accounts := db.accounts.map fun a =>
      if a.friendlyName = current then { a with friendlyName := new } else a }

/-- `init_with_*`: add an account, under an id that no other account ever had. -/
def addAccount (db : WalletDatabase) (walletName : WalletName) (passphrase : Passphrase)
    (viewOnly : Bool) : WalletDatabase :=
  { db with
    accounts := ⟨db.nextAccountId, walletName, passphrase, viewOnly⟩ :: db.accounts
    nextAccountId := db.nextAccountId + 1 }

@[simp]
theorem expireAndUnlock_pending_self (db : WalletDatabase) (id : RowId) :
    (db.expireAndUnlock id).2.pending id ≠ some .pending := by
  unfold expireAndUnlock
  split
  · simp
  · assumption

/-- Expiring a row locks no output that was not locked. -/
theorem expireAndUnlock_lockedBy {db : WalletDatabase} {id row : RowId} {o : OutputId}
    (h : (db.expireAndUnlock id).2.lockedBy o = some row) : db.lockedBy o = some row := by
  unfold expireAndUnlock at h
  split at h
  · dsimp only at h
    split at h
    · cases h
    · exact h
  · exact h

theorem releaseExpired_lockedBy {expired : List RowId} :
    ∀ {db : WalletDatabase} {o : OutputId} {row : RowId},
      (db.releaseExpired expired).lockedBy o = some row → db.lockedBy o = some row := by
  induction expired with
  | nil => exact fun h => h
  | cons id rest ih =>
    intro db o row h
    exact expireAndUnlock_lockedBy (ih h)

end WalletDatabase

/-- `AccountRow::verify_passphrase`. -/
def AccountRow.verifyPassphrase (a : AccountRow) (passphrase : Passphrase) :
    Except WalletDbError Unit :=
  if a.passphrase = passphrase then .ok ()
  else .error ⟨.decryptionFailed, "decryption failed"⟩

theorem AccountRow.verifyPassphrase_eq_ok {a : AccountRow} {passphrase : Passphrase} :
    a.verifyPassphrase passphrase = .ok () ↔ a.passphrase = passphrase := by
  simp [verifyPassphrase]

/-! ## Key sessions -/

/-- A stored key session: the file its keys were decrypted from, and which of all sessions ever
stored it is. -/
structure KeySession where
  file : PathBuf
  serial : Nat
  deriving DecidableEq, Repr

/-- The sessions of the process, by wallet name. -/
abbrev KeySessions := WalletName → Option KeySession

namespace KeySessions

/-- `session::is_unlocked` on a connection to `file`. -/
def isUnlocked (keys : KeySessions) (file : PathBuf) (walletName : WalletName) (foreign : Bool) :
    Bool :=
  match keys walletName with
  | none => false
  | some k => if k.file = file then true else foreign

/-- `session::unlock` on a connection to `file`, whose contents are `db`; a stored session gets the
number `serial`. -/
def unlock (keys : KeySessions) (file : PathBuf) (db : WalletDatabase) (walletName : WalletName)
    (passphrase : Passphrase) (foreign : Bool) (serial : Nat) : Except WalletDbError KeySessions :=
  if keys.isUnlocked file walletName foreign then .ok keys
  else
    match db.getAccountByName walletName with
    | none => .error ⟨.invalidInput, "account not found"⟩
    | some a =>
      match a.verifyPassphrase passphrase with
      | .error e => .error e
      | .ok () => .ok (Function.update keys walletName (some ⟨file, serial⟩))

/-- `session::lock`. -/
def lock (keys : KeySessions) (walletName : WalletName) : KeySessions :=
  Function.update keys walletName none

@[simp]
theorem lock_self (keys : KeySessions) (walletName : WalletName) :
    keys.lock walletName walletName = none := by
  simp [lock]

theorem isUnlocked_none {keys : KeySessions} {file : PathBuf} {w : WalletName} {foreign : Bool}
    (h : keys w = none) : keys.isUnlocked file w foreign = false := by
  simp [isUnlocked, h]

/-- A session made from the connection's own file is seen. -/
theorem isUnlocked_own {keys : KeySessions} {file : PathBuf} {w : WalletName} {foreign : Bool}
    {k : KeySession} (h : keys w = some k) (hk : k.file = file) :
    keys.isUnlocked file w foreign = true := by
  simp [isUnlocked, h, hk]

/-- `session::unlock` shares the session it sees, or checks the passphrase and stores one. -/
theorem unlock_ok {keys keys' : KeySessions} {file : PathBuf} {db : WalletDatabase} {w : WalletName}
    {p : Passphrase} {foreign : Bool} {serial : Nat}
    (h : keys.unlock file db w p foreign serial = .ok keys') :
    (keys.isUnlocked file w foreign = true ∧ keys' = keys) ∨
      (keys.isUnlocked file w foreign = false ∧
        keys' = Function.update keys w (some ⟨file, serial⟩) ∧
        ∃ account, db.getAccountByName w = some account ∧ account.passphrase = p) := by
  unfold unlock at h
  split at h
  · exact Or.inl ⟨‹_›, (Except.ok.inj h).symm⟩
  · rename_i hlocked
    split at h
    · cases h
    · rename_i account haccount
      split at h
      · cases h
      · rename_i hverify
        refine Or.inr ⟨by simpa using hlocked, (Except.ok.inj h).symm, account, haccount, ?_⟩
        unfold AccountRow.verifyPassphrase at hverify
        split at hverify
        · assumption
        · cases hverify

theorem lock_ne (keys : KeySessions) {walletName w : WalletName} (h : w ≠ walletName) :
    keys.lock walletName w = keys w := by
  simp [lock, h]

end KeySessions

end CwTariWallet
