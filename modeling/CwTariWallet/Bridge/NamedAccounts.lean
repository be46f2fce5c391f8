/-
# CwTariWallet.Bridge.NamedAccounts -- which account a wallet's name stands for

A name changes hands only by a delete or a rename of that name: whoever renames or creates another wallet
finds the name taken (`FilesStep.keepsAccounts`).  An id belongs to one account for good, so an account
that is gone never comes back.
-/
import CwTariWallet.Bridge.FileSteps

namespace CwTariWallet

open Interleaving

namespace WalletDatabase

variable {db db' : WalletDatabase} {w v new : WalletName} {account : AccountId}

/-- The id of the account named `walletName`. -/
def accountId (db : WalletDatabase) (walletName : WalletName) : Option AccountId :=
  (db.getAccountByName walletName).map (·.id)

/-- Every account's id was handed out. -/
def IdsUsed (db : WalletDatabase) : Prop := ∀ row ∈ db.accounts, row.id < db.nextAccountId

/-- No two accounts have one name. -/
def NamesUnique (db : WalletDatabase) : Prop := (db.accounts.map (·.friendlyName)).Nodup

instance : Decidable db.IdsUsed :=
  inferInstanceAs (Decidable (∀ row ∈ db.accounts, row.id < db.nextAccountId))

instance : Decidable db.NamesUnique :=
  inferInstanceAs (Decidable (db.accounts.map (·.friendlyName)).Nodup)

/-- The id was handed out, and no account has it any more. -/
def Gone (db : WalletDatabase) (account : AccountId) : Prop :=
  account < db.nextAccountId ∧ ∀ row ∈ db.accounts, row.id ≠ account

/-- From `db` to `db'` every name but `changed` keeps its account, and only new ids are handed out. -/
structure KeepsAccounts (changed : Option WalletName) (db db' : WalletDatabase) : Prop where
  named : ∀ w account, changed ≠ some w → db.accountId w = some account →
    db'.accountId w = some account
  ids : ∀ row' ∈ db'.accounts, (∃ row ∈ db.accounts, row.id = row'.id) ∨
    (row'.id = db.nextAccountId ∧ db.nextAccountId < db'.nextAccountId)
  next : db.nextAccountId ≤ db'.nextAccountId

theorem KeepsAccounts.of_eq {changed : Option WalletName} (haccounts : db'.accounts = db.accounts)
    (hnext : db'.nextAccountId = db.nextAccountId) : db.KeepsAccounts changed db' where
  named w account _ h := by
    rw [accountId, getAccountByName, haccounts]
    exact h
  ids row' h := Or.inl ⟨row', haccounts ▸ h, rfl⟩
  next := Nat.le_of_eq hnext.symm

theorem expireAndUnlock_accounts (db : WalletDatabase) (id : RowId) :
    (db.expireAndUnlock id).2.accounts = db.accounts ∧
      (db.expireAndUnlock id).2.nextAccountId = db.nextAccountId := by
  unfold expireAndUnlock
  split <;> exact ⟨rfl, rfl⟩

theorem releaseExpired_accounts {expired : List RowId} :
    ∀ db : WalletDatabase, (db.releaseExpired expired).accounts = db.accounts ∧
      (db.releaseExpired expired).nextAccountId = db.nextAccountId := by
  induction expired with
  | nil => exact fun _ => ⟨rfl, rfl⟩
  | cons id rest ih =>
    intro db
    obtain ⟨haccounts, hnext⟩ := ih (db.expireAndUnlock id).2
    obtain ⟨haccounts', hnext'⟩ := db.expireAndUnlock_accounts id
    exact ⟨haccounts.trans haccounts', hnext.trans hnext'⟩

/-- A name nobody deletes is found as before. -/
theorem deleteWallet_accountId (h : v ≠ w) : (db.deleteWallet v).accountId w = db.accountId w := by
  unfold accountId getAccountByName deleteWallet
  rw [List.find?_filter]
  congr 2
  funext row
  by_cases hrow : row.friendlyName = w
  · simp [hrow, h.symm]
  · simp [hrow]

/-- Rows changed without touching their ids, and without giving or taking the name, answer the same. -/
theorem accountId_map {f : AccountRow → AccountRow} {accounts : List AccountRow} (w : WalletName)
    (hid : ∀ row, (f row).id = row.id)
    (hname : ∀ row ∈ accounts, (f row).friendlyName = w ↔ row.friendlyName = w) :
    ((accounts.map f).find? fun a => decide (a.friendlyName = w)).map (·.id) =
      (accounts.find? fun a => decide (a.friendlyName = w)).map (·.id) := by
  induction accounts with
  | nil => rfl
  | cons row rest ih =>
    have hrest := ih fun row' h => hname row' (List.mem_cons_of_mem _ h)
    have hrow := hname row List.mem_cons_self
    rw [List.map_cons]
    by_cases h : row.friendlyName = w
    · have h' : (f row).friendlyName = w := hrow.mpr h
      rw [List.find?_cons_of_pos (by simpa using h'), List.find?_cons_of_pos (by simpa using h)]
      exact congrArg some (hid row)
    · have h' : ¬ (f row).friendlyName = w := fun h' => h (hrow.mp h')
      rw [List.find?_cons_of_neg (by simpa using h'), List.find?_cons_of_neg (by simpa using h)]
      exact hrest

/-- Renaming other wallets to other names keeps the account of a name. -/
theorem renameWallet_accountId (hv : v ≠ w) (hnew : new ≠ w) :
    (db.renameWallet v new).accountId w = db.accountId w := by
  refine accountId_map w (fun row => ?_) fun row _ => ?_
  · split <;> rfl
  · split
    · rename_i hrow
      exact iff_of_false hnew (hrow ▸ hv)
    · exact Iff.rfl

theorem rewrite_accountId (w : WalletName) (p : Passphrase) :
    (db.rewrite v p).accountId w = db.accountId w := by
  refine accountId_map w (fun row => ?_) fun row _ => ?_ <;> split <;> rfl

/-- A wallet is created under a name nobody has. -/
theorem addAccount_accountId {p : Passphrase} {viewOnly : Bool} (h : v ≠ w) :
    (db.addAccount v p viewOnly).accountId w = db.accountId w := by
  unfold accountId getAccountByName addAccount
  rw [List.find?_cons_of_neg (by simpa using h)]

/-- A name somebody has is not free. -/
theorem ne_of_free (h : db.accountId w = some account) (hfree : db.getAccountByName v = none) :
    v ≠ w := by
  rintro rfl
  rw [accountId, hfree] at h
  cases h

theorem KeepsAccounts.idsUsed {changed : Option WalletName} (h : db.KeepsAccounts changed db')
    (hused : db.IdsUsed) : db'.IdsUsed := by
  intro row' hrow'
  rcases h.ids row' hrow' with ⟨row, hrow, hid⟩ | ⟨hid, hlt⟩
  · rw [← hid]
    exact Nat.lt_of_lt_of_le (hused row hrow) h.next
  · rw [hid]
    exact hlt

/-- An account that is gone stays gone. -/
theorem KeepsAccounts.gone {changed : Option WalletName} (h : db.KeepsAccounts changed db')
    (hgone : db.Gone account) : db'.Gone account := by
  obtain ⟨hlt, hnone⟩ := hgone
  refine ⟨Nat.lt_of_lt_of_le hlt h.next, fun row' hrow' => ?_⟩
  rcases h.ids row' hrow' with ⟨row, hrow, hid⟩ | ⟨hid, -⟩
  · rw [← hid]
    exact hnone row hrow
  · rw [hid]
    exact Nat.ne_of_gt hlt

theorem mem_of_accountId (h : db.accountId w = some account) :
    ∃ row ∈ db.accounts, row.id = account := by
  obtain ⟨row, hrow, hid⟩ := Option.map_eq_some_iff.mp h
  exact ⟨row, List.mem_of_find?_eq_some hrow, hid⟩

/-- An account that is gone has no name. -/
theorem Gone.not_named (h : db.Gone account) : db.accountId w ≠ some account := by
  intro hnamed
  obtain ⟨row, hrow, hid⟩ := mem_of_accountId hnamed
  exact h.2 row hrow hid

/-! ## The writes -/

theorem keepsAccounts_deleteWallet : db.KeepsAccounts (some v) (db.deleteWallet v) where
  named w account hv h := by
    rw [deleteWallet_accountId fun heq => hv (congrArg some heq)]
    exact h
  ids row' h := Or.inl ⟨row', List.mem_of_mem_filter h, rfl⟩
  next := Nat.le_refl _

theorem keepsAccounts_renameWallet (hfree : db.getAccountByName new = none) :
    db.KeepsAccounts (some v) (db.renameWallet v new) where
  named w account hv h := by
    rw [renameWallet_accountId (fun heq => hv (congrArg some heq)) (ne_of_free h hfree)]
    exact h
  ids row' h := by
    obtain ⟨row, hrow, rfl⟩ := List.mem_map.mp h
    refine Or.inl ⟨row, hrow, ?_⟩
    split <;> rfl
  next := Nat.le_refl _

theorem keepsAccounts_rewrite {changed : Option WalletName} {p : Passphrase} :
    db.KeepsAccounts changed (db.rewrite v p) where
  named w account _ h := by
    rw [rewrite_accountId]
    exact h
  ids row' h := by
    obtain ⟨row, hrow, rfl⟩ := List.mem_map.mp h
    refine Or.inl ⟨row, hrow, ?_⟩
    split <;> rfl
  next := Nat.le_refl _

theorem keepsAccounts_addAccount {changed : Option WalletName} {p : Passphrase} {viewOnly : Bool}
    (hfree : db.getAccountByName v = none) :
    db.KeepsAccounts changed (db.addAccount v p viewOnly) where
  named w account _ h := by
    rw [addAccount_accountId (ne_of_free h hfree)]
    exact h
  ids row' h := by
    rcases List.mem_cons.mp h with rfl | h
    · exact Or.inr ⟨rfl, Nat.lt_succ_self _⟩
    · exact Or.inl ⟨row', h, rfl⟩
  next := Nat.le_succ _

end WalletDatabase

/-! ## The steps of the bridge -/

variable {me : CallId} {ch : Choice} {σ σ' : Shared}

/-- The name a call is about to delete or rename in `file`. -/
def Call.changesName (file : PathBuf) : Call → Option WalletName
  | .withWalletLocked m =>
    match m.pos with
    | .change file' => if file' = file then some m.walletName else none
    | _ => none
  | _ => none

theorem WalletChange.apply_keepsAccounts {change : WalletChange} {w : WalletName}
    {db db' : WalletDatabase} {r : Except BridgeError Unit} (h : change.apply w ch db = (r, db')) :
    db.KeepsAccounts (some w) db' := by
  unfold apply at h
  split at h
  · split at h <;> cases h
    · exact .of_eq rfl rfl
    · exact WalletDatabase.keepsAccounts_deleteWallet
  · split at h <;> cases h
    · exact .of_eq rfl rfl
    · rename_i hguard
      refine WalletDatabase.keepsAccounts_renameWallet ?_
      simp only [Bool.or_eq_true, not_or, Bool.not_eq_true, Option.isSome_eq_false_iff,
        Option.isNone_iff_eq_none] at hguard
      exact hguard.2

theorem changePassphraseIn_keepsAccounts {w : WalletName} {old new : Passphrase}
    {db db' : WalletDatabase} {r : Except BridgeError Unit} {changed : Option WalletName}
    (h : changePassphraseIn db w old new = (r, db')) : db.KeepsAccounts changed db' := by
  unfold changePassphraseIn at h
  (repeat' split at h) <;> cases h
  · exact .of_eq rfl rfl
  · exact .of_eq rfl rfl
  · exact WalletDatabase.keepsAccounts_rewrite

/-- A write to one file keeps what is kept there, and the accounts of every other file. -/
theorem keepsAccounts_setFile {path : PathBuf} {db : WalletDatabase} (file : PathBuf)
    {changed : Option WalletName} (h : file = path → (σ.files path).KeepsAccounts changed db) :
    (σ.files file).KeepsAccounts changed ((σ.setFile path db).files file) := by
  rw [Shared.setFile_files]
  by_cases hfile : file = path
  · have hkeeps := h hfile
    subst hfile
    rw [Function.update_self]
    exact hkeeps
  · rw [Function.update_of_ne hfile]
    exact .of_eq rfl rfl

/-- Every name keeps its account, but one that is being deleted or renamed. -/
theorem FilesStep.keepsAccounts {call call' : Call} (h : FilesStep call σ call' σ')
    (file : PathBuf) : (σ.files file).KeepsAccounts (call.changesName file) (σ'.files file) := by
  cases h with
  | same hfiles =>
    rw [hfiles]
    exact .of_eq rfl rfl
  | swept hfiles =>
    rw [hfiles]
    refine keepsAccounts_setFile file fun _ => ?_
    obtain ⟨haccounts, hnext⟩ := WalletDatabase.releaseExpired_accounts _
    exact .of_eq haccounts hnext
  | @changed m path _ _ _ _ hpos happly =>
    refine keepsAccounts_setFile file fun hfile => ?_
    have hchanges : (Call.withWalletLocked m).changesName file = some m.walletName := by
      simp [Call.changesName, hpos, hfile]
    rw [hchanges]
    exact WalletChange.apply_keepsAccounts happly
  | rewritten _ hrewrite =>
    exact keepsAccounts_setFile file fun _ => changePassphraseIn_keepsAccounts hrewrite
  | created _ hfree =>
    exact keepsAccounts_setFile file fun _ => WalletDatabase.keepsAccounts_addAccount hfree
  | reserved _ _ =>
    refine keepsAccounts_setFile file fun _ => .of_eq ?_ ?_
    · rfl
    · rfl
  | completed _ =>
    refine keepsAccounts_setFile file fun _ => .of_eq ?_ ?_
    · rfl
    · rfl
  | expired =>
    refine keepsAccounts_setFile file fun _ => ?_
    obtain ⟨haccounts, hnext⟩ := WalletDatabase.expireAndUnlock_accounts _ _
    exact .of_eq haccounts hnext

end CwTariWallet
