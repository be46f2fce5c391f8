/-
# CwTariWallet.Bridge.AccountStore -- the accounts of a file as a map

What a database file is for: a map from wallet names to accounts, which the calls change one at a time.
Every call that adds, deletes, renames or re-encrypts an account acts at one instant, inside the write of its
file, whatever the other calls do meanwhile; so every run of the bridge leaves in each file what some
sequence of these operations, one for each call that succeeded, makes of the map that was there
(`accounts_linearizable`).
-/
import CwTariWallet.Bridge.FileSteps
import CwTariWallet.Isolation.Files
import CwTariWallet.Linearization

namespace CwTariWallet

open Interleaving

/-! ## The map -/

/-- An account, whatever its name. -/
structure Account where
  id : AccountId
  passphrase : Passphrase
  viewOnly : Bool
  deriving DecidableEq, Repr

/-- Accounts by name, and the id the next one gets. -/
structure AccountMap where
  named : WalletName → Option Account
  nextId : AccountId

/-- What a call can do to the accounts. -/
inductive AccountOp where
  | create (walletName : WalletName) (passphrase : Passphrase) (viewOnly : Bool)
  | delete (walletName : WalletName)
  | rename (current new : WalletName)
  | changePassphrase (walletName : WalletName) (old new : Passphrase)
  deriving DecidableEq, Repr

/-- The map after an operation; `none` when it is refused. -/
def AccountOp.run (m : AccountMap) : AccountOp → Option AccountMap
  | .create walletName passphrase viewOnly =>
    match m.named walletName with
    | some _ => none
    | none => some ⟨Function.update m.named walletName (some ⟨m.nextId, passphrase, viewOnly⟩), m.nextId + 1⟩
  | .delete walletName =>
    match m.named walletName with
    | none => none
    | some _ => some { m with named := Function.update m.named walletName none }
  | .rename current new =>
    match m.named current, m.named new with
    | some account, none =>
      some { m with named := Function.update (Function.update m.named current none) new (some account) }
    | _, _ => none
  | .changePassphrase walletName old new =>
    match m.named walletName with
    | none => none
    | some account =>
      if account.passphrase = old then
        some { m with named := Function.update m.named walletName (some { account with passphrase := new }) }
      else none

/-! ## The map a file holds -/

def AccountRow.account (row : AccountRow) : Account := ⟨row.id, row.passphrase, row.viewOnly⟩

namespace WalletDatabase

def accountMap (db : WalletDatabase) : AccountMap :=
  ⟨fun w => (db.getAccountByName w).map AccountRow.account, db.nextAccountId⟩

variable {db db' : WalletDatabase} {v w new : WalletName}

/-- Reservations are no business of the accounts. -/
theorem accountMap_expireAndUnlock (db : WalletDatabase) (id : RowId) :
    (db.expireAndUnlock id).2.accountMap = db.accountMap := by
  unfold expireAndUnlock
  split <;> rfl

theorem accountMap_releaseExpired {expired : List RowId} :
    ∀ db : WalletDatabase, (db.releaseExpired expired).accountMap = db.accountMap := by
  induction expired with
  | nil => exact fun _ => rfl
  | cons id rest ih =>
    intro db
    exact (ih _).trans (db.accountMap_expireAndUnlock id)

theorem named_of_some {row : AccountRow} (hrow : db.getAccountByName v = some row) :
    db.accountMap.named v = some row.account := by
  show (db.getAccountByName v).map _ = _
  rw [hrow]
  rfl

theorem named_of_none (hfree : db.getAccountByName v = none) : db.accountMap.named v = none := by
  show (db.getAccountByName v).map _ = none
  rw [hfree]
  rfl

theorem accountMap_addAccount (p : Passphrase) (viewOnly : Bool) (hfree : db.getAccountByName v = none) :
    (AccountOp.create v p viewOnly).run db.accountMap = some (db.addAccount v p viewOnly).accountMap := by
  simp only [AccountOp.run, named_of_none hfree]
  congr 2
  funext w
  show _ = ((db.addAccount v p viewOnly).getAccountByName w).map AccountRow.account
  rw [getAccountByName_addAccount, Function.update_apply]
  split <;> rfl

theorem accountMap_deleteWallet {row : AccountRow} (hrow : db.getAccountByName v = some row) :
    (AccountOp.delete v).run db.accountMap = some (db.deleteWallet v).accountMap := by
  simp only [AccountOp.run, named_of_some hrow]
  congr 2
  funext w
  show _ = ((db.deleteWallet v).getAccountByName w).map AccountRow.account
  rw [getAccountByName_deleteWallet, Function.update_apply]
  split <;> rfl

theorem accountMap_renameWallet {row : AccountRow} (hrow : db.getAccountByName v = some row)
    (hfree : db.getAccountByName new = none) :
    (AccountOp.rename v new).run db.accountMap = some (db.renameWallet v new).accountMap := by
  have hne : v ≠ new := by
    rintro rfl
    rw [hrow] at hfree
    cases hfree
  simp only [AccountOp.run, named_of_some hrow, named_of_none hfree]
  congr 2
  funext w
  show _ = ((db.renameWallet v new).getAccountByName w).map AccountRow.account
  rw [getAccountByName_renameWallet hne hfree, hrow, Function.update_apply, Function.update_apply]
  by_cases hnew : w = new
  · rw [if_pos hnew, if_pos hnew]
    rfl
  · rw [if_neg hnew, if_neg hnew]
    split <;> rfl

theorem accountMap_rewrite {row : AccountRow} {old p : Passphrase} (hrow : db.getAccountByName v = some row)
    (hold : row.passphrase = old) :
    (AccountOp.changePassphrase v old p).run db.accountMap = some (db.rewrite v p).accountMap := by
  have hpass : row.account.passphrase = old := hold
  simp only [AccountOp.run, named_of_some hrow, hpass, if_true]
  congr 2
  funext w
  show _ = ((db.rewrite v p).getAccountByName w).map AccountRow.account
  rw [getAccountByName_rewrite, Function.update_apply]
  by_cases hw : w = v
  · subst hw
    rw [if_pos rfl, hrow]
    simp [getAccountByName_name hrow, AccountRow.account]
  · rw [if_neg hw]
    show (db.getAccountByName w).map _ = _
    cases hother : db.getAccountByName w with
    | none => rfl
    | some other => simp [getAccountByName_name hother, hw]

end WalletDatabase

/-! ## What a call does to it -/

def WalletChange.accountOp (walletName : WalletName) : WalletChange → AccountOp
  | .delete => .delete walletName
  | .rename newWalletName => .rename walletName newWalletName

/-- The operation a call is there for. -/
def Call.accountOp : Call → Option AccountOp
  | .withWalletLocked m => some (m.change.accountOp m.walletName)
  | .changePassphrase p => some (.changePassphrase p.walletName p.oldPassphrase p.newPassphrase)
  | .createWallet c => some (.create c.walletName c.passphrase (decide (c.source = .viewKey)))
  | _ => none

def WithLockedAt.acted : WithLockedAt → Bool
  | .settle _ (.ok _) | .lockAfter _ (.ok _) | .leave (.ok _) | .returned (.ok _) => true
  | _ => false

def ChangeAt.acted : ChangeAt → Bool
  | .settle _ (.ok _) | .leave (.ok _) | .returned (.ok _) => true
  | _ => false

def CreateAt.acted : CreateAt → Bool
  | .finish | .returned (.ok _) => true
  | _ => false

/-- A call whose write is done. -/
def Call.acted : Call → Bool
  | .withWalletLocked m => m.pos.acted
  | .changePassphrase p => p.pos.acted
  | .createWallet c => c.pos.acted
  | _ => false

/-- A view-only import that failed; it may have failed once its account was there. -/
def Call.importFailed : Call → Bool
  | .createWallet c =>
    match c.source, c.pos with
    | .viewKey, .returned (.error _) => true
    | _, _ => false
  | _ => false

def Call.mayHaveActed (call : Call) : Bool := call.acted || call.importFailed

/-- The files' account maps, and the calls on them. -/
def accountObjects : Objects Shared Call PathBuf AccountOp AccountMap where
  state σ file := (σ.files file).accountMap
  run op m := op.run m
  asks := Call.accountOp
  acted := Call.acted
  mayHaveActed := Call.mayHaveActed
  ended := Call.returned

variable {me : CallId} {ch : Choice} {σ σ' : Shared} {call call' : Call}

/-- A write to one file is seen in that file. -/
theorem accountMap_setFile (σ : Shared) (file : PathBuf) (db : WalletDatabase) :
    accountObjects.state (σ.setFile file db) = Function.update (accountObjects.state σ) file db.accountMap := by
  funext path
  by_cases hpath : path = file
  · subst hpath
    simp [accountObjects, Shared.setFile]
  · simp [accountObjects, Shared.setFile, Function.update_of_ne hpath]

/-- A write that leaves the accounts of its file alone is not seen. -/
theorem accountMap_setFile_same {file : PathBuf} {db : WalletDatabase}
    (h : db.accountMap = (σ.files file).accountMap) :
    accountObjects.state (σ.setFile file db) = accountObjects.state σ := by
  rw [accountMap_setFile, h]
  exact Function.update_eq_self file (accountObjects.state σ)

theorem accountMap_of_files (h : σ'.files = σ.files) : accountObjects.state σ' = accountObjects.state σ := by
  funext file
  show (σ'.files file).accountMap = (σ.files file).accountMap
  rw [h]

/-- What is not a delete, a rename, a passphrase change or a new account leaves the accounts alone. -/
theorem FilesStep.accounts_kept (h : FilesStep call σ call' σ') (hnone : call.accountOp = none) :
    accountObjects.state σ' = accountObjects.state σ := by
  cases h with
  | same hfiles => exact accountMap_of_files hfiles
  | swept hfiles =>
    rw [accountMap_of_files hfiles]
    exact accountMap_setFile_same (WalletDatabase.accountMap_releaseExpired _)
  | changed _ _ => cases hnone
  | rewritten _ _ => cases hnone
  | created _ _ => cases hnone
  | reserved _ _ => exact accountMap_setFile_same rfl
  | completed _ => exact accountMap_setFile_same rfl
  | expired => exact accountMap_setFile_same (WalletDatabase.accountMap_expireAndUnlock _ _)

/-! ## Each acts at one instant -/

/-- `delete_wallet_with_conn` and `rename_wallet_with_conn` do what they are called for, or nothing. -/
theorem WalletChange.apply_accounts {change : WalletChange} {w : WalletName} {db db' : WalletDatabase}
    {r : Except BridgeError Unit} (h : change.apply w ch db = (r, db')) :
    (∃ e, r = .error e ∧ db' = db) ∨
      (r = .ok () ∧ (change.accountOp w).run db.accountMap = some db'.accountMap) := by
  cases change with
  | delete =>
    simp only [apply] at h
    split at h <;> cases h
    · exact Or.inl ⟨_, rfl, rfl⟩
    · rename_i hfound
      simp only [Bool.or_eq_true, not_or, Bool.not_eq_true, Option.isNone_eq_false_iff] at hfound
      obtain ⟨row, hrow⟩ := Option.isSome_iff_exists.mp hfound.2
      exact Or.inr ⟨rfl, WalletDatabase.accountMap_deleteWallet hrow⟩
  | rename new =>
    simp only [apply] at h
    split at h <;> cases h
    · exact Or.inl ⟨_, rfl, rfl⟩
    · rename_i hfound
      simp only [Bool.or_eq_true, not_or, Bool.not_eq_true, Option.isSome_eq_false_iff,
        Option.isNone_iff_eq_none] at hfound
      obtain ⟨row, hrow⟩ := Option.ne_none_iff_exists'.mp hfound.1.2
      exact Or.inr ⟨rfl, WalletDatabase.accountMap_renameWallet hrow hfound.2⟩

/-- So does `change_passphrase`. -/
theorem changePassphraseIn_accounts {w : WalletName} {old new : Passphrase} {db db' : WalletDatabase}
    {r : Except BridgeError Unit} (h : changePassphraseIn db w old new = (r, db')) :
    (∃ e, r = .error e ∧ db' = db) ∨
      (r = .ok () ∧ (AccountOp.changePassphrase w old new).run db.accountMap = some db'.accountMap) := by
  unfold changePassphraseIn at h
  split at h
  · cases h
    exact Or.inl ⟨_, rfl, rfl⟩
  · rename_i row hrow
    split at h <;> cases h
    · exact Or.inl ⟨_, rfl, rfl⟩
    · have hold := AccountRow.verifyPassphrase_eq_ok.mp ‹_›
      exact Or.inr ⟨rfl, WalletDatabase.accountMap_rewrite hrow hold⟩

/-- A call that goes on without a write, and whose position tells the same of its operation. -/
theorem idle_of_files (hfiles : σ'.files = σ.files) (hasks : call'.accountOp = call.accountOp)
    (hacted : call'.acted = call.acted) (himport : call.importFailed = false) :
    accountObjects.Idle call σ call' σ' where
  state := accountMap_of_files hfiles
  asks := hasks
  acted h := hacted.symm.trans h
  mayHaveActed h := by
    have h' : (call.acted || call.importFailed) = true := h
    rw [himport, Bool.or_false] at h'
    show (call'.acted || call'.importFailed) = true
    rw [hacted, h']
    rfl

theorem WithWalletLocked.accountStep {m m' : WithWalletLocked} (h : m.next me ch σ = some (m', σ')) :
    accountObjects.Idle (.withWalletLocked m) σ (.withWalletLocked m') σ' ∨
      ∃ file op, accountObjects.Acts file op (.withWalletLocked m) σ (.withWalletLocked m') σ' := by
  obtain ⟨v, change, pos⟩ := m
  unfold next at h
  cases pos with
  | «begin» =>
    left
    dsimp only at h
    split at h
    · cases h
      exact idle_of_files rfl rfl rfl rfl
    · obtain ⟨σ₁, hbegin, h⟩ := Option.map_eq_some_iff.mp h
      obtain ⟨-, rfl⟩ := Shared.beginMaintenance_eq_some hbegin
      cases h
      exact idle_of_files rfl rfl rfl rfl
  | conn =>
    left
    dsimp only at h
    split at h <;> cases h <;> exact idle_of_files rfl rfl rfl rfl
  | lockBefore file e =>
    left
    dsimp only at h
    split at h <;> cases h <;> exact idle_of_files (EverywhereAt.next_files ‹_›) rfl rfl rfl
  | change file =>
    dsimp only at h
    split at h
    · left
      cases h
      exact idle_of_files rfl rfl rfl rfl
    · generalize hwrite : change.apply v ch (σ.files file) = r at h
      obtain ⟨changed, db⟩ := r
      cases h
      rcases WalletChange.apply_accounts hwrite with ⟨e, rfl, rfl⟩ | ⟨rfl, hrun⟩
      · exact Or.inl ⟨accountMap_setFile_same rfl, rfl, nofun, nofun⟩
      · exact Or.inr ⟨file, _, rfl, rfl, rfl, rfl, _, hrun, accountMap_setFile _ _ _⟩
  | settle file changed =>
    left
    dsimp only at h
    split at h <;> cases h <;> exact idle_of_files rfl rfl (by cases changed <;> rfl) rfl
  | lockAfter e changed =>
    left
    dsimp only at h
    split at h <;> cases h <;>
      exact idle_of_files (EverywhereAt.next_files ‹_›) rfl (by cases changed <;> rfl) rfl
  | leave r =>
    left
    cases h
    exact idle_of_files rfl rfl (by cases r <;> rfl) rfl
  | returned r => cases h

theorem ChangePassphrase.accountStep {p p' : ChangePassphrase} (h : p.next me ch σ = some (p', σ')) :
    accountObjects.Idle (.changePassphrase p) σ (.changePassphrase p') σ' ∨
      ∃ file op, accountObjects.Acts file op (.changePassphrase p) σ (.changePassphrase p') σ' := by
  obtain ⟨v, old, new, pos⟩ := p
  unfold next at h
  cases pos with
  | «begin» =>
    left
    obtain ⟨σ₁, hbegin, h⟩ := Option.map_eq_some_iff.mp h
    obtain ⟨-, rfl⟩ := Shared.beginMaintenance_eq_some hbegin
    cases h
    exact idle_of_files rfl rfl rfl rfl
  | stop s =>
    left
    dsimp only at h
    split at h <;> cases h <;> exact idle_of_files (StopAt.next_files ‹_›) rfl rfl rfl
  | write file =>
    dsimp only at h
    split at h
    · left
      cases h
      exact idle_of_files rfl rfl rfl rfl
    · split at h
      · left
        cases h
        exact idle_of_files rfl rfl rfl rfl
      · generalize hwrite : changePassphraseIn (σ.files file) v old new = r at h
        obtain ⟨r, db⟩ := r
        cases h
        rcases changePassphraseIn_accounts hwrite with ⟨e, rfl, rfl⟩ | ⟨rfl, hrun⟩
        · exact Or.inl ⟨accountMap_setFile_same rfl, rfl, nofun, nofun⟩
        · exact Or.inr ⟨file, _, rfl, rfl, rfl, rfl, _, hrun, accountMap_setFile _ _ _⟩
  | settle file r =>
    left
    dsimp only at h
    split at h <;> cases h <;> exact idle_of_files rfl rfl (by cases r <;> rfl) rfl
  | leave r =>
    left
    cases h
    exact idle_of_files rfl rfl (by cases r <;> rfl) rfl
  | _ =>
    left
    dsimp only at h
    (repeat' split at h) <;> cases h <;> exact idle_of_files rfl rfl rfl rfl

/-- Only a view-only import parses its keys once the account is there. -/
theorem CreateWallet.source_of_finish {c c' : CreateWallet} (h : c.next ch σ = some (c', σ'))
    (hpos : c'.pos = .finish) : c'.source = .viewKey := by
  obtain ⟨v, network, passphrase, source, pos⟩ := c
  unfold next at h
  cases pos <;> cases source <;> dsimp only at h <;> (repeat' split at h) <;> cases h <;>
    first | rfl | cases hpos

theorem source_of_finish {ok : Guard Shared Call} {s : World} (h : system.Reach ok s) {m : CallId}
    {c : CreateWallet} (hc : s.calls m = some (.createWallet c)) (hpos : c.pos = .finish) :
    c.source = .viewKey := by
  refine h.outline (A := fun _ call _ => ∀ c, call = .createWallet c → c.pos = .finish → c.source = .viewKey)
    ?_ ?_ ?_ hc c rfl hpos
  · rintro s m call _ _ hstart c rfl hpos
    have hnetwork : c.pos = .network := by simpa [system, Call.starts] using hstart
    rw [hnetwork] at hpos
    cases hpos
  · rintro s m call call' σ' _ _ _ _ ⟨ch, hstep⟩ c' rfl hpos
    cases call <;> obtain ⟨r, hr, h⟩ := Option.map_eq_some_iff.mp hstep <;> cases h
    exact CreateWallet.source_of_finish hr hpos
  · intro s m call call' σ' d other _ _ _ _ _ _ _ hother
    exact hother

theorem CreateWallet.accountStep {c c' : CreateWallet} (hsource : c.pos = .finish → c.source = .viewKey)
    (h : c.next ch σ = some (c', σ')) :
    accountObjects.Idle (.createWallet c) σ (.createWallet c') σ' ∨
      ∃ file op, accountObjects.Acts file op (.createWallet c) σ (.createWallet c') σ' := by
  obtain ⟨v, network, passphrase, source, pos⟩ := c
  unfold next at h
  cases pos with
  | network =>
    left
    dsimp only at h
    split at h <;> cases h
    all_goals
      obtain ⟨network, rfl⟩ := Shared.applyNetwork_frame ‹_›
      exact idle_of_files rfl rfl (by cases source <;> rfl) (by cases source <;> rfl)
  | init file =>
    dsimp only at h
    split at h
    · left
      cases h
      exact idle_of_files rfl rfl (by cases source <;> rfl) (by cases source <;> rfl)
    · split at h
      · cases h
      · rename_i htaken
        rw [Bool.not_eq_true, Option.isSome_eq_false_iff, Option.isNone_iff_eq_none] at htaken
        cases h
        right
        have hrun := WalletDatabase.accountMap_addAccount passphrase (decide (source = .viewKey)) htaken
        refine ⟨file, _, rfl, rfl, ?_, ?_, _, hrun, accountMap_setFile _ _ _⟩ <;> cases source <;> rfl
  | finish =>
    left
    dsimp only at h
    split at h <;> cases h
    · -- the account is there, and the call fails all the same
      obtain rfl := hsource rfl
      exact ⟨rfl, rfl, fun _ => rfl, fun _ => rfl⟩
    · exact idle_of_files rfl rfl rfl (by cases source <;> rfl)
  | returned r => cases h
  | _ =>
    left
    cases source <;> dsimp only at h <;> (repeat' split at h) <;> cases h <;> exact idle_of_files rfl rfl rfl rfl

/-- The other calls do nothing to the accounts. -/
theorem Call.accountOp_of_next (h : call.next me ch σ = some (call', σ')) (hnone : call.accountOp = none) :
    accountObjects.Idle call σ call' σ' := by
  have hfiles := (Call.filesStep h).accounts_kept hnone
  cases call <;> try cases hnone
  all_goals
    obtain ⟨r, -, h⟩ := Option.map_eq_some_iff.mp h
    cases h
    exact ⟨hfiles, rfl, nofun, nofun⟩

/-- Every call acts at one instant. -/
theorem accounts_linearize (ok : Guard Shared Call) : accountObjects.Linearizes system ok where
  start {call} h := by
    cases call with
    | withWalletLocked m =>
      have hpos : m.pos = .begin := by simpa [system, Call.starts] using h
      simp [accountObjects, Call.acted, hpos, WithLockedAt.acted]
    | changePassphrase p =>
      have hpos : p.pos = .conn := by simpa [system, Call.starts] using h
      simp [accountObjects, Call.acted, hpos, ChangeAt.acted]
    | createWallet c =>
      have hpos : c.pos = .network := by simpa [system, Call.starts] using h
      simp [accountObjects, Call.acted, hpos, CreateAt.acted]
    | _ => rfl
  step {s c call call' σ'} hs hc := by
    rintro ⟨ch, h⟩
    cases call with
    | withWalletLocked m =>
      obtain ⟨r, hr, h⟩ := Option.map_eq_some_iff.mp h
      cases h
      exact WithWalletLocked.accountStep hr
    | changePassphrase p =>
      obtain ⟨r, hr, h⟩ := Option.map_eq_some_iff.mp h
      cases h
      exact ChangePassphrase.accountStep hr
    | createWallet x =>
      obtain ⟨r, hr, h⟩ := Option.map_eq_some_iff.mp h
      cases h
      exact CreateWallet.accountStep (fun hpos => source_of_finish hs hc hpos) hr
    | _ => exact Or.inl (Call.accountOp_of_next h rfl)
  ended h := by
    rintro ⟨ch, hstep⟩
    rw [Call.next_of_returned h] at hstep
    cases hstep

/-! ## Every run has a history -/

/-- Whether a call that changes accounts returned `Ok`, once it has returned. -/
def Call.accountResult : Call → Option Bool
  | .withWalletLocked m =>
    match m.pos with
    | .returned r => some r.isOk
    | _ => none
  | .changePassphrase p =>
    match p.pos with
    | .returned r => some r.isOk
    | _ => none
  | .createWallet c =>
    match c.pos with
    | .returned r => some r.isOk
    | _ => none
  | _ => none

/-- A call that has returned acted where it returned `Ok`. -/
theorem Call.acted_of_result {b : Bool} (h : call.accountResult = some b) : call.acted = b := by
  cases call with
  | withWalletLocked m =>
    obtain ⟨v, change, pos⟩ := m
    rcases pos with _ | _ | _ | _ | _ | _ | _ | (_ | _) <;> cases h <;> rfl
  | changePassphrase p =>
    obtain ⟨v, old, new, pos⟩ := p
    rcases pos with _ | _ | _ | _ | _ | _ | _ | _ | (_ | _) <;> cases h <;> rfl
  | createWallet c =>
    obtain ⟨v, network, passphrase, source, pos⟩ := c
    rcases pos with _ | _ | _ | _ | _ | _ | (_ | _) <;> cases h <;> rfl
  | _ => cases h

/-- `history` is what the calls did to the accounts of `files`: its operations, one after the other, make of
each file's map the one it holds now; each was asked for by the one call that performed it; every call that
returned `Ok` is there; and of those that returned an error at most a view-only import is. -/
structure World.AccountHistory (s : World) (files : PathBuf → WalletDatabase)
    (history : List (Performed PathBuf AccountOp)) : Prop where
  maps : ∀ file, accountObjects.replay history file (files file).accountMap =
    some (s.shared.files file).accountMap
  once : (history.map (·.call)).Nodup
  asked : ∀ p ∈ history, ∃ call, s.calls p.call = some call ∧ call.accountOp = some p.op ∧
    (call.accountResult = some false → call.importFailed = true)
  done : ∀ c call, s.calls c = some call → call.accountResult = some true → ∃ p ∈ history, p.call = c

theorem World.AccountHistory.of_explains {s : World} {files : PathBuf → WalletDatabase}
    {history : List (Performed PathBuf AccountOp)}
    {tariCommon : TariCommon} (h : accountObjects.Explains (.initial files tariCommon) s history) :
    s.AccountHistory files history where
  maps := h.state
  once := h.nodup
  asked p hp := by
    obtain ⟨call, hcall, hasks, hacted⟩ := h.asked p hp
    refine ⟨call, hcall, hasks, fun herror => ?_⟩
    have hacted' : (call.acted || call.importFailed) = true := hacted
    rwa [Call.acted_of_result herror, Bool.false_or] at hacted'
  done c call hc hok := h.acted c call hc (Call.acted_of_result hok)

/-- The accounts are linearizable.  Whatever the interleaving, what a run did to the accounts of every file
is what a list of deletes, renames, new accounts and passphrase changes does one after the other, each
accepted, each by one call; a call that returned `Ok` is in it and one that returned an error is not, but for
a view-only import.  The list only grows, and by calls that were not over yet. -/
theorem accounts_linearizable {ok : Guard Shared Call} {files : PathBuf → WalletDatabase}
    {tariCommon : TariCommon} {s : World} (h : system.Steps ok ⟨.initial files tariCommon, fun _ => none⟩ s) :
    ∃ history, s.AccountHistory files history ∧
      ∀ t, system.Steps ok s t → ∃ more, World.AccountHistory t files (history ++ more) ∧
        ∀ p ∈ more, ∀ call, s.calls p.call = some call → call.returned = false := by
  have hO := accounts_linearize ok
  have hinit : system.init (.initial files tariCommon) := ⟨files, tariCommon, rfl⟩
  have hreach : system.Reach ok s := System.Reach.steps (fun _ _ hok => hok) (.init hinit) h
  obtain ⟨history, hhistory⟩ := hO.exists_history hinit h
  refine ⟨history, .of_explains hhistory, fun t ht => ?_⟩
  obtain ⟨more, hmore, hlive⟩ := hO.goes_on hreach hhistory ht
  exact ⟨more, .of_explains hmore, hlive⟩

/-- A wallet is renamed, and another takes its name. -/
def renamedAndReplaced : Option World :=
  (replay 3 fun _ _ => true).exec fresh (.start 0 (.setDatabasePath ⟨firstPath, .set⟩) :: go 0 1 ++
    .start 1 (.withWalletLocked ⟨"main", .rename "other", .begin⟩) :: go 1 19 ++
    .start 2 (.createWallet ⟨"main", none, "new", .randomSeed, .network⟩) :: go 2 4)

theorem accounts_linearizable_renamedAndReplaced : ∃ (s : World) (history : List (Performed PathBuf AccountOp)),
    renamedAndReplaced = some s ∧ s.AccountHistory (fun _ => sampleFile) history ∧
    (∃ p ∈ history, p.call = 1) ∧ ∃ p ∈ history, p.call = 2 := by
  obtain ⟨s, hs⟩ := Option.isSome_iff_exists.mp (by decide : renamedAndReplaced.isSome = true)
  have facts : renamedAndReplaced.map (fun s => ((s.calls 1).bind Call.accountResult,
      (s.calls 2).bind Call.accountResult)) = some (some true, some true) := by decide
  simp only [hs, Option.map_some, Option.some.injEq, Prod.mk.injEq, Option.bind_eq_some_iff] at facts
  obtain ⟨⟨rename, hrename, hrenamed⟩, create, hcreate, hcreated⟩ := facts
  have hsteps : system.Steps (fun _ _ => True) fresh s :=
    ((replay_sound fun _ _ _ _ => trivial).steps (fun _ _ => rfl) hs).2
  obtain ⟨history, hhistory, -⟩ := accounts_linearizable hsteps
  exact ⟨s, history, hs, hhistory, hhistory.done 1 rename hrename hrenamed,
    hhistory.done 2 create hcreate hcreated⟩

end CwTariWallet
