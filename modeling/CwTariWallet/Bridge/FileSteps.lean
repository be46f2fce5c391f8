/-
# CwTariWallet.Bridge.FileSteps -- the ways a step can change a database file

`FilesStep` names every write to a file with the call and the position it is made from; every other step
of the bridge leaves the files as they are (`Call.filesStep`).  A row that was reserved stays pending, or
is settled, whoever writes (`FilesStep.keepsRow`).
-/
import CwTariWallet.Bridge.Effects

namespace CwTariWallet

open Interleaving

/-- What a step can do to the database files. -/
inductive FilesStep : Call → Shared → Call → Shared → Prop
  | same {call call' σ σ'} : σ'.files = σ.files → FilesStep call σ call' σ'
  /-- The expired reservations of a file are released: a pool was opened, or a scan or a send sweeps. -/
  | swept {call call' σ σ' file rows} :
      σ'.files = (σ.setFile file ((σ.files file).releaseExpired rows)).files →
      FilesStep call σ call' σ'
  /-- A delete or a rename. -/
  | changed {m file changed db σ} {ch : Choice} : m.pos = .change file →
      m.change.apply m.walletName ch (σ.files file) = (changed, db) →
      FilesStep (.withWalletLocked m) σ (.withWalletLocked (m.to (.settle file changed)))
        (σ.setFile file db)
  /-- A passphrase is changed. -/
  | rewritten {p file r db σ} : p.pos = .write file →
      changePassphraseIn (σ.files file) p.walletName p.oldPassphrase p.newPassphrase = (r, db) →
      FilesStep (.changePassphrase p) σ (.changePassphrase (p.to (.settle file r)))
        (σ.setFile file db)
  /-- An account is added. -/
  | created {c file pos σ} : c.pos = .init file →
      (σ.files file).getAccountByName c.walletName = none →
      FilesStep (.createWallet c) σ (.createWallet (c.goto pos))
        (σ.setFile file
          ((σ.files file).addAccount c.walletName c.passphrase (decide (c.source = .viewKey))))
  /-- A send reserves its inputs. -/
  | reserved {x x' sender row inputs σ} : x.pos = .build sender →
      (σ.files sender.dbPool).pending row = none →
      FilesStep (.sendTransaction x) σ (.sendTransaction x')
        (σ.setFile sender.dbPool ((σ.files sender.dbPool).reserve row inputs))
  /-- A send is recorded. -/
  | completed {x x' sender row σ} : x.pos = .finalize sender row →
      FilesStep (.sendTransaction x) σ (.sendTransaction x')
        (σ.setFile sender.dbPool ((σ.files sender.dbPool).complete row))
  /-- A reservation is released, in a failed finalize or by the bridge. -/
  | expired {x x' file row σ} : FilesStep (.sendTransaction x) σ (.sendTransaction x')
        (σ.setFile file ((σ.files file).expireAndUnlock row).2)

variable {me : CallId} {ch : Choice} {σ σ' : Shared}

/-! ## Every step is one of them -/

@[simp]
theorem Shared.setFile_files (σ : Shared) (file : PathBuf) (db : WalletDatabase) :
    (σ.setFile file db).files = Function.update σ.files file db := rfl

/-- A sweep that fails releases nothing. -/
theorem Shared.releaseExpired_files (σ : Shared) (file : PathBuf) (ch : Choice) :
    (σ.releaseExpired file ch).files = σ.files ∨
      (σ.releaseExpired file ch).files =
        (σ.setFile file ((σ.files file).releaseExpired ch.expired)).files := by
  unfold releaseExpired
  cases ch.dbError with
  | some e => exact Or.inl (by simp)
  | none => exact Or.inr rfl

theorem FilesStep.sweep {call call' : Call} {file : PathBuf}
    (h : σ'.files = (σ.releaseExpired file ch).files) : FilesStep call σ call' σ' := by
  rcases σ.releaseExpired_files file ch with hsame | hswept
  · exact .same (h.trans hsame)
  · exact .swept (h.trans hswept)

/-- A count sweeps the file of a pool it opened, and writes nothing else. -/
theorem Shared.count_files {path : PathBuf} {w : WalletName} {r : Except BridgeError Nat}
    (h : σ.count me path w ch = (r, σ')) :
    σ'.files = σ.files ∨ σ'.files = (σ.releaseExpired path ch).files := by
  unfold count at h
  split at h
  · obtain ⟨-, rfl⟩ := Prod.mk.inj h
    exact Or.inl rfl
  · obtain ⟨-, rfl⟩ := Prod.mk.inj h
    split
    · exact Or.inr rfl
    · exact Or.inl rfl

theorem GateHeldAt.next_files {w : WalletName} {h : GateHeldAt} {r : GateHeldAt ⊕ Bool}
    (hnext : h.next w σ = (r, σ')) : σ'.files = σ.files := by
  cases h with
  | readState =>
    simp only [GateHeldAt.next] at hnext
    split at hnext <;> obtain ⟨-, rfl⟩ := Prod.mk.inj hnext <;> rfl
  | lockSession =>
    obtain ⟨-, rfl⟩ := Prod.mk.inj hnext
    rfl
  | cancelScans =>
    obtain ⟨-, rfl⟩ := Prod.mk.inj hnext
    rw [Shared.cancelWalletScans_eq]

theorem GateAt.next_files {w : WalletName} {g : GateAt} {r : GateAt ⊕ Bool}
    (hnext : g.next me w σ = some (r, σ')) : σ'.files = σ.files := by
  cases g with
  | wait =>
    obtain ⟨σ₁, hhold, h⟩ := Option.map_eq_some_iff.mp hnext
    obtain ⟨-, rfl⟩ := Shared.holdGate_eq_some hhold
    cases h
    rfl
  | held h =>
    simp only [GateAt.next] at hnext
    split at hnext <;> cases hnext <;> exact GateHeldAt.next_files ‹_›
  | leave locked =>
    cases hnext
    rfl

theorem StopAt.next_files {w : WalletName} {s : StopAt} {r : StopAt ⊕ Unit}
    (h : s.next w σ = some (r, σ')) : σ'.files = σ.files := by
  obtain ⟨scans, tokens, rfl⟩ := StopAt.next_frame h
  rfl

theorem EverywhereAt.next_files {w : WalletName} {e : EverywhereAt} {r : EverywhereAt ⊕ Unit}
    (hnext : e.next me w σ = some (r, σ')) : σ'.files = σ.files := by
  cases e with
  | remove =>
    cases hnext
    rfl
  | gate file g =>
    simp only [EverywhereAt.next] at hnext
    split at hnext <;> cases hnext <;> exact GateAt.next_files ‹_›
  | stop s =>
    simp only [EverywhereAt.next] at hnext
    split at hnext <;> cases hnext <;> exact StopAt.next_files ‹_›

theorem UnlockWallet.filesStep {u u' : UnlockWallet} (h : u.next me ch σ = some (u', σ')) :
    FilesStep (.unlockWallet u) σ (.unlockWallet u') σ' := by
  obtain ⟨path, v, passphrase, pos⟩ := u
  unfold next at h
  cases pos with
  | count =>
    dsimp only at h
    split at h <;> cases h
    all_goals
      rcases Shared.count_files ‹_› with hsame | hswept
      · exact .same hsame
      · exact .sweep hswept
  | gate g =>
    obtain ⟨σ₁, hhold, h⟩ := Option.map_eq_some_iff.mp h
    obtain ⟨-, rfl⟩ := Shared.holdGate_eq_some hhold
    cases h
    exact .same rfl
  | failed g e =>
    dsimp only at h
    split at h <;> cases h
    all_goals
      rcases Shared.releaseFailed_eq ‹_› with ⟨-, db, -, rfl⟩ | ⟨-, -, rfl⟩ <;> exact .same rfl
  | lockHeld hh g e =>
    dsimp only at h
    split at h <;> cases h <;> exact .same (GateHeldAt.next_files ‹_›)
  | _ =>
    dsimp only at h
    (repeat' split at h) <;> cases h <;> exact .same rfl

theorem LockWallet.next_files {l l' : LockWallet} (h : l.next me σ = some (l', σ')) :
    σ'.files = σ.files := by
  obtain ⟨v, holder, pos⟩ := l
  unfold next at h
  cases pos with
  | release =>
    dsimp only at h
    split at h <;> cases h
    all_goals
      obtain ⟨db, -, rfl⟩ := Shared.releaseSession_eq ‹_›
      rfl
  | gate file g =>
    dsimp only at h
    split at h <;> cases h <;> exact GateAt.next_files ‹_›
  | stop s =>
    dsimp only at h
    split at h <;> cases h <;> exact StopAt.next_files ‹_›
  | returned r => cases h

theorem WithWalletLocked.filesStep {m m' : WithWalletLocked} (h : m.next me ch σ = some (m', σ')) :
    FilesStep (.withWalletLocked m) σ (.withWalletLocked m') σ' := by
  obtain ⟨v, change, pos⟩ := m
  unfold next at h
  cases pos with
  | «begin» =>
    dsimp only at h
    split at h
    · cases h
      exact .same rfl
    · obtain ⟨σ₁, hbegin, h⟩ := Option.map_eq_some_iff.mp h
      obtain ⟨-, rfl⟩ := Shared.beginMaintenance_eq_some hbegin
      cases h
      exact .same rfl
  | lockBefore file e | lockAfter e changed =>
    dsimp only at h
    split at h <;> cases h <;> exact .same (EverywhereAt.next_files ‹_›)
  | change file =>
    dsimp only at h
    split at h <;> cases h
    · exact .same rfl
    · exact FilesStep.changed rfl (rfl : _ = change.apply v ch (σ.files file))
  | _ =>
    dsimp only at h
    (repeat' split at h) <;> cases h <;> exact .same rfl

theorem ChangePassphrase.filesStep {p p' : ChangePassphrase} (h : p.next me ch σ = some (p', σ')) :
    FilesStep (.changePassphrase p) σ (.changePassphrase p') σ' := by
  obtain ⟨v, old, new, pos⟩ := p
  unfold next at h
  cases pos with
  | «begin» =>
    obtain ⟨σ₁, hbegin, h⟩ := Option.map_eq_some_iff.mp h
    obtain ⟨-, rfl⟩ := Shared.beginMaintenance_eq_some hbegin
    cases h
    exact .same rfl
  | stop s =>
    dsimp only at h
    split at h <;> cases h <;> exact .same (StopAt.next_files ‹_›)
  | write file =>
    dsimp only at h
    (repeat' split at h) <;> cases h
    · exact .same rfl
    · exact .same rfl
    · exact .rewritten rfl rfl
  | _ =>
    dsimp only at h
    (repeat' split at h) <;> cases h <;> exact .same rfl

theorem Scan.filesStep {x x' : Scan} (h : x.next me ch σ = some (x', σ')) :
    FilesStep (.scan x) σ (.scan x') σ' := by
  obtain ⟨handle, v, priority, continuous, rescanFrom, pos, dbPath, forwarder, checked, swept, rolledBack⟩ := x
  unfold next at h
  cases pos with
  | maintenance =>
    obtain ⟨σ₁, hbegin, h⟩ := Option.map_eq_some_iff.mp h
    obtain ⟨-, rfl⟩ := Shared.beginMaintenance_eq_some hbegin
    cases h
    exact .same rfl
  | slot =>
    dsimp only at h
    split at h <;> cases h
    all_goals
      rcases Shared.enterSlot_eq ‹_› with ⟨-, rfl, -⟩ | ⟨e, -, rfl⟩ | ⟨wallet, -, -, rfl⟩ <;>
        exact .same rfl
  | sweep file =>
    cases h
    exact .sweep rfl
  | _ =>
    dsimp only at h
    (repeat' split at h) <;> cases h <;> exact .same rfl

theorem CreateWallet.filesStep {c c' : CreateWallet} (h : c.next ch σ = some (c', σ')) :
    FilesStep (.createWallet c) σ (.createWallet c') σ' := by
  obtain ⟨v, network, passphrase, source, pos⟩ := c
  unfold next at h
  cases pos with
  | network =>
    dsimp only at h
    split at h <;> cases h <;> obtain ⟨network, rfl⟩ := Shared.applyNetwork_frame ‹_› <;>
      exact .same rfl
  | init file =>
    dsimp only at h
    split at h
    · cases h
      exact .same rfl
    · split at h <;> cases h
      rename_i hnone
      refine .created rfl ?_
      simpa using hnone
  | _ =>
    dsimp only at h
    (repeat' split at h) <;> cases h <;> exact .same rfl

theorem GetAddress.next_files {a a' : GetAddress} (h : a.next ch σ = some (a', σ')) :
    σ'.files = σ.files := by
  obtain ⟨v, network, pos, live⟩ := a
  unfold next at h
  cases pos with
  | network =>
    dsimp only at h
    split at h <;> cases h <;> obtain ⟨network, rfl⟩ := Shared.applyNetwork_frame ‹_› <;> rfl
  | _ =>
    dsimp only at h
    (repeat' split at h) <;> cases h <;> rfl

theorem SendTransaction.filesStep {x x' : SendTransaction} (h : x.next ch σ = some (x', σ')) :
    FilesStep (.sendTransaction x) σ (.sendTransaction x') σ' := by
  obtain ⟨details, pos, log⟩ := x
  unfold next at h
  cases pos with
  | applyNetwork validated =>
    dsimp only at h
    split at h <;> cases h <;> obtain ⟨network, rfl⟩ := Shared.applyNetwork_frame ‹_› <;>
      exact .same rfl
  | sweep sender file =>
    cases h
    exact .sweep rfl
  | build sender =>
    dsimp only at h
    split at h
    · cases h
      exact .same rfl
    · split at h
      · cases h
        exact .same rfl
      · split at h <;> cases h
        rename_i hfree
        refine .reserved rfl ?_
        simpa using hfree
  | finalize sender row =>
    dsimp only at h
    (repeat' split at h) <;> cases h
    · exact .completed rfl
    · exact .completed rfl
    · exact .expired
    · exact .same rfl
  | release sender row cause file =>
    dsimp only at h
    split at h <;> cases h
    · exact .same rfl
    · exact .expired
  | _ =>
    dsimp only at h
    (repeat' split at h) <;> cases h <;> exact .same rfl

/-- Every step of the bridge changes the files in one of these ways. -/
theorem Call.filesStep {call call' : Call} (h : call.next me ch σ = some (call', σ')) :
    FilesStep call σ call' σ' := by
  cases call <;> obtain ⟨r, hr, h⟩ := Option.map_eq_some_iff.mp h <;> cases h
  case setDatabasePath p =>
    obtain ⟨path, hσ⟩ := SetDatabasePath.next_frame hr
    rw [hσ]
    exact .same rfl
  case unlockWallet u => exact UnlockWallet.filesStep hr
  case lockWallet l => exact .same (LockWallet.next_files hr)
  case forceLockWallet f =>
    unfold ForceLockWallet.next at hr
    split at hr
    · split at hr <;> simp only [Option.some.injEq, reduceCtorEq] at hr <;> rw [← hr] <;>
        exact .same (EverywhereAt.next_files ‹_›)
    · cases hr
  case withWalletLocked m => exact WithWalletLocked.filesStep hr
  case changePassphrase p => exact ChangePassphrase.filesStep hr
  case abandonSend a =>
    obtain ⟨scans, tokens, maintenance, hσ⟩ := AbandonSend.next_frame hr
    rw [hσ]
    exact .same rfl
  case scan x => exact Scan.filesStep hr
  case stopScan x =>
    obtain ⟨scans, tokens, hσ, -⟩ := StopScan.next_frame hr
    rw [hσ]
    exact .same rfl
  case createScanHandle x =>
    obtain ⟨issued, scanId, hσ⟩ := CreateScanHandle.next_frame hr
    rw [hσ]
    exact .same rfl
  case sendTransaction x => exact SendTransaction.filesStep hr
  case createWallet c => exact CreateWallet.filesStep hr
  case getAddress a => exact .same (GetAddress.next_files hr)

/-! ## Reserved rows -/

namespace WalletDatabase

variable {db db' : WalletDatabase} {row id : RowId}

/-- The row was recorded as sent, or has expired and holds no output. -/
def Settled (db : WalletDatabase) (row : RowId) : Prop :=
  db.pending row = some .completed ∨
    (db.pending row = some .expired ∧ ∀ o, db.lockedBy o ≠ some row)

/-- The row was reserved: it is still pending, or settled. -/
def Tracked (db : WalletDatabase) (row : RowId) : Prop :=
  db.pending row = some .pending ∨ db.Settled row

/-- From `db` to `db'` no reserved row is forgotten, and no settled row comes back. -/
structure KeepsRow (db db' : WalletDatabase) (row : RowId) : Prop where
  tracked : db.Tracked row → db'.Tracked row
  settled : db.Settled row → db'.Settled row

theorem Tracked.settled (h : db.Tracked row) (hnot : db.pending row ≠ some .pending) :
    db.Settled row :=
  h.resolve_left hnot

theorem KeepsRow.refl : db.KeepsRow db row := ⟨id, id⟩

theorem KeepsRow.of_eq (hpending : db'.pending = db.pending) (hlocked : db'.lockedBy = db.lockedBy) :
    db.KeepsRow db' row := by
  constructor
  · intro h
    rw [Tracked, Settled, hpending, hlocked]
    exact h
  · intro h
    rw [Settled, hpending, hlocked]
    exact h

/-- What is not about the row keeps it. -/
theorem KeepsRow.of_other (hpending : db'.pending row = db.pending row)
    (hlocked : ∀ o, db'.lockedBy o = some row → db.lockedBy o = some row) : db.KeepsRow db' row := by
  have hsettled : db.Settled row → db'.Settled row := by
    rintro (hdone | ⟨hdone, hfree⟩)
    · exact Or.inl (hpending.trans hdone)
    · exact Or.inr ⟨hpending.trans hdone, fun o ho => hfree o (hlocked o ho)⟩
  exact ⟨fun h => h.imp hpending.trans hsettled, hsettled⟩

/-- Expiring a row that is pending settles it, and expiring any other changes nothing. -/
theorem keepsRow_expireAndUnlock : db.KeepsRow (db.expireAndUnlock id).2 row := by
  by_cases hid : row = id
  · subst hid
    unfold expireAndUnlock
    by_cases hpending : db.pending row = some .pending
    · have hsettled : (db.expireAndUnlock row).2.Settled row := by
        refine Or.inr ⟨by simp [expireAndUnlock, hpending], fun o => ?_⟩
        simp only [expireAndUnlock, hpending, if_true]
        split
        · intro h
          cases h
        · assumption
      unfold expireAndUnlock at hsettled
      exact ⟨fun _ => Or.inr hsettled, fun _ => hsettled⟩
    · rw [if_neg hpending]
      exact .refl
  · refine .of_other ?_ fun o => expireAndUnlock_lockedBy
    unfold expireAndUnlock
    split
    · exact Function.update_of_ne hid _ _
    · rfl

theorem Tracked.expireAndUnlock (h : db.Tracked row) : (db.expireAndUnlock row).2.Settled row :=
  (keepsRow_expireAndUnlock.tracked h).settled (expireAndUnlock_pending_self db row)

theorem keepsRow_releaseExpired {expired : List RowId} :
    ∀ {db : WalletDatabase}, db.KeepsRow (db.releaseExpired expired) row := by
  induction expired with
  | nil => exact .refl
  | cons id rest ih =>
    intro db
    have hhead : db.KeepsRow (db.expireAndUnlock id).2 row := keepsRow_expireAndUnlock
    have hrest : (db.expireAndUnlock id).2.KeepsRow (db.releaseExpired (id :: rest)) row := ih
    exact ⟨fun h => hrest.tracked (hhead.tracked h), fun h => hrest.settled (hhead.settled h)⟩

/-- A new row is not one that was there. -/
theorem keepsRow_reserve {inputs : List OutputId} (hnew : db.pending id = none) :
    db.KeepsRow (db.reserve id inputs) row := by
  by_cases hid : row = id
  · -- There is nothing to keep.
    subst hid
    constructor
    · rintro (hpending | hdone | ⟨hdone, -⟩)
      · cases hnew.symm.trans hpending
      · cases hnew.symm.trans hdone
      · cases hnew.symm.trans hdone
    · rintro (hdone | ⟨hdone, -⟩)
      · cases hnew.symm.trans hdone
      · cases hnew.symm.trans hdone
  · refine .of_other (Function.update_of_ne hid _ _) fun o ho => ?_
    dsimp only [reserve] at ho
    split at ho
    · exact absurd (Option.some.inj ho).symm hid
    · exact ho

theorem keepsRow_complete : db.KeepsRow (db.complete id) row := by
  by_cases hid : row = id
  · subst hid
    have hsettled : (db.complete row).Settled row := Or.inl (Function.update_self _ _ _)
    exact ⟨fun _ => Or.inr hsettled, fun _ => hsettled⟩
  · exact .of_other (Function.update_of_ne hid _ _) fun _ ho => ho

end WalletDatabase

theorem WalletChange.apply_rows {change : WalletChange} {w : WalletName} {db db' : WalletDatabase}
    {r : Except BridgeError Unit} (h : change.apply w ch db = (r, db')) :
    db'.pending = db.pending ∧ db'.lockedBy = db.lockedBy := by
  unfold apply at h
  split at h <;> split at h <;> cases h <;> exact ⟨rfl, rfl⟩

theorem changePassphraseIn_rows {w : WalletName} {old new : Passphrase} {db db' : WalletDatabase}
    {r : Except BridgeError Unit} (h : changePassphraseIn db w old new = (r, db')) :
    db'.pending = db.pending ∧ db'.lockedBy = db.lockedBy := by
  unfold changePassphraseIn at h
  (repeat' split at h) <;> cases h <;> exact ⟨rfl, rfl⟩

theorem keepsRow_setFile {path : PathBuf} {db : WalletDatabase} {row : RowId}
    (h : (σ.files path).KeepsRow db row) (file : PathBuf) :
    (σ.files file).KeepsRow ((σ.setFile path db).files file) row := by
  rw [Shared.setFile_files]
  by_cases hf : file = path
  · subst hf
    rw [Function.update_self]
    exact h
  · rw [Function.update_of_ne hf]
    exact .refl

/-- A reserved row stays pending or is settled, in every file and whoever writes. -/
theorem FilesStep.keepsRow {call call' : Call} (h : FilesStep call σ call' σ') (file : PathBuf)
    (row : RowId) : (σ.files file).KeepsRow (σ'.files file) row := by
  cases h with
  | same hfiles =>
    rw [hfiles]
    exact .refl
  | swept hfiles =>
    rw [hfiles]
    exact keepsRow_setFile WalletDatabase.keepsRow_releaseExpired file
  | changed _ happly =>
    obtain ⟨hpending, hlocked⟩ := WalletChange.apply_rows happly
    exact keepsRow_setFile (.of_eq hpending hlocked) file
  | rewritten _ hrewrite =>
    obtain ⟨hpending, hlocked⟩ := changePassphraseIn_rows hrewrite
    exact keepsRow_setFile (.of_eq hpending hlocked) file
  | created _ _ =>
    refine keepsRow_setFile (.of_eq ?_ ?_) file
    · rfl
    · rfl
  | reserved _ hnew => exact keepsRow_setFile (WalletDatabase.keepsRow_reserve hnew) file
  | completed _ => exact keepsRow_setFile WalletDatabase.keepsRow_complete file
  | expired => exact keepsRow_setFile WalletDatabase.keepsRow_expireAndUnlock file

end CwTariWallet
