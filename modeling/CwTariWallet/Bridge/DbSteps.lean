/-
# CwTariWallet.Bridge.DbSteps -- the ways a step can change `DB_STATE`

Six critical sections write `DB_STATE`; `DbStep` names them with the call and the position each is
taken from, and every other step of the bridge leaves `DB_STATE` and its ledger as they are
(`Call.dbStep`).  What holds of `DB_STATE` whatever happens follows from that: the shared pool is open
while any wallet is counted, on the recorded path (`db_coherent`).
-/
import CwTariWallet.Bridge.KeyRefinement

namespace CwTariWallet

open Interleaving

/-- The wallet whose entry a call is about to remove. -/
def Call.removes : Call → Option WalletName
  | .forceLockWallet f => if f.pos = .everywhere .remove then some f.walletName else none
  | .withWalletLocked m =>
    match m.pos with
    | .lockBefore _ .remove | .lockAfter .remove _ => some m.walletName
    | _ => none
  | _ => none

/-- Where a `lock_wallet` goes after its state step. -/
def LockWallet.afterRelease (l : LockWallet) (σ : Shared) (zero : Bool) : LockAt :=
  if zero then .gate (σ.entryFile l.walletName) .wait else .returned false

/-- Where a failed `unlock_wallet` goes after giving its count back. -/
def UnlockAt.afterGiveBack (g : Nat) (e : BridgeError) (zero : Bool) : UnlockAt :=
  if zero then .lockHeld .readState g e else .leave g (.error e)

/-- What a step can do to `DB_STATE`. -/
inductive DbStep (me : CallId) : Call → Shared → Call → Shared → Prop
  | same {call call' σ σ'} : σ'.db = σ.db → σ'.ledger = σ.ledger → DbStep me call σ call' σ'
  | setPath {p db σ} : p.pos = .set → σ.db.setDatabasePath p.path = .ok db →
      DbStep me (.setDatabasePath p) σ (.setDatabasePath { p with pos := .returned (.ok ()) })
        { σ with db := db }
  | countError {u ch e σ σ'} : u.pos = .count →
      σ.count me u.path u.walletName ch = (.error e, σ') →
      DbStep me (.unlockWallet u) σ (.unlockWallet (u.to (.returned none (.error e)))) σ'
  | count {u ch g σ σ'} : u.pos = .count → σ.count me u.path u.walletName ch = (.ok g, σ') →
      DbStep me (.unlockWallet u) σ (.unlockWallet (u.to (.gate g))) σ'
  | release {l l' zero σ σ'} : l.pos = .release → σ.releaseSession me l.walletName = (zero, σ') →
      l' = { l with pos := l.afterRelease σ zero } → DbStep me (.lockWallet l) σ (.lockWallet l') σ'
  | giveBack {u u' g e zero σ σ'} : u.pos = .failed g e →
      σ.releaseFailed me u.walletName g = (zero, σ') → u' = u.to (.afterGiveBack g e zero) →
      DbStep me (.unlockWallet u) σ (.unlockWallet u') σ'
  | remove {call call' w σ} : call.removes = some w →
      DbStep me call σ call' (σ.removeSession me w)

variable {w : WalletName} {me : CallId} {ch : Choice} {σ σ' : Shared}

/-! ## Every step is one of them -/

theorem GateHeldAt.next_db {h : GateHeldAt} {r : GateHeldAt ⊕ Bool} (hnext : h.next w σ = (r, σ')) :
    σ'.db = σ.db ∧ σ'.ledger = σ.ledger := by
  cases h with
  | readState =>
    simp only [GateHeldAt.next] at hnext
    split at hnext <;> obtain ⟨-, rfl⟩ := Prod.mk.inj hnext <;> exact ⟨rfl, rfl⟩
  | lockSession =>
    obtain ⟨-, rfl⟩ := Prod.mk.inj hnext
    exact ⟨rfl, rfl⟩
  | cancelScans =>
    obtain ⟨-, rfl⟩ := Prod.mk.inj hnext
    rw [Shared.cancelWalletScans_eq]
    exact ⟨rfl, rfl⟩

theorem GateAt.next_db {g : GateAt} {r : GateAt ⊕ Bool} (hnext : g.next me w σ = some (r, σ')) :
    σ'.db = σ.db ∧ σ'.ledger = σ.ledger := by
  cases g with
  | wait =>
    obtain ⟨σ₁, hhold, h⟩ := Option.map_eq_some_iff.mp hnext
    obtain ⟨-, rfl⟩ := Shared.holdGate_eq_some hhold
    cases h
    exact ⟨rfl, rfl⟩
  | held h =>
    simp only [GateAt.next] at hnext
    split at hnext <;> cases hnext <;> exact GateHeldAt.next_db ‹_›
  | leave locked =>
    cases hnext
    exact ⟨rfl, rfl⟩

theorem StopAt.next_db {s : StopAt} {r : StopAt ⊕ Unit} (h : s.next w σ = some (r, σ')) :
    σ'.db = σ.db ∧ σ'.ledger = σ.ledger := by
  obtain ⟨scans, tokens, rfl⟩ := StopAt.next_frame h
  exact ⟨rfl, rfl⟩

/-- After its state step `lock_wallet_everywhere` leaves `DB_STATE` alone. -/
theorem EverywhereAt.next_db {e : EverywhereAt} {r : EverywhereAt ⊕ Unit}
    (hnext : e.next me w σ = some (r, σ')) :
    (e = .remove ∧ σ' = σ.removeSession me w) ∨ (σ'.db = σ.db ∧ σ'.ledger = σ.ledger) := by
  cases e with
  | remove =>
    cases hnext
    exact Or.inl ⟨rfl, rfl⟩
  | gate file g =>
    simp only [EverywhereAt.next] at hnext
    split at hnext <;> cases hnext <;> exact Or.inr (GateAt.next_db ‹_›)
  | stop s =>
    simp only [EverywhereAt.next] at hnext
    split at hnext <;> cases hnext <;> exact Or.inr (StopAt.next_db ‹_›)

theorem LockWallet.dbStep {l l' : LockWallet} (h : l.next me σ = some (l', σ')) :
    DbStep me (.lockWallet l) σ (.lockWallet l') σ' := by
  obtain ⟨v, holder, pos⟩ := l
  unfold next at h
  cases pos with
  | release =>
    dsimp only at h
    split at h <;> cases h
    · exact .release rfl ‹_› rfl
    · exact .release rfl ‹_› rfl
  | gate file g =>
    dsimp only at h
    split at h <;> cases h
    all_goals
      obtain ⟨hdb, hledger⟩ := GateAt.next_db ‹_›
      exact .same hdb hledger
  | stop s =>
    dsimp only at h
    split at h <;> cases h
    all_goals
      obtain ⟨hdb, hledger⟩ := StopAt.next_db ‹_›
      exact .same hdb hledger
  | returned r => cases h

theorem ForceLockWallet.dbStep {f f' : ForceLockWallet} (h : f.next me σ = some (f', σ')) :
    DbStep me (.forceLockWallet f) σ (.forceLockWallet f') σ' := by
  obtain ⟨v, pos⟩ := f
  unfold next at h
  cases pos with
  | everywhere e =>
    dsimp only at h
    split at h <;> cases h
    all_goals
      rcases EverywhereAt.next_db ‹_› with ⟨rfl, rfl⟩ | ⟨hdb, hledger⟩
      · exact .remove (by simp [Call.removes])
      · exact .same hdb hledger
  | returned => cases h

theorem WithWalletLocked.dbStep {m m' : WithWalletLocked} (h : m.next me ch σ = some (m', σ')) :
    DbStep me (.withWalletLocked m) σ (.withWalletLocked m') σ' := by
  obtain ⟨v, change, pos⟩ := m
  unfold next at h
  cases pos with
  | «begin» =>
    dsimp only at h
    split at h
    · cases h
      exact .same rfl rfl
    · obtain ⟨σ₁, hbegin, h⟩ := Option.map_eq_some_iff.mp h
      obtain ⟨-, rfl⟩ := Shared.beginMaintenance_eq_some hbegin
      cases h
      exact .same rfl rfl
  | conn =>
    dsimp only at h
    split at h <;> cases h <;> exact .same rfl rfl
  | lockBefore file e =>
    dsimp only at h
    split at h <;> cases h
    all_goals
      rcases EverywhereAt.next_db ‹_› with ⟨rfl, rfl⟩ | ⟨hdb, hledger⟩
      · exact .remove rfl
      · exact .same hdb hledger
  | change file =>
    dsimp only at h
    split at h <;> cases h <;> exact .same rfl rfl
  | settle file changed =>
    dsimp only at h
    split at h <;> cases h <;> exact .same rfl rfl
  | lockAfter e changed =>
    dsimp only at h
    split at h <;> cases h
    all_goals
      rcases EverywhereAt.next_db ‹_› with ⟨rfl, rfl⟩ | ⟨hdb, hledger⟩
      · exact .remove rfl
      · exact .same hdb hledger
  | leave r =>
    cases h
    exact .same rfl rfl
  | returned r => cases h

theorem ChangePassphrase.next_db {p p' : ChangePassphrase} (h : p.next me ch σ = some (p', σ')) :
    σ'.db = σ.db ∧ σ'.ledger = σ.ledger := by
  unfold next at h
  dsimp only at h
  split at h
  case h_3 =>
    obtain ⟨σ₁, hbegin, h⟩ := Option.map_eq_some_iff.mp h
    obtain ⟨-, rfl⟩ := Shared.beginMaintenance_eq_some hbegin
    cases h
    exact ⟨rfl, rfl⟩
  case h_4 =>
    split at h <;> cases h <;> exact StopAt.next_db ‹_›
  all_goals (repeat' split at h) <;> cases h <;> exact ⟨rfl, rfl⟩

theorem UnlockWallet.dbStep {u u' : UnlockWallet} (h : u.next me ch σ = some (u', σ')) :
    DbStep me (.unlockWallet u) σ (.unlockWallet u') σ' := by
  obtain ⟨path, v, passphrase, pos⟩ := u
  unfold next at h
  cases pos with
  | count =>
    dsimp only at h
    split at h <;> cases h
    · exact .countError rfl ‹_›
    · exact .count rfl ‹_›
  | gate g =>
    obtain ⟨σ₁, hhold, h⟩ := Option.map_eq_some_iff.mp h
    obtain ⟨-, rfl⟩ := Shared.holdGate_eq_some hhold
    cases h
    exact .same rfl rfl
  | isUnlocked g | verify g | isUnlockedAgain g | unlock g | confirm g =>
    dsimp only at h
    (repeat' split at h) <;> cases h <;> exact .same rfl rfl
  | failed g e =>
    dsimp only at h
    split at h <;> cases h
    · exact .giveBack rfl ‹_› rfl
    · exact .giveBack rfl ‹_› rfl
  | lockHeld hh g e =>
    dsimp only at h
    split at h <;> cases h
    all_goals
      obtain ⟨hdb, hledger⟩ := GateHeldAt.next_db ‹_›
      exact .same hdb hledger
  | leave g r =>
    cases h
    exact .same rfl rfl
  | returned g r => cases h

/-- Every step of the bridge changes `DB_STATE` in one of these ways. -/
theorem Call.dbStep {call call' : Call} (h : call.next me ch σ = some (call', σ')) :
    DbStep me call σ call' σ' := by
  cases call <;> obtain ⟨r, hr, h⟩ := Option.map_eq_some_iff.mp h <;> cases h
  case setDatabasePath p =>
    obtain ⟨path, pos⟩ := p
    unfold SetDatabasePath.next at hr
    cases pos with
    | set =>
      dsimp only at hr
      split at hr <;> simp only [Option.some.injEq] at hr <;> rw [← hr]
      · exact .same rfl rfl
      · exact .setPath rfl ‹_›
    | returned r => cases hr
  case unlockWallet u => exact UnlockWallet.dbStep hr
  case lockWallet l => exact LockWallet.dbStep hr
  case forceLockWallet f => exact ForceLockWallet.dbStep hr
  case withWalletLocked m => exact WithWalletLocked.dbStep hr
  case changePassphrase p =>
    obtain ⟨hdb, hledger⟩ := ChangePassphrase.next_db hr
    exact .same hdb hledger
  case abandonSend a =>
    obtain ⟨scans, tokens, maintenance, hσ⟩ := AbandonSend.next_frame hr
    rw [hσ]
    exact .same rfl rfl
  case scan s =>
    obtain ⟨files, scans, tokens, maintenance, hσ⟩ := Scan.next_frame hr
    rw [hσ]
    exact .same rfl rfl
  case stopScan s =>
    obtain ⟨scans, tokens, hσ, -⟩ := StopScan.next_frame hr
    rw [hσ]
    exact .same rfl rfl
  case createScanHandle s =>
    obtain ⟨issued, scanId, hσ⟩ := CreateScanHandle.next_frame hr
    rw [hσ]
    exact .same rfl rfl
  case sendTransaction s =>
    obtain ⟨files, network, hσ⟩ := SendTransaction.next_frame hr
    rw [hσ]
    exact .same rfl rfl
  case createWallet c =>
    obtain ⟨files, network, hσ⟩ := CreateWallet.next_frame hr
    rw [hσ]
    exact .same rfl rfl
  case getAddress c =>
    obtain ⟨files, network, hσ⟩ := GetAddress.next_frame hr
    rw [hσ]
    exact .same rfl rfl

/-! ## The pool -/

/-- The pool is open while any wallet is counted, and its path is the recorded one. -/
structure DbState.Coherent (db : DbState) : Prop where
  pool : Table.isEmpty db.sessions = false → db.openDatabase.isSome = true
  path : ∀ d, db.openDatabase = some d → db.path = some d.path

theorem DbState.Coherent.closePool {db : DbState} (h : Table.isEmpty db.sessions = true) :
    db.closePool.Coherent :=
  ⟨fun hne => by simp [h] at hne, fun _ hd => by cases hd⟩

theorem DbState.Coherent.removeSession {db : DbState} (h : db.Coherent) (w : WalletName) :
    (db.removeSession w).Coherent := by
  unfold DbState.removeSession
  dsimp only
  split
  · rename_i hclose
    simp only [Bool.and_eq_true] at hclose
    exact .closePool hclose.2
  · rename_i hopen
    refine ⟨fun hne => h.pool ?_, h.path⟩
    obtain ⟨v, session, hv⟩ := (Table.isEmpty_eq_false_iff _).mp hne
    rw [Table.lookup_erase_eq] at hv
    split at hv
    · cases hv
    · exact (Table.isEmpty_eq_false_iff _).mpr ⟨v, session, hv⟩

theorem DbState.Coherent.releaseOne {db db' : DbState} {w : WalletName} {zero : Bool}
    (h : db.Coherent) (hrel : db.releaseOne w = (zero, db')) : db'.Coherent := by
  rcases DbState.releaseOne_cases hrel with ⟨-, -, rfl⟩ | ⟨session, rest, hs, -, -, -, rfl⟩ |
    ⟨session, -, -, -, rfl⟩
  · exact h
  · exact ⟨fun _ => h.pool ((Table.isEmpty_eq_false_iff _).mpr ⟨w, session, hs⟩), h.path⟩
  · exact h.removeSession w

theorem DbStep.coherent {call call' : Call} (h : DbStep me call σ call' σ') (hdb : σ.db.Coherent) :
    σ'.db.Coherent := by
  cases h with
  | same heq _ =>
    rw [heq]
    exact hdb
  | setPath _ hset =>
    unfold DbState.setDatabasePath at hset
    split at hset <;> cases hset
    rename_i hother
    refine ⟨hdb.pool, fun d hd => ?_⟩
    rw [DbState.eq_of_not_onOtherPath hother hd]
  | countError _ hcount =>
    obtain ⟨db, rfl, rfl | ⟨rfl, hempty⟩⟩ := Shared.count_error hcount
    · exact hdb
    · exact .closePool hempty
  | count _ hcount =>
    obtain ⟨db, files, rfl, hacq, -⟩ := Shared.count_ok hcount
    obtain ⟨-, rfl⟩ := Prod.mk.inj hacq
    refine ⟨fun _ => rfl, fun d hd => ?_⟩
    obtain rfl := Option.some.inj hd
    rfl
  | release _ hrel _ =>
    obtain ⟨db, hone, rfl⟩ := Shared.releaseSession_eq hrel
    exact hdb.releaseOne hone
  | giveBack _ hgive _ =>
    rcases Shared.releaseFailed_eq hgive with ⟨-, db, hone, rfl⟩ | ⟨-, -, rfl⟩
    · exact hdb.releaseOne hone
    · exact hdb
  | remove _ => exact hdb.removeSession _

theorem db_coherent {ok : Guard Shared Call} {s : World} (h : system.Reach ok s) :
    s.shared.db.Coherent := by
  refine h.invariant (I := fun s => s.shared.db.Coherent) ?_ ?_ ?_
  · rintro σ ⟨files, tariCommon, rfl⟩
    exact ⟨nofun, nofun⟩
  · intro s c l _ ih _ _ _
    exact ih
  · rintro s c l l' σ' _ ih _ _ ⟨ch, hstep⟩
    exact (Call.dbStep hstep).coherent ih

end CwTariWallet
