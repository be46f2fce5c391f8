/-
# CwTariWallet.Bridge.Effects -- what the shared steps change

Every operation of `Bridge.Shared` names the parts of the state it replaces; where that hides behind a
case split or a pair, it is said again here, so that no proof about the calls has to unfold one.
-/
import CwTariWallet.Bridge.System

namespace CwTariWallet

open Interleaving (CallId)

namespace Shared

variable {σ σ' : Shared} {w : WalletName} {me : CallId} {ch : Choice}

theorem holdGate_eq_some (h : σ.holdGate w me = some σ') :
    σ.gates w = none ∧ σ' = { σ with gates := Function.update σ.gates w (some me) } := by
  simpa [holdGate, eq_comm] using h

theorem beginMaintenance_eq_some (h : σ.beginMaintenance w me = some σ') :
    σ.maintenance w = none ∧
      σ' = { σ with maintenance := Function.update σ.maintenance w (some me) } := by
  simpa [beginMaintenance, eq_comm] using h

/-- A count that fails at most closes a pool nobody counts. -/
theorem count_error {path : PathBuf} {e : BridgeError}
    (h : σ.count me path w ch = (.error e, σ')) :
    ∃ db, σ' = { σ with db := db } ∧
      (db = σ.db ∨ db = σ.db.closePool ∧ Table.isEmpty σ.db.sessions = true) := by
  unfold count at h
  split at h
  · rename_i db hcount
    obtain ⟨-, rfl⟩ := Prod.mk.inj h
    exact ⟨db, rfl, DbState.count_error hcount⟩
  · cases (Prod.mk.inj h).1

/-- A count that succeeds is made on the path, with its pool open. -/
theorem count_ok {path : PathBuf} {g : Nat} (h : σ.count me path w ch = (.ok g, σ')) :
    ∃ db files, σ' = { σ with
        db := db
        files := files
        ledger := σ.note (some g) fun l => { l with counted := me :: l.counted } } ∧
      { σ.db with openDatabase := some ⟨path⟩, path := some path }.acquireSession w = (g, db) ∧
      (σ.db.openDatabase = some ⟨path⟩ ∨ σ.db.openDatabase = none ∨
        Table.isEmpty σ.db.sessions = true) := by
  unfold count at h
  split at h
  · cases (Prod.mk.inj h).1
  · rename_i g' opened db hcount
    obtain ⟨hg, rfl⟩ := Prod.mk.inj h
    obtain rfl := Except.ok.inj hg
    cases opened with
    | false => exact ⟨db, σ.files, rfl, DbState.count_ok hcount⟩
    | true => exact ⟨db, _, rfl, DbState.count_ok hcount⟩

theorem releaseSession_eq {zero : Bool} (h : σ.releaseSession me w = (zero, σ')) :
    ∃ db, σ.db.releaseOne w = (zero, db) ∧ σ' = { σ with
      db := db
      ledger := σ.note (σ.db.generation w) fun l => { l with locked := me :: l.locked } } := by
  obtain ⟨rfl, rfl⟩ := Prod.mk.inj h
  exact ⟨_, rfl, rfl⟩

/-- A failed unlock gives its count back, or finds it gone. -/
theorem releaseFailed_eq {g : Nat} {zero : Bool} (h : σ.releaseFailed me w g = (zero, σ')) :
    (σ.db.generation w = some g ∧ ∃ db, σ.db.releaseOne w = (zero, db) ∧ σ' = { σ with
        db := db
        ledger := σ.note (some g) fun l => { l with givenBack := me :: l.givenBack } }) ∨
      (σ.db.generation w ≠ some g ∧ zero = false ∧ σ' = σ) := by
  unfold releaseFailed DbState.releaseFailed at h
  by_cases hcounted : σ.db.stillCounted w g = true
  · left
    simp only [hcounted, if_true] at h
    obtain ⟨rfl, rfl⟩ := Prod.mk.inj h
    exact ⟨DbState.stillCounted_iff.mp hcounted, _, rfl, rfl⟩
  · right
    simp only [hcounted] at h
    obtain ⟨rfl, rfl⟩ := Prod.mk.inj h
    exact ⟨fun hg => hcounted (DbState.stillCounted_iff.mpr hg), rfl, rfl⟩

/-- A scan that is let past its wait leaves `starting`, and takes the slot if the priority rules let
it. -/
theorem enterSlot_eq {controller : ScanController}
    {r : Except WalletError (Option (Option CallId))} (h : σ.enterSlot w controller = (r, σ')) :
    (r = .ok none ∧ σ' = σ ∧ σ.scans.starting.lookup controller.id = none) ∨
      (∃ e, r = .error e ∧ σ' = { σ with scans := σ.scans.unstart controller.id }) ∨
      ∃ wallet, σ.scans.starting.lookup controller.id = some wallet ∧
        r = .ok (some ((σ.scans.running.lookup w).map (·.scan))) ∧
        σ' = { σ with
          scans := { σ.scans.unstart controller.id with
            running := σ.scans.running.insert w controller }
          tokens := (σ.scans.running.lookup w).elim σ.tokens fun old => σ.tokens.replace old.scan } := by
  simp only [enterSlot] at h
  split at h
  · rename_i hnone
    obtain ⟨rfl, rfl⟩ := Prod.mk.inj h
    exact Or.inl ⟨rfl, rfl, Option.isNone_iff_eq_none.mp hnone⟩
  · rename_i hsome
    obtain ⟨wallet, hwallet⟩ := Option.ne_none_iff_exists'.mp fun hnone =>
      hsome (Option.isNone_iff_eq_none.mpr hnone)
    right
    split at h <;> obtain ⟨rfl, rfl⟩ := Prod.mk.inj h
    · exact Or.inl ⟨_, rfl, rfl⟩
    · rename_i htake
      obtain ⟨rfl, rfl, rfl⟩ := ScanState.takeSlot_ok htake
      exact Or.inr ⟨wallet, hwallet, rfl, rfl⟩

theorem cancelWalletScans_eq :
    σ.cancelWalletScans w = ((σ.scans.running.lookup w).map (·.scan), { σ with
      scans := { σ.scans with
        starting := Table.retain (fun _ wallet => decide (wallet ≠ w)) σ.scans.starting }
      tokens := (σ.scans.running.lookup w).elim σ.tokens fun c => σ.tokens.cancel c.scan }) := by
  simp only [cancelWalletScans, ScanState.cancelWalletScans_eq]

/-- `stop_scan` never touches a slot, puts no handle up, and cancels at most one token. -/
theorem stopScan_eq {handle : ScanHandle} {waitFor : Option CallId}
    (h : σ.stopScan handle = (waitFor, σ')) :
    ∃ scans tokens, σ' = { σ with scans := scans, tokens := tokens } ∧
      scans.running = σ.scans.running ∧ (∀ id ∈ scans.issued, id ∈ σ.scans.issued) ∧
      (tokens = σ.tokens ∨ ∃ c, tokens = σ.tokens.cancel c) := by
  obtain ⟨-, rfl⟩ := Prod.mk.inj h
  exact ⟨_, _, rfl, ScanState.stopScan_running rfl⟩

/-- `stop_scan` starts nothing. -/
theorem stopScan_starting {handle : ScanHandle} {waitFor : Option CallId}
    (h : σ.stopScan handle = (waitFor, σ')) {id : Nat} {wallet : WalletName}
    (hid : σ'.scans.starting.lookup id = some wallet) :
    σ.scans.starting.lookup id = some wallet := by
  obtain ⟨-, rfl⟩ := Prod.mk.inj h
  exact ScanState.stopScan_starting rfl hid

/-- What holds of an output after a file was replaced held before, if the new contents keep it. -/
theorem lockedBy_of_setFile {path file : PathBuf} {db : WalletDatabase} {o : OutputId} {row : RowId}
    (hdb : db.lockedBy o = some row → (σ.files path).lockedBy o = some row)
    (h : ((σ.setFile path db).files file).lockedBy o = some row) :
    (σ.files file).lockedBy o = some row := by
  unfold setFile at h
  by_cases hf : file = path
  · subst hf
    simp only [Function.update_self] at h
    exact hdb h
  · simpa [Function.update_of_ne hf] using h

end Shared

/-! ## What the calls leave alone -/

variable {ch : Choice} {me : CallId} {σ σ' : Shared}

theorem Shared.applyNetwork_frame {network : Network} {r : Except BridgeError Unit}
    (h : σ.applyNetwork network = (r, σ')) : ∃ network, σ' = { σ with network := network } := by
  unfold applyNetwork at h
  (repeat' split at h) <;> cases h <;> exact ⟨_, rfl⟩

/-- A send touches the files and the process network, nothing else. -/
theorem SendTransaction.next_frame {s s' : SendTransaction} (h : s.next ch σ = some (s', σ')) :
    ∃ files network, σ' = { σ with files := files, network := network } := by
  unfold next at h
  dsimp only at h
  split at h
  case h_3 =>
    split at h <;> cases h <;> obtain ⟨network, rfl⟩ := Shared.applyNetwork_frame ‹_› <;>
      exact ⟨_, _, rfl⟩
  all_goals (repeat' split at h) <;> cases h <;> exact ⟨_, _, rfl⟩

/-- Nor does a new account touch more. -/
theorem CreateWallet.next_frame {c c' : CreateWallet} (h : c.next ch σ = some (c', σ')) :
    ∃ files network, σ' = { σ with files := files, network := network } := by
  unfold next at h
  split at h
  case h_1 =>
    split at h <;> cases h <;> obtain ⟨network, rfl⟩ := Shared.applyNetwork_frame ‹_› <;>
      exact ⟨_, _, rfl⟩
  all_goals (repeat' split at h) <;> cases h <;> exact ⟨_, _, rfl⟩

/-- `get_address` changes nothing but the process network. -/
theorem GetAddress.next_frame {a a' : GetAddress} (h : a.next ch σ = some (a', σ')) :
    ∃ files network, σ' = { σ with files := files, network := network } := by
  unfold next at h
  dsimp only at h
  split at h
  case h_1 =>
    split at h <;> cases h <;> obtain ⟨network, rfl⟩ := Shared.applyNetwork_frame ‹_› <;>
      exact ⟨_, _, rfl⟩
  all_goals (repeat' split at h) <;> cases h <;> exact ⟨_, _, rfl⟩

/-- `set_database_path` records a path, nothing else. -/
theorem SetDatabasePath.next_frame {p p' : SetDatabasePath} (h : p.next σ = some (p', σ')) :
    ∃ path, σ' = { σ with db := { σ.db with path := path } } := by
  unfold next at h
  split at h
  · split at h <;> cases h
    · exact ⟨_, rfl⟩
    · rename_i hset
      unfold DbState.setDatabasePath at hset
      split at hset <;> cases hset
      exact ⟨_, rfl⟩
  · cases h

/-- `stop_scan` touches the scans and their tokens. -/
theorem StopScan.next_frame {s s' : StopScan} (h : s.next σ = some (s', σ')) :
    ∃ scans tokens, σ' = { σ with scans := scans, tokens := tokens } ∧
      scans.running = σ.scans.running ∧ (∀ id ∈ scans.issued, id ∈ σ.scans.issued) ∧
      (tokens = σ.tokens ∨ ∃ c, tokens = σ.tokens.cancel c) := by
  unfold next at h
  split at h
  · split at h <;> cases h <;> exact Shared.stopScan_eq ‹_›
  · split at h <;> cases h
    exact ⟨_, _, rfl, rfl, fun _ hid => hid, Or.inl rfl⟩
  · cases h

/-- `create_scan_handle` touches the issued handles. -/
theorem CreateScanHandle.next_frame {s s' : CreateScanHandle} (h : s.next σ = some (s', σ')) :
    ∃ issued scanId, σ' = { σ with
      scans := { σ.scans with issued := issued }, scanId := scanId } := by
  unfold next at h
  split at h <;> cases h <;> exact ⟨_, _, rfl⟩

/-- A step of `stop_wallet_scans` waits, or cancels the wallet's scans. -/
theorem StopAt.next_eq {w : WalletName} {s : StopAt} {r : StopAt ⊕ Unit}
    (h : s.next w σ = some (r, σ')) :
    (s = .cancel ∧ σ' = (σ.cancelWalletScans w).2 ∧
        r = ((σ.scans.running.lookup w).map (·.scan)).elim (.inr ()) (fun c => .inl (.wait c))) ∨
      ∃ c, s = .wait c ∧ (σ.tokens c).stopped = true ∧ σ' = σ ∧ r = .inr () := by
  cases s with
  | cancel =>
    left
    simp only [StopAt.next, Shared.cancelWalletScans_eq] at h
    cases hrun : σ.scans.running.lookup w <;> simp [hrun] at h <;> obtain ⟨rfl, rfl⟩ := h <;>
      simp [Shared.cancelWalletScans_eq, hrun]
  | wait c =>
    right
    simp only [StopAt.next, Option.ite_none_right_eq_some, Option.some.injEq, Prod.mk.injEq] at h
    exact ⟨c, rfl, h.1, h.2.2.symm, h.2.1.symm⟩

/-- `stop_wallet_scans` touches the scans and their tokens. -/
theorem StopAt.next_frame {w : WalletName} {s : StopAt} {r : StopAt ⊕ Unit}
    (h : s.next w σ = some (r, σ')) : ∃ scans tokens, σ' = { σ with scans := scans, tokens := tokens } := by
  rcases StopAt.next_eq h with ⟨-, rfl, -⟩ | ⟨c, -, -, rfl, -⟩
  · rw [Shared.cancelWalletScans_eq]
    exact ⟨_, _, rfl⟩
  · exact ⟨_, _, rfl⟩

/-- `abandon_send` touches the scans and the maintenance lock. -/
theorem AbandonSend.next_frame {a a' : AbandonSend} (h : a.next me ch σ = some (a', σ')) :
    ∃ scans tokens maintenance,
      σ' = { σ with scans := scans, tokens := tokens, maintenance := maintenance } := by
  unfold next at h
  split at h
  case h_3 =>
    obtain ⟨σ₁, hbegin, h⟩ := Option.map_eq_some_iff.mp h
    obtain ⟨-, rfl⟩ := Shared.beginMaintenance_eq_some hbegin
    cases h
    exact ⟨_, _, _, rfl⟩
  case h_6 =>
    split at h <;> cases h
    all_goals
      obtain ⟨scans, tokens, rfl⟩ := StopAt.next_frame ‹_›
      exact ⟨_, _, _, rfl⟩
  all_goals
    (repeat' split at h) <;> cases h <;> exact ⟨_, _, _, rfl⟩

/-- A scan touches its file, the scans and the maintenance lock. -/
theorem Scan.next_frame {s s' : Scan} (h : s.next me ch σ = some (s', σ')) :
    ∃ files scans tokens maintenance, σ' = { σ with
      files := files, scans := scans, tokens := tokens, maintenance := maintenance } := by
  unfold next at h
  dsimp only at h
  split at h
  case h_6 =>
    obtain ⟨σ₁, hbegin, h⟩ := Option.map_eq_some_iff.mp h
    obtain ⟨-, rfl⟩ := Shared.beginMaintenance_eq_some hbegin
    cases h
    exact ⟨_, _, _, _, rfl⟩
  case h_7 =>
    split at h <;> cases h
    all_goals
      rcases Shared.enterSlot_eq ‹_› with ⟨-, rfl, -⟩ | ⟨e, -, rfl⟩ | ⟨wallet, -, -, rfl⟩ <;>
        exact ⟨_, _, _, _, rfl⟩
  all_goals
    (repeat' split at h) <;> cases h <;> exact ⟨_, _, _, _, rfl⟩

end CwTariWallet
