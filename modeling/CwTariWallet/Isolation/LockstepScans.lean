/-
# CwTariWallet.Isolation.LockstepScans -- scans take the steps they take without the others

As `Isolation.Lockstep`, for `start_scan` and `rescan`, `stop_scan` and `create_scan_handle`.  A scan of the
second run reads its own token, which is that of the first, and works under a handle id that stands for the
first's; `create_scan_handle` is where ids are made.
-/
import CwTariWallet.Isolation.Lockstep

namespace CwTariWallet

open Interleaving

variable {W : WalletName → Prop} {mine : CallId → Prop} {ρ : Renaming} {σ σ' τ : Shared}
variable {path : PathBuf} {tariCommon : TariCommon} {w : WalletName} {me : CallId} {ch : Choice}

/-- The same scan under another handle id, with another history of what it looked at. -/
def Scan.under (x : Scan) (j : Nat) (checked : Option (PathBuf × KeySession)) : Scan :=
  { x with handle := ⟨x.handle.walletName, j⟩, checked := checked }

/-- A failed delivery cancels the scan's token in both. -/
theorem Scan.receive_lockstep {x : Scan} {j : Nat} {checked : Option (PathBuf × KeySession)}
    (hag : σ.Agree W mine ρ τ) (event : ProcessingEvent) (accepts : Bool) :
    (x.receive me σ event accepts).2.Agree W mine ρ ((x.under j checked).receive me τ event accepts).2 := by
  unfold receive
  dsimp only [under]
  cases (x.forwarder.receive event accepts).2 with
  | true => exact { hag with tokens := hag.tokens.cancel me }
  | false => exact hag

theorem Scan.lockstep {x x' : Scan} {j : Nat} {checked : Option (PathBuf × KeySession)}
    (hag : σ.Agree W mine ρ τ) (hσ : σ.OnOne path tariCommon) (hτ : τ.OnOne path tariCommon)
    (hpath : σ.db.path = some path) (hpath' : τ.db.path = some path) (hw : W x.walletName)
    (hme : mine me) (hmine : ∀ d, x.pos.follows = some d → mine d)
    (hown : x.pos.stage ≠ .before → x.pos.stage ≠ .over → x.handle.walletName = x.walletName)
    (hhandle : x.handle.walletName = x.walletName → ρ.handle x.handle.id j)
    (hchecked : checked.map seenAt = x.checked.map seenAt) (hnext : x.next me ch σ = some (x', σ')) :
    ∃ checked' τ', (x.under j checked).next me ch τ = some (x'.under j checked', τ') ∧
      checked'.map seenAt = x'.checked.map seenAt ∧ σ'.Agree W mine ρ τ' := by
  have hconn : τ.getDbConnection ch = σ.getDbConnection ch := hσ.connection hτ hpath hpath' ch
  have htoken : τ.tokens me = σ.tokens me := hag.tokens me hme
  obtain ⟨⟨hwallet, id⟩, v, priority, continuous, rescanFrom, pos, dbPath,
    forwarder, checked₀, swept, rolledBack⟩ := x
  replace hw : W v := hw
  unfold next at hnext ⊢
  dsimp only [Scan.under] at hnext hown hhandle hchecked ⊢
  cases pos with
  | claim =>
    -- Under another wallet's handle it is refused in both, whatever the ids.
    by_cases hsame : hwallet = v
    · subst hsame
      simp only [ne_eq, not_true_eq_false, if_false] at hnext ⊢
      obtain ⟨r, a', hclaim⟩ : ∃ r a', σ.scans.claim ⟨hwallet, id⟩ = (r, a') := ⟨_, _, rfl⟩
      obtain ⟨b', hclaim', hscans⟩ := hag.scans.claim hag.handles (hhandle rfl) hw hclaim
      rw [hclaim] at hnext
      rw [hclaim']
      cases r <;> cases hnext
      · exact ⟨checked, _, rfl, hchecked, { hag with scans := hscans }⟩
      · exact ⟨checked, _, rfl, hchecked, hag⟩
      · exact ⟨checked, _, rfl, hchecked, { hag with scans := hscans }⟩
    · simp only [ne_eq, hsame, not_false_eq_true, if_true] at hnext ⊢
      cases hnext
      exact ⟨checked, τ, rfl, hchecked, hag⟩
  | dbPath =>
    dsimp only at hnext ⊢
    rw [hσ.getDbPath_eq hpath] at hnext
    rw [hτ.getDbPath_eq hpath']
    cases hnext
    exact ⟨checked, τ, rfl, hchecked, hag⟩
  | conn =>
    dsimp only at hnext ⊢
    rw [hconn]
    split at hnext <;> cases hnext <;> exact ⟨checked, τ, rfl, hchecked, hag⟩
  | account file =>
    dsimp only at hnext ⊢
    split at hnext
    · cases hnext
      exact ⟨checked, τ, rfl, hchecked, hag⟩
    rcases hag.account hw file with ⟨ha, hb⟩ | ⟨row, row', ha, hb, hlike⟩ <;> rw [ha] at hnext <;> rw [hb] <;>
      cases hnext <;> exact ⟨checked, τ, rfl, hchecked, hag⟩
  | check file =>
    dsimp only at hnext ⊢
    rw [hag.isUnlocked_eq hw]
    split at hnext
    · cases hnext
      exact ⟨checked, τ, rfl, hchecked, hag⟩
    · cases hnext
      exact ⟨checked, τ, rfl, hchecked, hag⟩
    · -- What it notes is the file of the key session, not which session it was.
      have hseen : ((τ.keys v).map fun k => (file, k)).map seenAt =
          ((σ.keys v).map fun k => (file, k)).map seenAt := by
        have hkeys := congrArg (Option.map fun f => (file, f)) (hag.keys v hw)
        simpa [Option.map_map, Function.comp_def, seenAt] using hkeys
      split at hnext <;> cases hnext <;> exact ⟨_, τ, rfl, hseen, hag⟩
  | maintenance =>
    obtain ⟨σ₁, hbegin, hnext⟩ := Option.map_eq_some_iff.mp hnext
    cases hnext
    obtain ⟨τ', hτ', hag'⟩ := hag.beginMaintenance hw hbegin
    exact ⟨checked, τ', by dsimp only; rw [hτ']; rfl, hchecked, hag'⟩
  | slot =>
    -- Past the claim the handle is the wallet's own, and its id is paired.
    obtain rfl : hwallet = v := hown nofun nofun
    have hlike : ScanController.Like mine ρ.handle ⟨id, priority, me⟩ ⟨j, priority, me⟩ :=
      ⟨hhandle rfl, rfl, hme⟩
    dsimp only at hnext ⊢
    obtain ⟨r, σ₁, henter⟩ : ∃ r σ₁, σ.enterSlot hwallet ⟨id, priority, me⟩ = (r, σ₁) := ⟨_, _, rfl⟩
    obtain ⟨τ', hτ', hag'⟩ := hag.enterSlot hw hlike henter
    rw [henter] at hnext
    rw [hτ']
    rcases r with e | _ | previous <;> cases hnext <;> exact ⟨checked, τ', rfl, hchecked, hag'⟩
  | dropMaintenance previous =>
    cases hnext
    exact ⟨checked, _, rfl, hchecked, hag.dropMaintenance v⟩
  | leaveMaintenance outcome =>
    cases hnext
    exact ⟨checked, _, rfl, hchecked, hag.dropMaintenance v⟩
  | waitPrevious previous =>
    have hprevious : τ.tokens previous = σ.tokens previous := hag.tokens previous (hmine previous rfl)
    dsimp only at hnext ⊢
    rw [hprevious]
    split at hnext <;> cases hnext
    rename_i hstopped
    exact ⟨checked, τ, if_pos hstopped, hchecked, hag⟩
  | firstCheck | secondCheck =>
    dsimp only at hnext ⊢
    rw [htoken]
    split at hnext <;> cases hnext
    · rename_i hcancelled
      exact ⟨checked, τ, if_pos hcancelled, hchecked, hag⟩
    · rename_i hlive
      exact ⟨checked, τ, if_neg hlive, hchecked, hag⟩
  | sweepConn =>
    dsimp only at hnext ⊢
    rw [hconn]
    split at hnext <;> cases hnext
    · cases rescanFrom <;> exact ⟨checked, τ, rfl, hchecked, hag⟩
    · exact ⟨checked, τ, rfl, hchecked, hag⟩
  | sweep file =>
    cases hnext
    cases rescanFrom <;> exact ⟨checked, _, rfl, hchecked, hag.releaseExpired file ch⟩
  | rollbackConn fromHeight =>
    dsimp only at hnext ⊢
    rw [hconn]
    split at hnext
    · cases hnext
      exact ⟨checked, τ, rfl, hchecked, hag⟩
    · split at hnext <;> cases hnext <;> exact ⟨checked, τ, rfl, hchecked, hag⟩
  | rollback file fromHeight =>
    dsimp only at hnext ⊢
    split at hnext
    · cases hnext
      exact ⟨checked, τ, rfl, hchecked, hag⟩
    rcases hag.account hw file with ⟨ha, hb⟩ | ⟨row, row', ha, hb, hlike⟩ <;> rw [ha] at hnext <;> rw [hb] <;>
      cases hnext <;> exact ⟨checked, τ, rfl, hchecked, hag⟩
  | running =>
    dsimp only at hnext ⊢
    split at hnext <;> cases hnext
    · exact ⟨checked, _, rfl, hchecked, Scan.receive_lockstep hag _ _⟩
    · exact ⟨checked, τ, rfl, hchecked, hag⟩
  | draining result =>
    dsimp only at hnext ⊢
    split at hnext
    · cases hnext
      exact ⟨checked, _, rfl, hchecked, Scan.receive_lockstep hag _ _⟩
    · split at hnext <;> cases hnext <;> exact ⟨checked, τ, rfl, hchecked, hag⟩
  | readSuperseded =>
    dsimp only at hnext ⊢
    rw [htoken]
    split at hnext <;> cases hnext
    · rename_i hsuperseded
      exact ⟨checked, τ, if_pos hsuperseded, hchecked, hag⟩
    · rename_i hnot
      exact ⟨checked, τ, if_neg hnot, hchecked, hag⟩
  | clear outcome =>
    obtain rfl : hwallet = v := hown nofun nofun
    have hscans := hag.scans.clearScanIfCurrent hag.handles (hhandle rfl) hw
    dsimp only at hnext ⊢
    split at hnext <;> cases hnext <;> exact ⟨checked, _, rfl, hchecked, { hag with scans := hscans }⟩
  | goneConn e =>
    dsimp only at hnext ⊢
    rw [hconn]
    split at hnext <;> cases hnext <;> exact ⟨checked, τ, rfl, hchecked, hag⟩
  | gone file e =>
    dsimp only at hnext ⊢
    rw [hag.isUnlocked_eq hw]
    split at hnext <;> cases hnext <;> exact ⟨checked, τ, rfl, hchecked, hag⟩
  | unstart outcome =>
    obtain rfl : hwallet = v := hown nofun nofun
    cases hnext
    exact ⟨checked, _, rfl, hchecked, { hag with scans := hag.scans.unstart hag.handles (hhandle rfl) }⟩
  | terminal outcome =>
    cases hnext
    exact ⟨checked, τ, rfl, hchecked, hag⟩
  | stop r =>
    cases hnext
    exact ⟨checked, _, rfl, hchecked, { hag with tokens := hag.tokens.stop me }⟩
  | returned r => cases hnext

def StopScan.under (s : StopScan) (j : Nat) : StopScan := { s with handle := ⟨s.handle.walletName, j⟩ }

theorem StopScan.lockstep {s s' : StopScan} {j : Nat} (hag : σ.Agree W mine ρ τ)
    (hw : W s.handle.walletName) (hmine : ∀ d, (Call.stopScan s).follows = some d → mine d)
    (hhandle : ρ.handle s.handle.id j) (hnext : s.next σ = some (s', σ')) :
    ∃ τ', (s.under j).next τ = some (s'.under j, τ') ∧ s'.handle = s.handle ∧ σ'.Agree W mine ρ τ' := by
  obtain ⟨⟨v, id⟩, pos⟩ := s
  replace hw : W v := hw
  unfold next at hnext ⊢
  dsimp only [StopScan.under]
  cases pos with
  | stop =>
    dsimp only at hnext ⊢
    obtain ⟨r, σ₁, hstop⟩ : ∃ r σ₁, σ.stopScan ⟨v, id⟩ = (r, σ₁) := ⟨_, _, rfl⟩
    obtain ⟨τ', hτ', hag'⟩ := hag.stopScan hw hhandle hstop
    rw [hstop] at hnext
    rw [hτ']
    cases r <;> cases hnext <;> exact ⟨τ', rfl, rfl, hag'⟩
  | wait scan =>
    have hscan : τ.tokens scan = σ.tokens scan := hag.tokens scan (hmine scan rfl)
    dsimp only at hnext ⊢
    rw [hscan]
    split at hnext <;> cases hnext
    rename_i hstopped
    exact ⟨τ, if_pos hstopped, rfl, hag⟩
  | returned => cases hnext

def CreateScanHandle.under (h : CreateScanHandle) (j : Nat) : CreateScanHandle :=
  { h with pos := h.pos.withId j }

theorem CreateScanHandle.lockstep {h h' : CreateScanHandle} {j : Nat} (hag : σ.Agree W mine ρ τ)
    (hσ : Shared.Agree.Unseen σ.scans σ.scanId) (hτ : Shared.Agree.Unseen τ.scans τ.scanId)
    (hid : ∀ i, (Call.createScanHandle h).fetchedId = some i → ρ.handle i j)
    (hnext : h.next σ = some (h', σ')) :
    ∃ ρ' j' τ', ρ.Grows (Call.createScanHandle h').fetchedId ρ' ∧ (h.under j).next τ = some (h'.under j', τ') ∧
      (∀ i, (Call.createScanHandle h').fetchedId = some i → ρ'.handle i j') ∧ σ'.Agree W mine ρ' τ' := by
  obtain ⟨v, pos⟩ := h
  unfold next at hnext ⊢
  dsimp only [CreateScanHandle.under]
  cases pos with
  | fetch =>
    cases hnext
    obtain ⟨ρ', hle, hpair, hag'⟩ := hag.mint hσ hτ
    refine ⟨ρ', τ.scanId, _, hle, rfl, ?_, hag'⟩
    intro i hi
    obtain rfl := Option.some.inj hi
    exact hpair
  | insert id =>
    cases hnext
    have hij := hid id rfl
    exact ⟨ρ, j, _, .refl _ ρ, rfl, hid, { hag with scans := hag.scans.issue hag.handles hij }⟩
  | returned handle => cases hnext

end CwTariWallet
