/-
# CwTariWallet.Isolation.Agreement -- two runs that agree on some wallets

The two states as wholes.  For the wallets in `W` both have the same open counts, key sessions, gates,
maintenance locks, accounts, slots and tokens, up to a `Renaming` of generations, handle ids and account
ids (`Shared.Agree`).  Whatever a call on a wallet in `W` does to the one it does to the other, and it gets
the same answer.
-/
import CwTariWallet.Bridge.Effects
import CwTariWallet.Isolation.Calls
import CwTariWallet.Isolation.Files
import CwTariWallet.Isolation.Scans

namespace CwTariWallet

open Interleaving

/-- Which generations, handle ids and account ids of the two runs stand for one another. -/
structure Renaming where
  generation : Nat → Nat → Prop
  handle : Nat → Nat → Prop
  account : PathBuf → AccountId → AccountId → Prop

/-- A renaming grows by what both runs make. -/
instance : Preorder Renaming where
  le ρ ρ' := (∀ i j, ρ.generation i j → ρ'.generation i j) ∧ (∀ i j, ρ.handle i j → ρ'.handle i j) ∧
    ∀ file i j, ρ.account file i j → ρ'.account file i j
  le_refl _ := ⟨fun _ _ h => h, fun _ _ h => h, fun _ _ _ h => h⟩
  le_trans _ _ _ h h' := ⟨fun i j hij => h'.1 i j (h.1 i j hij), fun i j hij => h'.2.1 i j (h.2.1 i j hij),
    fun file i j hij => h'.2.2 file i j (h.2.2 file i j hij)⟩

/-- `ρ'` is `ρ` with what a step made; of handle ids that is `made`, if any. -/
structure Renaming.Grows (made : Option Nat) (ρ ρ' : Renaming) : Prop where
  le : ρ ≤ ρ'
  handle : ∀ i j, ρ'.handle i j → ρ.handle i j ∨ made = some i

theorem Renaming.Grows.refl (made : Option Nat) (ρ : Renaming) : ρ.Grows made ρ :=
  ⟨le_refl ρ, fun _ _ => Or.inl⟩

variable {W : WalletName → Prop} {mine : CallId → Prop} {ρ ρ' : Renaming} {σ σ' τ τ' : Shared}
variable {path : PathBuf} {tariCommon : TariCommon} {w : WalletName} {me : CallId} {ch : Choice}

namespace Shared

structure Agree (W : WalletName → Prop) (mine : CallId → Prop) (ρ : Renaming) (σ τ : Shared) : Prop where
  db : σ.db.Agree W ρ.generation τ.db
  gates : ∀ w, W w → τ.gates w = σ.gates w
  keys : ∀ w, W w → (τ.keys w).map (·.file) = (σ.keys w).map (·.file)
  files : ∀ file, (σ.files file).Agree W (ρ.account file) (τ.files file)
  scans : σ.scans.Agree W mine ρ.handle τ.scans
  handles : Pairing ρ.handle σ.scanId τ.scanId
  tokens : σ.tokens.Agree mine τ.tokens
  maintenance : ∀ w, W w → τ.maintenance w = σ.maintenance w

namespace Agree

/-- What agrees on `W` agrees after one update of both. -/
theorem update {α : Type} {f g : WalletName → α} (h : ∀ v, W v → g v = f v) (w : WalletName) (a : α) :
    ∀ v, W v → Function.update g w a v = Function.update f w a v := by
  intro v hv
  by_cases hvw : v = w
  · subst hvw
    simp
  · simp [hvw, h v hv]

/-! ## What a call is told -/

theorem live_eq (h : σ.Agree W mine ρ τ) (hw : W w) : (τ.keys w).isSome = (σ.keys w).isSome := by
  have hkeys := congrArg Option.isSome (h.keys w hw)
  simpa using hkeys

theorem seen_eq (h : σ.Agree W mine ρ τ) (hw : W w) (file : PathBuf) (foreign : Bool) :
    τ.keys.isUnlocked file w foreign = σ.keys.isUnlocked file w foreign := by
  have hkeys := h.keys w hw
  unfold KeySessions.isUnlocked
  cases hσ : σ.keys w with
  | none =>
    rw [hσ, Option.map_none, Option.map_eq_none_iff] at hkeys
    rw [hkeys]
  | some k =>
    rw [hσ, Option.map_some] at hkeys
    obtain ⟨k', hτ, hfile⟩ := Option.map_eq_some_iff.mp hkeys
    rw [hτ]
    dsimp only
    rw [hfile]

theorem isUnlocked_eq (h : σ.Agree W mine ρ τ) (hw : W w) (file : PathBuf) (ch : Choice) :
    τ.isUnlocked file w ch = σ.isUnlocked file w ch := by
  unfold Shared.isUnlocked
  rw [h.seen_eq hw]

/-- A name has an account in both files or in neither. -/
theorem account (h : σ.Agree W mine ρ τ) (hw : W w) (file : PathBuf) :
    ((σ.files file).getAccountByName w = none ∧ (τ.files file).getAccountByName w = none) ∨
      ∃ row row', (σ.files file).getAccountByName w = some row ∧
        (τ.files file).getAccountByName w = some row' ∧ row.Like (ρ.account file) row' := by
  have hrel := (h.files file).accounts w hw
  cases ha : (σ.files file).getAccountByName w <;> cases hb : (τ.files file).getAccountByName w <;>
    rw [ha, hb] at hrel <;> cases hrel
  · exact Or.inl ⟨rfl, rfl⟩
  · exact Or.inr ⟨_, _, rfl, rfl, by assumption⟩

theorem entryFile_eq (h : σ.Agree W mine ρ τ) (hw : W w) (hσ : σ.OnOne path tariCommon)
    (hτ : τ.OnOne path tariCommon) : τ.entryFile w = σ.entryFile w := by
  -- While the wallet is counted the pool is open, and then on the one file.
  have pool {db : DbState} (hdb : db.OnFile path) (hcounted : (db.sessions.lookup w).isSome = true) :
      db.openDatabase.map (·.path) = some path := by
    cases hopen : db.openDatabase with
    | none =>
      have hempty := (Table.isEmpty_iff _).mp (hdb.counted.mp hopen) w
      rw [hempty] at hcounted
      cases hcounted
    | some d =>
      rw [hdb.pool d hopen]
      rfl
  unfold Shared.entryFile
  rw [h.db.isSome_eq hw]
  split
  · rename_i hcounted
    rw [pool hσ.db hcounted, pool hτ.db (by rw [h.db.isSome_eq hw]; exact hcounted)]
  · rfl

/-! ## What a call does -/

theorem holdGate (h : σ.Agree W mine ρ τ) (hw : W w) (hhold : σ.holdGate w me = some σ') :
    ∃ τ', τ.holdGate w me = some τ' ∧ σ'.Agree W mine ρ τ' := by
  obtain ⟨hfree, rfl⟩ := Shared.holdGate_eq_some hhold
  have hfree' : τ.gates w = none := (h.gates w hw).trans hfree
  exact ⟨_, if_pos hfree', { h with gates := update h.gates w (some me) }⟩

theorem dropGate (h : σ.Agree W mine ρ τ) (w : WalletName) :
    (σ.dropGate w).Agree W mine ρ (τ.dropGate w) :=
  { h with gates := update h.gates w none }

theorem beginMaintenance (h : σ.Agree W mine ρ τ) (hw : W w)
    (hbegin : σ.beginMaintenance w me = some σ') :
    ∃ τ', τ.beginMaintenance w me = some τ' ∧ σ'.Agree W mine ρ τ' := by
  obtain ⟨hfree, rfl⟩ := Shared.beginMaintenance_eq_some hbegin
  have hfree' : τ.maintenance w = none := (h.maintenance w hw).trans hfree
  exact ⟨_, if_pos hfree', { h with maintenance := update h.maintenance w (some me) }⟩

theorem dropMaintenance (h : σ.Agree W mine ρ τ) (w : WalletName) :
    (σ.dropMaintenance w).Agree W mine ρ (τ.dropMaintenance w) :=
  { h with maintenance := update h.maintenance w none }

theorem lockKeys (h : σ.Agree W mine ρ τ) (w : WalletName) :
    ({ σ with keys := σ.keys.lock w } : Shared).Agree W mine ρ { τ with keys := τ.keys.lock w } := by
  refine { h with keys := fun v hv => ?_ }
  by_cases hvw : v = w
  · subst hvw
    simp
  · simp only [KeySessions.lock_ne _ hvw]
    exact h.keys v hv

theorem setFile (h : σ.Agree W mine ρ τ) {file : PathBuf} {a b : WalletDatabase}
    (hab : a.Agree W (ρ.account file) b) :
    (σ.setFile file a).Agree W mine ρ (τ.setFile file b) := by
  refine { h with files := fun f => ?_ }
  unfold Shared.setFile
  by_cases hf : f = file
  · subst hf
    simpa using hab
  · simpa [hf] using h.files f

theorem releaseExpired (h : σ.Agree W mine ρ τ) (file : PathBuf) (ch : Choice) :
    (σ.releaseExpired file ch).Agree W mine ρ (τ.releaseExpired file ch) := by
  unfold Shared.releaseExpired
  apply h.setFile
  cases ch.dbError with
  | some e => exact h.files file
  | none => exact ((h.files file).releaseLeft _).releaseRight _

/-- The second state sweeps a file of its own. -/
theorem releaseExpiredRight (h : σ.Agree W mine ρ τ) (file : PathBuf) (ch : Choice) :
    σ.Agree W mine ρ (τ.releaseExpired file ch) := by
  refine { h with files := fun f => ?_ }
  unfold Shared.releaseExpired Shared.setFile
  by_cases hf : f = file
  · subst hf
    cases ch.dbError with
    | some e => simpa using h.files f
    | none => simpa using (h.files f).releaseRight _
  · simpa [hf] using h.files f

theorem cancelWalletScans (h : σ.Agree W mine ρ τ) (hw : W w) {waitFor : Option CallId}
    (hcancel : σ.cancelWalletScans w = (waitFor, σ')) :
    ∃ τ', τ.cancelWalletScans w = (waitFor, τ') ∧ σ'.Agree W mine ρ τ' := by
  obtain ⟨r, a', s', ha⟩ : ∃ r a' s', σ.scans.cancelWalletScans σ.tokens w = (r, a', s') :=
    ⟨_, _, _, rfl⟩
  simp only [Shared.cancelWalletScans, ha] at hcancel
  obtain ⟨rfl, rfl⟩ := Prod.mk.inj hcancel
  obtain ⟨b', t', hb, hscans, htokens⟩ := h.scans.cancelWalletScans h.tokens hw ha
  refine ⟨{ τ with scans := b', tokens := t' }, ?_, { h with scans := hscans, tokens := htokens }⟩
  simp only [Shared.cancelWalletScans, hb]

theorem stopScan (h : σ.Agree W mine ρ τ) (hw : W w) {i j : Nat} (hij : ρ.handle i j)
    {waitFor : Option CallId} (hstop : σ.stopScan ⟨w, i⟩ = (waitFor, σ')) :
    ∃ τ', τ.stopScan ⟨w, j⟩ = (waitFor, τ') ∧ σ'.Agree W mine ρ τ' := by
  obtain ⟨r, a', s', ha⟩ : ∃ r a' s', σ.scans.stopScan σ.tokens ⟨w, i⟩ = (r, a', s') := ⟨_, _, _, rfl⟩
  simp only [Shared.stopScan, ha] at hstop
  obtain ⟨rfl, rfl⟩ := Prod.mk.inj hstop
  obtain ⟨b', t', hb, hscans, htokens⟩ := h.scans.stopScan h.handles h.tokens hij hw ha
  refine ⟨{ τ with scans := b', tokens := t' }, ?_, { h with scans := hscans, tokens := htokens }⟩
  simp only [Shared.stopScan, hb]

/-- The slot is entered, refused, or no longer to be had, in both. -/
theorem enterSlot (h : σ.Agree W mine ρ τ) (hw : W w) {c c' : ScanController}
    (hc : ScanController.Like mine ρ.handle c c') {r : Except WalletError (Option (Option CallId))}
    (henter : σ.enterSlot w c = (r, σ')) :
    ∃ τ', τ.enterSlot w c' = (r, τ') ∧ σ'.Agree W mine ρ τ' := by
  -- Whether the scan was stopped meanwhile shows in the scans about to start.
  have hstarting := h.scans.starting hc.id
  unfold Shared.enterSlot at henter ⊢
  rw [hstarting]
  split at henter
  · rename_i hnone
    obtain ⟨rfl, rfl⟩ := Prod.mk.inj henter
    exact ⟨τ, if_pos hnone, h⟩
  rename_i hsome
  rw [if_neg hsome]
  have hunstart := h.scans.unstart h.handles hc.id
  dsimp only at henter ⊢
  rcases hunstart.takeSlot h.tokens hw hc with ⟨e, ha, hb⟩ |
    ⟨previous, previous', a', b', s', t', ha, hb, hprevious, hscans, htokens⟩
  · rw [ha] at henter
    rw [hb]
    obtain ⟨rfl, rfl⟩ := Prod.mk.inj henter
    exact ⟨_, rfl, { h with scans := hunstart }⟩
  · rw [ha] at henter
    rw [hb]
    obtain ⟨rfl, rfl⟩ := Prod.mk.inj henter
    simp only [hprevious]
    exact ⟨_, rfl, { h with scans := hscans, tokens := htokens }⟩

theorem removeSession (h : σ.Agree W mine ρ τ) (hw : W w) :
    (σ.removeSession me w).Agree W mine ρ (τ.removeSession me w) :=
  { h with db := h.db.removeSession hw }

theorem releaseSession (h : σ.Agree W mine ρ τ) (hw : W w) {zero : Bool}
    (hrel : σ.releaseSession me w = (zero, σ')) :
    ∃ τ', τ.releaseSession me w = (zero, τ') ∧ σ'.Agree W mine ρ τ' := by
  obtain ⟨db, hone, rfl⟩ := Shared.releaseSession_eq hrel
  obtain ⟨db', hone', hdb⟩ := h.db.releaseOne hw hone
  unfold Shared.releaseSession
  rw [hone']
  exact ⟨_, rfl, { h with db := hdb }⟩

theorem releaseFailed (h : σ.Agree W mine ρ τ) (hw : W w) {g g' : Nat} (hg : ρ.generation g g')
    {zero : Bool} (hrel : σ.releaseFailed me w g = (zero, σ')) :
    ∃ τ', τ.releaseFailed me w g' = (zero, τ') ∧ σ'.Agree W mine ρ τ' := by
  have hstill := h.db.stillCounted_eq hw hg
  unfold Shared.releaseFailed DbState.releaseFailed at hrel ⊢
  rw [hstill]
  by_cases hcounted : σ.db.stillCounted w g = true
  · obtain ⟨r, db, hone⟩ : ∃ r db, σ.db.releaseOne w = (r, db) := ⟨_, _, rfl⟩
    obtain ⟨db', hone', hdb⟩ := h.db.releaseOne hw hone
    simp only [hcounted, if_true, hone] at hrel
    simp only [hcounted, if_true, hone']
    obtain ⟨rfl, rfl⟩ := Prod.mk.inj hrel
    exact ⟨_, rfl, { h with db := hdb }⟩
  · simp only [hcounted] at hrel ⊢
    obtain ⟨rfl, rfl⟩ := Prod.mk.inj hrel
    exact ⟨_, rfl, { h with db := h.db }⟩

/-! ## What a call makes -/

/-- Counting in both, whatever was recorded or opened before. -/
theorem acquire (h : σ.Agree W mine ρ τ) (hw : W w) {a b : DbState} {ledger ledger' : Nat → Ledger}
    (ha : a.sessions = σ.db.sessions) (hna : a.nextGeneration = σ.db.nextGeneration)
    (hb : b.sessions = τ.db.sessions) (hnb : b.nextGeneration = τ.db.nextGeneration) :
    ∃ ρ', ρ.Grows none ρ' ∧ ρ'.generation (a.acquireSession w).1 (b.acquireSession w).1 ∧
      ({ σ with db := (a.acquireSession w).2, ledger := ledger } : Shared).Agree W mine ρ'
        { τ with db := (b.acquireSession w).2, ledger := ledger' } := by
  have hdb : a.Agree W ρ.generation b := by
    constructor
    · rw [ha, hb]
      exact h.db.sessions
    · rw [hb]
      exact h.db.others
    · rw [hna, hnb]
      exact h.db.generations
  obtain ⟨r, hle, hg, hdb'⟩ := hdb.acquire hw
  refine ⟨{ ρ with generation := r },
    ⟨⟨hle, fun _ _ hij => hij, fun _ _ _ hij => hij⟩, fun _ _ => Or.inl⟩, hg, ?_⟩
  exact { h with db := hdb' }

/-- A count: where it fails in the first run it fails in the second; where it succeeds, it succeeds in the
second too, unless the pool that is open in the first cannot be opened. -/
theorem count (h : σ.Agree W mine ρ τ) (hw : W w) (hσ : σ.db.OnFile path) (hτ : τ.db.OnFile path)
    {r : Except BridgeError Nat} (hcount : σ.count me path w ch = (r, σ')) :
    (∃ e τ', r = .error e ∧ τ.count me path w ch = (.error e, τ') ∧ σ'.Agree W mine ρ τ') ∨
      ∃ g g' ρ' ch' τ', r = .ok g ∧ ρ.Grows none ρ' ∧ (ch' = ch ∨ ch' = { ch with poolError := none }) ∧
        τ.count me path w ch' = (.ok g', τ') ∧ ρ'.generation g g' ∧ σ'.Agree W mine ρ' τ' := by
  unfold Shared.count at hcount ⊢
  by_cases hclosed : σ.db.openDatabase = none
  · have hclosed' := h.db.closed hσ hτ hclosed
    rw [hσ.count_of_closed hclosed] at hcount
    cases hopens : ch.opens with
    | error e =>
      left
      simp only [hopens] at hcount
      obtain ⟨rfl, rfl⟩ := Prod.mk.inj hcount
      refine ⟨e, τ, rfl, ?_, { h with db := h.db }⟩
      rw [hτ.count_of_closed hclosed']
    | ok _ =>
      right
      simp only [hopens] at hcount
      obtain ⟨rfl, rfl⟩ := Prod.mk.inj hcount
      obtain ⟨ρ', hle, hg, hag⟩ := h.acquire hw
        (a := { σ.db with openDatabase := some ⟨path⟩, path := some path })
        (b := { τ.db with openDatabase := some ⟨path⟩, path := some path }) rfl rfl rfl rfl
      refine ⟨_, _, ρ', ch, _, rfl, hle, Or.inl rfl, ?_, hg, hag.releaseExpired path ch⟩
      rw [hτ.count_of_closed hclosed']
      simp only [hopens]
      rfl
  · right
    rw [hσ.count_of_open hclosed] at hcount
    obtain ⟨rfl, rfl⟩ := Prod.mk.inj hcount
    -- The first run finds the pool open; the second may have to open it.
    by_cases hclosed' : τ.db.openDatabase = none
    · -- The pool is open in the first run for wallets the second knows nothing of.
      obtain ⟨ρ', hle, hg, hag⟩ := h.acquire hw (a := { σ.db with path := some path })
        (b := { τ.db with openDatabase := some ⟨path⟩, path := some path }) rfl rfl rfl rfl
      refine ⟨_, _, ρ', { ch with poolError := none }, _, rfl, hle, Or.inr rfl, ?_, hg,
        hag.releaseExpiredRight path { ch with poolError := none }⟩
      rw [hτ.count_of_closed hclosed']
      rfl
    · obtain ⟨ρ', hle, hg, hag⟩ := h.acquire hw (a := { σ.db with path := some path })
        (b := { τ.db with path := some path }) rfl rfl rfl rfl
      refine ⟨_, _, ρ', ch, _, rfl, hle, Or.inl rfl, ?_, hg, hag⟩
      rw [hτ.count_of_open hclosed']
      rfl

/-- A number neither `SCAN_STATE` has seen. -/
def Unseen (scans : ScanState) (id : Nat) : Prop :=
  id ∉ scans.issued ∧ id ∉ scans.stoppedBeforeStart ∧ scans.starting.lookup id = none

/-- Both take the next handle id. -/
theorem mint (h : σ.Agree W mine ρ τ) (hσ : Unseen σ.scans σ.scanId) (hτ : Unseen τ.scans τ.scanId) :
    ∃ ρ', ρ.Grows (some σ.scanId) ρ' ∧ ρ'.handle σ.scanId τ.scanId ∧
      ({ σ with scanId := σ.scanId + 1 } : Shared).Agree W mine ρ' { τ with scanId := τ.scanId + 1 } := by
  refine ⟨{ ρ with handle := pairUp ρ.handle σ.scanId τ.scanId },
    ⟨⟨fun _ _ hij => hij, fun _ _ => pairUp_of, fun _ _ _ hij => hij⟩, ?_⟩, pairUp_self _ _ _, ?_⟩
  · rintro i j (hij | ⟨rfl, -⟩)
    · exact Or.inl hij
    · exact Or.inr rfl
  exact { h with scans := h.scans.pair hσ hτ, handles := h.handles.next }

theorem addAccount (h : σ.Agree W mine ρ τ) (file : PathBuf) (v : WalletName) (p : Passphrase)
    (viewOnly : Bool) :
    ∃ ρ', ρ.Grows none ρ' ∧
      (σ.setFile file ((σ.files file).addAccount v p viewOnly)).Agree W mine ρ'
        (τ.setFile file ((τ.files file).addAccount v p viewOnly)) := by
  let ids := pairUp (ρ.account file) (σ.files file).nextAccountId (τ.files file).nextAccountId
  have hle : ∀ f i j, ρ.account f i j → Function.update ρ.account file ids f i j := by
    intro f i j hij
    by_cases hf : f = file
    · subst hf
      rw [Function.update_self]
      exact pairUp_of hij
    · rwa [Function.update_of_ne hf]
  refine ⟨{ ρ with account := Function.update ρ.account file ids },
    ⟨⟨fun _ _ hij => hij, fun _ _ hij => hij, hle⟩, fun _ _ => Or.inl⟩, { h with files := fun f => ?_ }⟩
  unfold Shared.setFile
  by_cases hf : f = file
  · subst hf
    simpa using (h.files f).add v p viewOnly
  · simpa [hf] using h.files f

end Agree

end Shared

end CwTariWallet
