/-
# CwTariWallet.Isolation.LockstepSends -- sends, new accounts and addresses without the other wallets

As `Isolation.Lockstep`, for the calls that read a wallet's keys or add an account; and, at the end, any call
(`Call.Like.next`).
-/
import CwTariWallet.Isolation.LockstepScans

namespace CwTariWallet

open Interleaving

variable {W : WalletName → Prop} {mine : CallId → Prop} {ρ : Renaming} {σ σ' τ : Shared}
variable {path : PathBuf} {tariCommon : TariCommon} {w : WalletName} {me : CallId} {ch : Choice}

/-- What a choice of network comes to. -/
def TariCommon.answer (tariCommon : TariCommon) (current : Option Network) (choice : Network) :
    Except String Unit :=
  (tariCommon.setNetworkIfChoiceValid current choice).map fun _ => ()

/-- A network is let through or refused whatever network is set. -/
def TariCommon.ByChoice (tariCommon : TariCommon) : Prop :=
  ∀ current current' choice, tariCommon.answer current choice = tariCommon.answer current' choice

theorem Shared.applyNetwork_answer (σ : Shared) (n : Network) :
    (σ.applyNetwork n).1 = (σ.network.tariCommon.answer σ.network.current n).mapError .upstream := by
  unfold Shared.applyNetwork ProcessNetwork.setIfChoiceValid TariCommon.answer
  cases σ.network.tariCommon.setNetworkIfChoiceValid σ.network.current n <;> rfl

/-- Two processes over one crate are told the same of a network. -/
theorem Shared.Agree.applyNetwork (hag : σ.Agree W mine ρ τ) (hσ : σ.OnOne path tariCommon)
    (hτ : τ.OnOne path tariCommon) (hby : tariCommon.ByChoice) {n : Network} {r : Except BridgeError Unit}
    (happly : σ.applyNetwork n = (r, σ')) :
    ∃ τ', τ.applyNetwork n = (r, τ') ∧ σ'.Agree W mine ρ τ' := by
  have hsame : (τ.applyNetwork n).1 = r := by
    have hanswer := σ.applyNetwork_answer n
    rw [happly, hσ.tariCommon] at hanswer
    rw [τ.applyNetwork_answer, hτ.tariCommon, hby τ.network.current σ.network.current, ← hanswer]
  -- Neither what is set in the first nor what is set in the second is among what agrees.
  have keeps {υ υ' : Shared} {q : Except BridgeError Unit} (h : υ.applyNetwork n = (q, υ')) :
      ∃ set, υ' = { υ with network := set } := by
    unfold Shared.applyNetwork at h
    split at h <;> cases h <;> exact ⟨_, rfl⟩
  obtain ⟨set, rfl⟩ := keeps happly
  obtain ⟨τ', hτ'⟩ : ∃ τ', τ.applyNetwork n = (r, τ') := ⟨_, Prod.ext hsame rfl⟩
  obtain ⟨set', rfl⟩ := keeps hτ'
  exact ⟨_, hτ', { hag with db := hag.db }⟩

/-! ## Sends -/

/-- The same send, having read an account under another id, with another history. -/
def SendTransaction.under (x : SendTransaction) (j : AccountId) (log : List SendEvent) : SendTransaction :=
  ⟨x.details, x.pos.withAccount j, log⟩

/-- But where it opens a pool, a send gets the same answers. -/
theorem SendTransaction.lockstep_opened {x x' : SendTransaction} {j : AccountId} {log : List SendEvent}
    (hag : σ.Agree W mine ρ τ) (hσ : σ.OnOne path tariCommon) (hτ : τ.OnOne path tariCommon)
    (hpath : σ.db.path = some path) (hpath' : τ.db.path = some path) (hw : W x.details.walletName)
    (hby : tariCommon.ByChoice)
    (hopened : ∀ v, x.pos ≠ .createSender v) (hlog : log.map SendEvent.done = x.log.map SendEvent.done)
    (hnext : x.next ch σ = some (x', σ')) :
    ∃ j' log' τ', (x.under j log).next ch τ = some (x'.under j' log', τ') ∧
      log'.map SendEvent.done = x'.log.map SendEvent.done ∧ σ'.Agree W mine ρ τ' := by
  have hconn : τ.getDbConnection ch = σ.getDbConnection ch := hσ.connection hτ hpath hpath' ch
  have hmore (events : List SendEvent) : (log ++ events).map SendEvent.done =
      (x.log ++ events).map SendEvent.done := by
    rw [List.map_append, List.map_append, hlog]
  obtain ⟨details, pos, log₀⟩ := x
  replace hw : W details.walletName := hw
  have htold (file : PathBuf) : τ.isUnlocked file details.walletName ch =
      σ.isUnlocked file details.walletName ch := hag.isUnlocked_eq hw file ch
  unfold next at hnext ⊢
  dsimp only [SendTransaction.under]
  cases pos with
  | initializing =>
    cases hnext
    exact ⟨j, _, τ, rfl, hmore _, hag⟩
  | validate =>
    dsimp only [SendAt.withAccount] at hnext ⊢
    split at hnext <;> cases hnext <;> exact ⟨j, _, τ, rfl, hmore _, hag⟩
  | applyNetwork validated =>
    dsimp only [SendAt.withAccount] at hnext ⊢
    split at hnext <;> cases hnext <;> obtain ⟨τ', hτ', hag'⟩ := hag.applyNetwork hσ hτ hby ‹_› <;>
      exact ⟨j, _, τ', by rw [hτ']; rfl, hmore _, hag'⟩
  | createSender validated => exact absurd rfl (hopened validated)
  | keyConn sender =>
    dsimp only [SendAt.withAccount] at hnext ⊢
    rw [hconn]
    split at hnext <;> cases hnext <;> exact ⟨j, _, τ, rfl, hmore _, hag⟩
  | keyAccount sender file =>
    dsimp only [SendAt.withAccount] at hnext ⊢
    split at hnext
    · cases hnext
      exact ⟨j, _, τ, rfl, hmore _, hag⟩
    rcases hag.account hw file with ⟨ha, hb⟩ | ⟨row, row', ha, hb, hlike⟩
    · rw [ha] at hnext
      rw [hb]
      cases hnext
      exact ⟨j, _, τ, rfl, hmore _, hag⟩
    · rw [ha] at hnext
      rw [hb]
      cases hnext
      refine ⟨row'.id, _, τ, ?_, hmore _, hag⟩
      rw [hlike.rest]
      rfl
  | keyCheck sender file account =>
    dsimp only [SendAt.withAccount] at hnext ⊢
    rw [htold]
    split at hnext <;> cases hnext <;> exact ⟨j, _, τ, rfl, hmore _, hag⟩
  | decrypt sender file account =>
    cases hnext
    refine ⟨j, _, τ, rfl, ?_, hag⟩
    rw [hag.live_eq hw]
    exact hmore _
  | keyCheckAgain sender file account keys =>
    dsimp only [SendAt.withAccount] at hnext ⊢
    rw [htold]
    split at hnext
    · cases hnext
      exact ⟨j, _, τ, rfl, hmore _, hag⟩
    · cases hnext
      exact ⟨j, _, τ, rfl, hmore _, hag⟩
    · split at hnext
      · cases hnext
        exact ⟨j, _, τ, rfl, hmore _, hag⟩
      · split at hnext
        · rename_i hview
          cases hnext
          exact ⟨j, _, τ, if_pos hview, hmore _, hag⟩
        · rename_i hview
          split at hnext <;> cases hnext <;> exact ⟨j, _, τ, if_neg hview, hmore _, hag⟩
  | sweepConn sender =>
    dsimp only [SendAt.withAccount] at hnext ⊢
    rw [hconn]
    split at hnext <;> cases hnext <;> exact ⟨j, _, τ, rfl, hmore _, hag⟩
  | sweep sender file =>
    cases hnext
    exact ⟨j, _, _, rfl, hmore _, hag.releaseExpired file ch⟩
  | build sender =>
    dsimp only [SendAt.withAccount] at hnext ⊢
    split at hnext
    · rename_i hall
      cases hnext
      exact ⟨j, _, τ, if_pos hall, hmore _, hag⟩
    rename_i hall
    split at hnext
    · cases hnext
      exact ⟨j, _, τ, if_neg hall, hmore _, hag⟩
    · split at hnext <;> cases hnext
      -- A row that is free in the first file is free in the second, which has no more of them.
      rename_i hfree
      have hfile := hag.files sender.dbPool
      have hfree' : ¬ ((τ.files sender.dbPool).pending ch.row).isSome = true := by
        rw [hfile.free ch.row (Option.not_isSome_iff_eq_none.mp hfree)]
        exact Bool.false_ne_true
      exact ⟨j, _, _, (if_neg hall).trans (if_neg hfree'), hmore _, hag.setFile (hfile.reserve _ _)⟩
  | postBuild sender row | preFinalize sender row =>
    have hseen : unlockedIn τ sender.dbPool details.walletName ch =
        unlockedIn σ sender.dbPool details.walletName ch := by
      unfold unlockedIn
      rw [htold]
    dsimp only [SendAt.withAccount] at hnext ⊢
    split at hnext <;> cases hnext
    · rename_i hunlocked
      exact ⟨j, _, τ, if_pos (hseen.trans hunlocked), hmore _, hag⟩
    · rename_i hlocked
      refine ⟨j, _, τ, if_neg ?_, hmore _, hag⟩
      exact fun hunlocked => hlocked (hseen.symm.trans hunlocked)
  | signingKeys sender row =>
    cases hnext
    exact ⟨j, _, τ, rfl, hmore _, hag⟩
  | sign sender row =>
    dsimp only [SendAt.withAccount] at hnext ⊢
    split at hnext <;> cases hnext <;> exact ⟨j, _, τ, rfl, hmore _, hag⟩
  | finalize sender row =>
    have hfile := hag.files sender.dbPool
    dsimp only [SendAt.withAccount] at hnext ⊢
    split at hnext
    · cases hnext
      exact ⟨j, _, _, rfl, hmore _, hag.setFile (hfile.complete row)⟩
    · cases hnext
      refine ⟨j, _, _, rfl, hmore _, ?_⟩
      split
      · exact hag.setFile (hfile.complete row)
      · exact hag.setFile ((hfile.expireLeft row).expireRight row)
      · exact hag
  | broadcasted sent =>
    cases hnext
    exact ⟨j, _, τ, rfl, hmore _, hag⟩
  | releaseConn sender row cause =>
    dsimp only [SendAt.withAccount] at hnext ⊢
    rw [hconn]
    split at hnext <;> cases hnext
    · cases cause <;> exact ⟨j, _, τ, rfl, hmore _, hag⟩
    · exact ⟨j, _, τ, rfl, hmore _, hag⟩
  | release sender row cause file =>
    dsimp only [SendAt.withAccount] at hnext ⊢
    split at hnext <;> cases hnext
    · cases cause <;> exact ⟨j, _, τ, rfl, hmore _, hag⟩
    · -- Whether the row was still pending is where the histories may differ.
      have hfile := ((hag.files file).expireLeft row).expireRight row
      have hdone (acted acted' : Bool) : (log ++ [SendEvent.expired row file acted]).map SendEvent.done =
          (log₀ ++ [SendEvent.expired row file acted']).map SendEvent.done := by
        rw [List.map_append, List.map_append, hlog]
        rfl
      cases cause <;> exact ⟨j, _, _, rfl, hdone _ _, hag.setFile hfile⟩
  | goneConn e =>
    dsimp only [SendAt.withAccount] at hnext ⊢
    rw [hconn]
    split at hnext <;> cases hnext <;> exact ⟨j, _, τ, rfl, hmore _, hag⟩
  | gone file e =>
    dsimp only [SendAt.withAccount] at hnext ⊢
    rw [htold]
    split at hnext <;> cases hnext <;> exact ⟨j, _, τ, rfl, hmore _, hag⟩
  | returned r => cases hnext

theorem SendTransaction.lockstep {x x' : SendTransaction} {j : AccountId} {log : List SendEvent}
    (hag : σ.Agree W mine ρ τ) (hσ : σ.OnOne path tariCommon) (hτ : τ.OnOne path tariCommon)
    (hpath : σ.db.path = some path) (hpath' : τ.db.path = some path) (hw : W x.details.walletName)
    (hby : tariCommon.ByChoice)
    (hlog : log.map SendEvent.done = x.log.map SendEvent.done) (hnext : x.next ch σ = some (x', σ')) :
    ∃ ch' j' log' τ', ch.Same ch' ∧ (x.under j log).next ch' τ = some (x'.under j' log', τ') ∧
      log'.map SendEvent.done = x'.log.map SendEvent.done ∧ σ'.Agree W mine ρ τ' := by
  by_cases hopened : ∀ v, x.pos ≠ .createSender v
  · obtain ⟨j', log', τ', hτ', hlog', hag'⟩ :=
      SendTransaction.lockstep_opened hag hσ hτ hpath hpath' hw hby hopened hlog hnext
    exact ⟨ch, j', log', τ', Or.inl rfl, hτ', hlog', hag'⟩
  -- It opens the pool, which may be open in the first run for others.
  obtain ⟨validated, hpos⟩ := not_forall_not.mp hopened
  have hmore (events : List SendEvent) : (log ++ events).map SendEvent.done =
      (x.log ++ events).map SendEvent.done := by
    rw [List.map_append, List.map_append, hlog]
  obtain ⟨details, pos, log₀⟩ := x
  obtain rfl : pos = .createSender validated := hpos
  obtain ⟨ch', hch, hupstream, hpool⟩ := hag.getDbPool hσ hτ hpath hpath' ch
  refine ⟨ch', j, ?_⟩
  unfold next at hnext ⊢
  dsimp only [SendTransaction.under, SendAt.withAccount] at hnext ⊢
  rw [hpool, hupstream]
  split at hnext
  · cases hnext
    exact ⟨_, τ, hch, rfl, hmore _, hag⟩
  · split at hnext <;> cases hnext <;> exact ⟨_, τ, hch, rfl, hmore _, hag⟩

/-! ## New accounts and addresses -/

theorem CreateWallet.lockstep {c c' : CreateWallet} (hag : σ.Agree W mine ρ τ) (hσ : σ.OnOne path tariCommon)
    (hτ : τ.OnOne path tariCommon) (hpath : σ.db.path = some path) (hpath' : τ.db.path = some path)
    (hw : W c.walletName) (hby : tariCommon.ByChoice) (hnext : c.next ch σ = some (c', σ')) :
    ∃ ρ' τ', ρ.Grows none ρ' ∧ c.next ch τ = some (c', τ') ∧ σ'.Agree W mine ρ' τ' := by
  obtain ⟨v, network, passphrase, source, pos⟩ := c
  unfold next at hnext ⊢
  cases pos with
  | network =>
    dsimp only at hnext ⊢
    split at hnext <;> cases hnext <;> obtain ⟨τ', hτ', hag'⟩ := hag.applyNetwork hσ hτ hby ‹_› <;>
      exact ⟨ρ, τ', .refl _ ρ, by rw [hτ'], hag'⟩
  | dbPath =>
    dsimp only at hnext ⊢
    rw [hσ.getDbPath_eq hpath] at hnext
    rw [hτ.getDbPath_eq hpath']
    cases hnext
    exact ⟨ρ, τ, .refl _ ρ, rfl, hag⟩
  | init file =>
    dsimp only at hnext ⊢
    split at hnext
    · cases hnext
      exact ⟨ρ, τ, .refl _ ρ, rfl, hag⟩
    split at hnext <;> cases hnext
    -- The name is free in both files; the new ids are a new pair.
    rename_i hfree
    obtain ⟨ρ', hle, hag'⟩ := hag.addAccount file v passphrase (decide (source = .viewKey))
    refine ⟨ρ', _, hle, if_neg ?_, hag'⟩
    rw [← Option.not_isNone, (hag.files file).isNone_eq hw, Option.not_isNone]
    exact hfree
  | parse | details file | finish =>
    dsimp only at hnext ⊢
    split at hnext <;> cases hnext <;> exact ⟨ρ, τ, .refl _ ρ, rfl, hag⟩
  | returned r => cases hnext

theorem GetAddress.lockstep {a a' : GetAddress} (hag : σ.Agree W mine ρ τ) (hσ : σ.OnOne path tariCommon)
    (hτ : τ.OnOne path tariCommon) (hpath : σ.db.path = some path) (hpath' : τ.db.path = some path)
    (hw : W a.walletName) (hby : tariCommon.ByChoice) (hnext : a.next ch σ = some (a', σ')) :
    ∃ τ', a.next ch τ = some (a', τ') ∧ σ'.Agree W mine ρ τ' := by
  obtain ⟨v, network, pos, live⟩ := a
  replace hw : W v := hw
  have htold (file : PathBuf) : τ.isUnlocked file v ch = σ.isUnlocked file v ch :=
    hag.isUnlocked_eq hw file ch
  unfold next at hnext ⊢
  cases pos with
  | network =>
    dsimp only at hnext ⊢
    split at hnext <;> cases hnext <;> obtain ⟨τ', hτ', hag'⟩ := hag.applyNetwork hσ hτ hby ‹_› <;>
      exact ⟨τ', by rw [hτ'], hag'⟩
  | conn =>
    dsimp only at hnext ⊢
    rw [hσ.connection hτ hpath hpath']
    split at hnext <;> cases hnext <;> exact ⟨τ, rfl, hag⟩
  | account file =>
    dsimp only at hnext ⊢
    split at hnext
    · cases hnext
      exact ⟨τ, rfl, hag⟩
    rcases hag.account hw file with ⟨ha, hb⟩ | ⟨row, row', ha, hb, -⟩ <;> rw [ha] at hnext <;> rw [hb] <;>
      cases hnext <;> exact ⟨τ, rfl, hag⟩
  | check file | checkAgain file address =>
    dsimp only at hnext ⊢
    rw [htold]
    split at hnext <;> cases hnext <;> exact ⟨τ, rfl, hag⟩
  | read file =>
    cases hnext
    exact ⟨τ, by dsimp only; rw [hag.live_eq hw], hag⟩
  | returned r => cases hnext

theorem SetDatabasePath.lockstep {p p' : SetDatabasePath} (hag : σ.Agree W mine ρ τ)
    (hσ : σ.OnOne path tariCommon) (hτ : τ.OnOne path tariCommon) (hfits : p.path = path)
    (hnext : p.next σ = some (p', σ')) : ∃ τ', p.next τ = some (p', τ') ∧ σ'.Agree W mine ρ τ' := by
  subst hfits
  have sets {υ : Shared} (hυ : υ.OnOne p.path tariCommon) :
      υ.db.setDatabasePath p.path = .ok { υ.db with path := some p.path } := by
    unfold DbState.setDatabasePath
    rw [hυ.db.onOtherPath]
    rfl
  unfold next at hnext ⊢
  split at hnext
  · rw [sets hσ] at hnext
    cases hnext
    rw [sets hτ]
    exact ⟨_, rfl, { hag with db := ⟨hag.db.sessions, hag.db.others, hag.db.generations⟩ }⟩
  · cases hnext

/-! ## Any call -/

/-- A call that asks for the path of the database. -/
def Call.needsPath : Call → Bool
  | .withWalletLocked _ | .changePassphrase _ | .abandonSend _ | .scan _ | .sendTransaction _
  | .createWallet _ | .getAddress _ => true
  | _ => false

/-- What is known of a call that is about to take a step, besides where it stands. -/
structure Call.Ready (W : WalletName → Prop) (mine : CallId → Prop) (path : PathBuf) (me : CallId) (call : Call)
    (σ τ : Shared) : Prop where
  fits : call.Fits W path
  paths : call.needsPath = true → σ.db.path = some path ∧ τ.db.path = some path
  self : mine me
  follows : ∀ d, call.follows = some d → mine d
  own : ∀ x, call = .scan x → x.pos.stage ≠ .before → x.pos.stage ≠ .over →
    x.handle.walletName = x.walletName
  unseen : Shared.Agree.Unseen σ.scans σ.scanId ∧ Shared.Agree.Unseen τ.scans τ.scanId

/-- A call on a wallet in `W` takes in the second run the step it takes in the first. -/
theorem Call.Like.next {call m call' : Call} (hlike : call.Like ρ path m) (hon : call.On W)
    (hag : σ.Agree W mine ρ τ) (hσ : σ.OnOne path tariCommon) (hτ : τ.OnOne path tariCommon)
    (hby : tariCommon.ByChoice) (hready : call.Ready W mine path me σ τ)
    (hnext : call.next me ch σ = some (call', σ')) :
    Matched W mine ρ path me ch m τ call' σ' := by
  cases hlike <;> obtain ⟨⟨x', σ''⟩, hr, h'⟩ := Option.map_eq_some_iff.mp hnext <;> cases h'
  case setDatabasePath p =>
    obtain ⟨τ', hτ', hag'⟩ := SetDatabasePath.lockstep hag hσ hτ hready.fits hr
    exact .same (by rw [Call.next, hτ']; rfl) .setDatabasePath hag'
  case unlockWallet u j hg =>
    obtain ⟨ρ', ch', j', τ', hle, hch, hτ', hg', hag'⟩ :=
      UnlockWallet.lockstep hag hσ hτ (hon _ rfl) hready.fits hg hr
    exact ⟨ρ', ch', _, τ', hle, hch, by rw [Call.next, hτ']; rfl, .unlockWallet hg', hag'⟩
  case lockWallet l =>
    obtain ⟨τ', hτ', hag'⟩ := LockWallet.lockstep hag hσ hτ (hon _ rfl) hready.follows hr
    exact .same (by rw [Call.next, hτ']; rfl) .lockWallet hag'
  case forceLockWallet f =>
    obtain ⟨τ', hτ', hag'⟩ := ForceLockWallet.lockstep hag hσ hτ (hon _ rfl) hready.follows hr
    exact .same (by rw [Call.next, hτ']; rfl) .forceLockWallet hag'
  case withWalletLocked m =>
    obtain ⟨hpath, hpath'⟩ := hready.paths rfl
    obtain ⟨τ', hτ', hag'⟩ :=
      WithWalletLocked.lockstep hag hσ hτ hpath hpath' (hon _ rfl) hready.fits hready.follows hr
    exact .same (by rw [Call.next, hτ']; rfl) .withWalletLocked hag'
  case changePassphrase p =>
    obtain ⟨hpath, hpath'⟩ := hready.paths rfl
    obtain ⟨τ', hτ', hag'⟩ :=
      ChangePassphrase.lockstep hag hσ hτ hpath hpath' (hon _ rfl) hready.follows hr
    exact .same (by rw [Call.next, hτ']; rfl) .changePassphrase hag'
  case abandonSend a j haccount hfile =>
    obtain ⟨hpath, hpath'⟩ := hready.paths rfl
    obtain ⟨j', τ', hτ', haccount', hfile', hag'⟩ :=
      AbandonSend.lockstep hag hσ hτ hpath hpath' (hon _ rfl) hready.follows haccount hfile hr
    exact .same (by rw [Call.next, hτ']; rfl) (.abandonSend haccount' hfile') hag'
  case scan x j checked hhandle hchecked =>
    obtain ⟨hpath, hpath'⟩ := hready.paths rfl
    obtain ⟨checked', τ', hτ', hchecked', hag'⟩ := Scan.lockstep hag hσ hτ hpath hpath' (hon _ rfl)
      hready.self hready.follows (hready.own x rfl) hhandle hchecked hr
    obtain ⟨hsame, hsame'⟩ := Scan.next_same hr
    have hstep := congrArg (Option.map fun r : Scan × Shared => (Call.scan r.1, r.2)) hτ'
    refine .same hstep (.scan ?_ hchecked') hag'
    rw [hsame, hsame']
    exact hhandle
  case stopScan s j hhandle =>
    obtain ⟨τ', hτ', hsame, hag'⟩ := StopScan.lockstep hag (hon _ rfl) hready.follows hhandle hr
    have hstep := congrArg (Option.map fun r : StopScan × Shared => (Call.stopScan r.1, r.2)) hτ'
    refine .same hstep (.stopScan ?_) hag'
    rw [hsame]
    exact hhandle
  case createScanHandle h j hid =>
    obtain ⟨ρ', j', τ', hle, hτ', hid', hag'⟩ :=
      CreateScanHandle.lockstep hag hready.unseen.1 hready.unseen.2 hid hr
    refine ⟨ρ', ch, .createScanHandle (x'.under j'), τ', hle, Or.inl rfl, ?_, .createScanHandle hid', hag'⟩
    exact (congrArg (Option.map fun r : CreateScanHandle × Shared => (Call.createScanHandle r.1, r.2)) hτ')
  case sendTransaction x j log hlog =>
    obtain ⟨hpath, hpath'⟩ := hready.paths rfl
    obtain ⟨ch', j', log', τ', hch, hτ', hlog', hag'⟩ := SendTransaction.lockstep hag hσ hτ hpath hpath'
      (hon _ rfl) hby hlog hr
    refine ⟨ρ, ch', .sendTransaction (x'.under j' log'), τ', .refl _ ρ, hch, ?_, .sendTransaction hlog', hag'⟩
    exact (congrArg (Option.map fun r : SendTransaction × Shared => (Call.sendTransaction r.1, r.2)) hτ')
  case createWallet c =>
    obtain ⟨hpath, hpath'⟩ := hready.paths rfl
    obtain ⟨ρ', τ', hle, hτ', hag'⟩ :=
      CreateWallet.lockstep hag hσ hτ hpath hpath' (hon _ rfl) hby hr
    exact ⟨ρ', ch, _, τ', hle, Or.inl rfl, by rw [Call.next, hτ']; rfl, .createWallet, hag'⟩
  case getAddress a =>
    obtain ⟨hpath, hpath'⟩ := hready.paths rfl
    obtain ⟨τ', hτ', hag'⟩ := GetAddress.lockstep hag hσ hτ hpath hpath' (hon _ rfl) hby hr
    exact .same (by rw [Call.next, hτ']; rfl) .getAddress hag'

end CwTariWallet
