/-
# CwTariWallet.Isolation.Lockstep -- a call takes the step it takes without the others

Where two runs agree on the wallets in `W`, a call on one of them that takes a step in the first run takes
the same step in the second: it gets the same answer and leaves the two in agreement (`Call.Like.next`).
That is one lemma for each function a call goes through, from the locks up.

The one answer that differs is of the outside world.  Where a pool is open in the first run for a wallet the
second knows nothing of, the second opens one of its own, and succeeds.
-/
import CwTariWallet.Isolation.Likeness

namespace CwTariWallet

open Interleaving

variable {W : WalletName → Prop} {mine : CallId → Prop} {ρ : Renaming} {σ σ' τ : Shared}
variable {path : PathBuf} {tariCommon : TariCommon} {w : WalletName} {me : CallId} {ch : Choice}

/-- The same answers, except that opening a pool may succeed. -/
def Choice.Same (ch ch' : Choice) : Prop := ch' = ch ∨ ch' = { ch with poolError := none }

/-- The second run can take the step that brings the first to `call'` and `σ'`. -/
def Matched (W : WalletName → Prop) (mine : CallId → Prop) (ρ : Renaming) (path : PathBuf) (me : CallId)
    (ch : Choice) (m : Call) (τ : Shared) (call' : Call) (σ' : Shared) : Prop :=
  ∃ ρ' ch' m' τ', ρ.Grows call'.fetchedId ρ' ∧ ch.Same ch' ∧ m.next me ch' τ = some (m', τ') ∧
    call'.Like ρ' path m' ∧ σ'.Agree W mine ρ' τ'

/-- Mostly with the same answers, and nothing new to name. -/
theorem Matched.same {m call' m' : Call} {τ' : Shared} (hnext : m.next me ch τ = some (m', τ'))
    (hlike : call'.Like ρ path m') (hag : σ'.Agree W mine ρ τ') :
    Matched W mine ρ path me ch m τ call' σ' :=
  ⟨ρ, ch, m', τ', .refl _ ρ, Or.inl rfl, hnext, hlike, hag⟩

/-! ## Connections -/

theorem Shared.OnOne.getDbPath_eq (hσ : σ.OnOne path tariCommon) (hpath : σ.db.path = some path) :
    σ.db.getDbPath = .ok path := hσ.db.getDbPath hpath

theorem Shared.OnOne.getDbConnection_eq (hσ : σ.OnOne path tariCommon) (hpath : σ.db.path = some path)
    (ch : Choice) : σ.getDbConnection ch = match ch.poolError with
      | some e => .error e
      | none => .ok path := by
  unfold Shared.getDbConnection
  have hrecorded := hσ.getDbPath_eq hpath
  generalize σ.db.getDbPath = recorded at hrecorded
  subst hrecorded
  rfl

/-- A connection is had, or refused, in both. -/
theorem Shared.OnOne.connection (hσ : σ.OnOne path tariCommon) (hτ : τ.OnOne path tariCommon)
    (hpath : σ.db.path = some path) (hpath' : τ.db.path = some path) (ch : Choice) :
    τ.getDbConnection ch = σ.getDbConnection ch := by
  rw [hσ.getDbConnection_eq hpath, hτ.getDbConnection_eq hpath']

/-- The path of the pool, whoever opened it. -/
theorem Shared.Agree.getDbPool (h : σ.Agree W mine ρ τ) (hσ : σ.OnOne path tariCommon)
    (hτ : τ.OnOne path tariCommon) (hpath : σ.db.path = some path) (hpath' : τ.db.path = some path)
    (ch : Choice) : ∃ ch', ch.Same ch' ∧ ch'.upstream = ch.upstream ∧ τ.getDbPool ch' = σ.getDbPool ch := by
  unfold Shared.getDbPool
  rw [hσ.getDbPath_eq hpath, hτ.getDbPath_eq hpath']
  cases hopen : σ.db.openDatabase with
  | none =>
    rw [h.db.closed hσ.db hτ.db hopen]
    exact ⟨ch, Or.inl rfl, rfl, rfl⟩
  | some d =>
    -- Should the second have to open a pool, it succeeds.
    refine ⟨{ ch with poolError := none }, Or.inr rfl, rfl, ?_⟩
    cases τ.db.openDatabase <;> rfl

/-! ## Locks -/

theorem GateHeldAt.lockstep {h : GateHeldAt} {r : GateHeldAt ⊕ Bool} (hag : σ.Agree W mine ρ τ)
    (hw : W w) (hnext : h.next w σ = (r, σ')) : ∃ τ', h.next w τ = (r, τ') ∧ σ'.Agree W mine ρ τ' := by
  cases h with
  | readState =>
    simp only [GateHeldAt.next] at hnext ⊢
    rw [hag.db.isSome_eq hw]
    split at hnext <;> obtain ⟨rfl, rfl⟩ := Prod.mk.inj hnext
    · rename_i hheld
      exact ⟨τ, if_pos hheld, hag⟩
    · rename_i hfree
      exact ⟨τ, if_neg hfree, hag⟩
  | lockSession =>
    obtain ⟨rfl, rfl⟩ := Prod.mk.inj hnext
    exact ⟨_, rfl, hag.lockKeys w⟩
  | cancelScans =>
    obtain ⟨rfl, rfl⟩ := Prod.mk.inj hnext
    have hcancel : σ.cancelWalletScans w = ((σ.cancelWalletScans w).1, (σ.cancelWalletScans w).2) := rfl
    obtain ⟨τ', hτ', hag'⟩ := hag.cancelWalletScans hw hcancel
    refine ⟨τ', ?_, hag'⟩
    simp only [GateHeldAt.next, hτ']

theorem GateAt.lockstep {g : GateAt} {r : GateAt ⊕ Bool} (hag : σ.Agree W mine ρ τ) (hw : W w)
    (hnext : g.next me w σ = some (r, σ')) :
    ∃ τ', g.next me w τ = some (r, τ') ∧ σ'.Agree W mine ρ τ' := by
  cases g with
  | wait =>
    obtain ⟨σ₁, hhold, h⟩ := Option.map_eq_some_iff.mp hnext
    cases h
    obtain ⟨τ', hτ', hag'⟩ := hag.holdGate hw hhold
    exact ⟨τ', by rw [GateAt.next, hτ']; rfl, hag'⟩
  | held h =>
    simp only [GateAt.next] at hnext ⊢
    split at hnext <;> cases hnext <;> obtain ⟨τ', hτ', hag'⟩ := GateHeldAt.lockstep hag hw ‹_› <;>
      exact ⟨τ', by rw [hτ'], hag'⟩
  | leave locked =>
    cases hnext
    exact ⟨_, rfl, hag.dropGate w⟩

/-- A stop waits for a scan both runs have. -/
theorem StopAt.lockstep {s : StopAt} {r : StopAt ⊕ Unit} (hag : σ.Agree W mine ρ τ) (hw : W w)
    (hmine : ∀ d, s = .wait d → mine d) (hnext : s.next w σ = some (r, σ')) :
    ∃ τ', s.next w τ = some (r, τ') ∧ σ'.Agree W mine ρ τ' := by
  cases s with
  | cancel =>
    simp only [StopAt.next] at hnext ⊢
    split at hnext <;> cases hnext <;> obtain ⟨τ', hτ', hag'⟩ := hag.cancelWalletScans hw ‹_› <;>
      exact ⟨τ', by rw [hτ'], hag'⟩
  | wait d =>
    simp only [StopAt.next] at hnext ⊢
    rw [hag.tokens d (hmine d rfl)]
    split at hnext <;> cases hnext
    rename_i hstopped
    exact ⟨τ, if_pos hstopped, hag⟩

theorem EverywhereAt.lockstep {e : EverywhereAt} {r : EverywhereAt ⊕ Unit} (hag : σ.Agree W mine ρ τ)
    (hσ : σ.OnOne path tariCommon) (hτ : τ.OnOne path tariCommon) (hw : W w)
    (hmine : ∀ d, e.stopAt = some (.wait d) → mine d) (hnext : e.next me w σ = some (r, σ')) :
    ∃ τ', e.next me w τ = some (r, τ') ∧ σ'.Agree W mine ρ τ' := by
  cases e with
  | remove =>
    cases hnext
    refine ⟨_, ?_, hag.removeSession hw⟩
    simp only [EverywhereAt.next, hag.entryFile_eq hw hσ hτ]
  | gate file g =>
    simp only [EverywhereAt.next] at hnext ⊢
    split at hnext <;> cases hnext <;> obtain ⟨τ', hτ', hag'⟩ := GateAt.lockstep hag hw ‹_› <;>
      exact ⟨τ', by rw [hτ'], hag'⟩
  | stop s =>
    have hmine' : ∀ d, s = .wait d → mine d := fun d hd => hmine d (congrArg some hd)
    simp only [EverywhereAt.next] at hnext ⊢
    split at hnext <;> cases hnext <;> obtain ⟨τ', hτ', hag'⟩ := StopAt.lockstep hag hw hmine' ‹_› <;>
      exact ⟨τ', by rw [hτ'], hag'⟩

theorem LockWallet.lockstep {l l' : LockWallet} (hag : σ.Agree W mine ρ τ) (hσ : σ.OnOne path tariCommon)
    (hτ : τ.OnOne path tariCommon) (hw : W l.walletName)
    (hmine : ∀ d, (Call.lockWallet l).follows = some d → mine d) (hnext : l.next me σ = some (l', σ')) :
    ∃ τ', l.next me τ = some (l', τ') ∧ σ'.Agree W mine ρ τ' := by
  obtain ⟨v, holder, pos⟩ := l
  unfold next at hnext ⊢
  cases pos with
  | release =>
    dsimp only at hnext ⊢
    rw [hag.entryFile_eq hw hσ hτ]
    split at hnext <;> cases hnext <;> obtain ⟨τ', hτ', hag'⟩ := hag.releaseSession hw ‹_› <;>
      exact ⟨τ', by rw [hτ'], hag'⟩
  | gate file g =>
    dsimp only at hnext ⊢
    split at hnext <;> cases hnext <;> obtain ⟨τ', hτ', hag'⟩ := GateAt.lockstep hag hw ‹_› <;>
      exact ⟨τ', by rw [hτ'], hag'⟩
  | stop s =>
    have hmine' : ∀ d, s = .wait d → mine d := by
      rintro d rfl
      exact hmine d rfl
    dsimp only at hnext ⊢
    split at hnext <;> cases hnext <;> obtain ⟨τ', hτ', hag'⟩ := StopAt.lockstep hag hw hmine' ‹_› <;>
      exact ⟨τ', by rw [hτ'], hag'⟩
  | returned r => cases hnext

theorem ForceLockWallet.lockstep {f f' : ForceLockWallet} (hag : σ.Agree W mine ρ τ)
    (hσ : σ.OnOne path tariCommon) (hτ : τ.OnOne path tariCommon) (hw : W f.walletName)
    (hmine : ∀ d, (Call.forceLockWallet f).follows = some d → mine d)
    (hnext : f.next me σ = some (f', σ')) :
    ∃ τ', f.next me τ = some (f', τ') ∧ σ'.Agree W mine ρ τ' := by
  obtain ⟨v, pos⟩ := f
  unfold next at hnext ⊢
  cases pos with
  | everywhere e =>
    have hmine' : ∀ d, e.stopAt = some (.wait d) → mine d := by
      intro d hd
      apply hmine d
      simp [Call.follows, Call.stopAt, hd]
    dsimp only at hnext ⊢
    split at hnext <;> cases hnext <;>
      obtain ⟨τ', hτ', hag'⟩ := EverywhereAt.lockstep hag hσ hτ hw hmine' ‹_› <;>
      exact ⟨τ', by rw [hτ'], hag'⟩
  | returned => cases hnext

/-! ## Maintenance -/

/-- Both files take a delete or a rename, or refuse it. -/
theorem WalletChange.lockstep {change : WalletChange} {ids : AccountId → AccountId → Prop}
    {a a' b : WalletDatabase} {r : Except BridgeError Unit} (hag : a.Agree W ids b) (hw : W w)
    (hnew : ∀ new, change = .rename new → W new) (happly : change.apply w ch a = (r, a')) :
    ∃ b', change.apply w ch b = (r, b') ∧ a'.Agree W ids b' := by
  cases change with
  | delete =>
    simp only [WalletChange.apply] at happly ⊢
    rw [hag.isNone_eq hw]
    split at happly <;> obtain ⟨rfl, rfl⟩ := Prod.mk.inj happly
    · rename_i hfails
      exact ⟨b, if_pos hfails, hag⟩
    · rename_i hgoes
      exact ⟨_, if_neg hgoes, hag.delete w⟩
  | rename new =>
    -- The new name is one of `W` too, so it is taken in both files or in neither.
    have htaken : (b.getAccountByName new).isSome = (a.getAccountByName new).isSome := by
      have hnone := hag.isNone_eq (hnew new rfl)
      rw [← Option.not_isNone, hnone, Option.not_isNone]
    simp only [WalletChange.apply] at happly ⊢
    rw [hag.isNone_eq hw, htaken]
    split at happly <;> obtain ⟨rfl, rfl⟩ := Prod.mk.inj happly
    · rename_i hfails
      exact ⟨b, if_pos hfails, hag⟩
    · rename_i hgoes
      refine ⟨_, if_neg hgoes, ?_⟩
      simp only [Bool.or_eq_true, not_or, Bool.not_eq_true] at hgoes
      have hfree : a.getAccountByName new = none := by simpa using hgoes.2
      have hne : w ≠ new := by
        rintro rfl
        rw [hfree] at hgoes
        simp at hgoes
      exact hag.rename hw (hnew new rfl) hne hfree

theorem WithWalletLocked.lockstep {m m' : WithWalletLocked} (hag : σ.Agree W mine ρ τ)
    (hσ : σ.OnOne path tariCommon) (hτ : τ.OnOne path tariCommon) (hpath : σ.db.path = some path)
    (hpath' : τ.db.path = some path) (hw : W m.walletName)
    (hfits : ∀ new, m.change = .rename new → (W m.walletName ↔ W new))
    (hmine : ∀ d, (Call.withWalletLocked m).follows = some d → mine d)
    (hnext : m.next me ch σ = some (m', σ')) :
    ∃ τ', m.next me ch τ = some (m', τ') ∧ σ'.Agree W mine ρ τ' := by
  obtain ⟨v, change, pos⟩ := m
  unfold next at hnext ⊢
  cases pos with
  | «begin» =>
    dsimp only at hnext ⊢
    split at hnext
    · rename_i hsame
      cases hnext
      exact ⟨τ, if_pos hsame, hag⟩
    · rename_i hother
      obtain ⟨σ₁, hbegin, hnext⟩ := Option.map_eq_some_iff.mp hnext
      cases hnext
      obtain ⟨τ', hτ', hag'⟩ := hag.beginMaintenance hw hbegin
      exact ⟨τ', by rw [if_neg hother, hτ']; rfl, hag'⟩
  | conn =>
    dsimp only at hnext ⊢
    rw [hσ.connection hτ hpath hpath']
    split at hnext <;> cases hnext <;> exact ⟨τ, rfl, hag⟩
  | lockBefore file e | lockAfter e changed =>
    have hmine' : ∀ d, e.stopAt = some (.wait d) → mine d := by
      intro d hd
      apply hmine d
      simp [Call.follows, Call.stopAt, hd]
    dsimp only at hnext ⊢
    split at hnext <;> cases hnext <;>
      obtain ⟨τ', hτ', hag'⟩ := EverywhereAt.lockstep hag hσ hτ hw hmine' ‹_› <;>
      exact ⟨τ', by rw [hτ'], hag'⟩
  | change file =>
    dsimp only at hnext ⊢
    split at hnext
    · rename_i hdrops
      cases hnext
      exact ⟨_, if_pos hdrops, hag.lockKeys v⟩
    · rename_i hstays
      obtain ⟨r, a', happly⟩ : ∃ r a', change.apply v ch (σ.files file) = (r, a') := ⟨_, _, rfl⟩
      rw [happly] at hnext
      cases hnext
      obtain ⟨b', hb', hfile⟩ := WalletChange.lockstep (hag.files file) hw
        (fun new hnew => (hfits new hnew).mp hw) happly
      exact ⟨_, by rw [if_neg hstays, hb'], hag.setFile hfile⟩
  | settle file changed =>
    dsimp only at hnext ⊢
    split at hnext
    · rename_i hdrops
      cases hnext
      exact ⟨_, if_pos hdrops, hag.lockKeys v⟩
    · rename_i hstays
      cases hnext
      exact ⟨τ, if_neg hstays, hag⟩
  | leave r =>
    cases hnext
    exact ⟨_, rfl, hag.dropMaintenance v⟩
  | returned r => cases hnext

/-- The passphrase opens the account in both files or in neither. -/
theorem AccountRow.Like.verify_eq {ids : AccountId → AccountId → Prop} {row row' : AccountRow}
    (h : row.Like ids row') (p : Passphrase) : row'.verifyPassphrase p = row.verifyPassphrase p := by
  rw [h.rest]
  rfl

theorem changePassphraseIn_lockstep {ids : AccountId → AccountId → Prop} {a a' b : WalletDatabase}
    {old new : Passphrase} {r : Except BridgeError Unit} (hag : a.Agree W ids b) (hw : W w)
    (hchange : changePassphraseIn a w old new = (r, a')) :
    ∃ b', changePassphraseIn b w old new = (r, b') ∧ a'.Agree W ids b' := by
  have hrel := hag.accounts w hw
  unfold changePassphraseIn at hchange ⊢
  cases ha : a.getAccountByName w <;> cases hb : b.getAccountByName w <;> rw [ha, hb] at hrel <;>
    cases hrel <;> simp only [ha] at hchange
  · obtain ⟨rfl, rfl⟩ := Prod.mk.inj hchange
    exact ⟨b, rfl, hag⟩
  · rename_i row row' hlike
    dsimp only
    rw [hlike.verify_eq]
    split at hchange <;> obtain ⟨rfl, rfl⟩ := Prod.mk.inj hchange
    · exact ⟨b, rfl, hag⟩
    · exact ⟨_, rfl, hag.rewrite w new⟩

theorem ChangePassphrase.lockstep {p p' : ChangePassphrase} (hag : σ.Agree W mine ρ τ)
    (hσ : σ.OnOne path tariCommon) (hτ : τ.OnOne path tariCommon) (hpath : σ.db.path = some path)
    (hpath' : τ.db.path = some path) (hw : W p.walletName)
    (hmine : ∀ d, (Call.changePassphrase p).follows = some d → mine d)
    (hnext : p.next me ch σ = some (p', σ')) :
    ∃ τ', p.next me ch τ = some (p', τ') ∧ σ'.Agree W mine ρ τ' := by
  obtain ⟨v, old, new, pos⟩ := p
  unfold next at hnext ⊢
  cases pos with
  | conn | connAgain =>
    dsimp only at hnext ⊢
    rw [hσ.connection hτ hpath hpath']
    split at hnext <;> cases hnext <;> exact ⟨τ, rfl, hag⟩
  | verify file =>
    dsimp only at hnext ⊢
    split at hnext
    · cases hnext
      exact ⟨τ, rfl, hag⟩
    rcases hag.account hw file with ⟨ha, hb⟩ | ⟨row, row', ha, hb, hlike⟩
    · rw [ha] at hnext
      rw [hb]
      cases hnext
      exact ⟨τ, rfl, hag⟩
    · rw [ha] at hnext
      rw [hb]
      dsimp only at hnext ⊢
      rw [hlike.verify_eq]
      split at hnext <;> cases hnext <;> exact ⟨τ, rfl, hag⟩
  | «begin» =>
    obtain ⟨σ₁, hbegin, hnext⟩ := Option.map_eq_some_iff.mp hnext
    cases hnext
    obtain ⟨τ', hτ', hag'⟩ := hag.beginMaintenance hw hbegin
    exact ⟨τ', by dsimp only; rw [hτ']; rfl, hag'⟩
  | stop s =>
    have hmine' : ∀ d, s = .wait d → mine d := by
      rintro d rfl
      exact hmine d rfl
    dsimp only at hnext ⊢
    split at hnext <;> cases hnext <;> obtain ⟨τ', hτ', hag'⟩ := StopAt.lockstep hag hw hmine' ‹_› <;>
      exact ⟨τ', by rw [hτ'], hag'⟩
  | write file =>
    dsimp only at hnext ⊢
    split at hnext
    · rename_i hdrops
      cases hnext
      exact ⟨_, if_pos hdrops, hag.lockKeys v⟩
    rename_i hstays
    rw [if_neg hstays]
    split at hnext
    · cases hnext
      exact ⟨τ, rfl, hag⟩
    · obtain ⟨r, a', hchange⟩ : ∃ r a', changePassphraseIn (σ.files file) v old new = (r, a') :=
        ⟨_, _, rfl⟩
      rw [hchange] at hnext
      cases hnext
      obtain ⟨b', hb', hfile⟩ := changePassphraseIn_lockstep (hag.files file) hw hchange
      exact ⟨_, by rw [hb'], hag.setFile hfile⟩
  | settle file r =>
    dsimp only at hnext ⊢
    split at hnext
    · rename_i hdrops
      cases hnext
      exact ⟨_, if_pos hdrops, hag.lockKeys v⟩
    · rename_i hstays
      cases hnext
      exact ⟨τ, if_neg hstays, hag⟩
  | leave r =>
    cases hnext
    exact ⟨_, rfl, hag.dropMaintenance v⟩
  | returned r => cases hnext

theorem AbandonSend.lockstep {a a' : AbandonSend} {j : AccountId} (hag : σ.Agree W mine ρ τ)
    (hσ : σ.OnOne path tariCommon) (hτ : τ.OnOne path tariCommon) (hpath : σ.db.path = some path)
    (hpath' : τ.db.path = some path) (hw : W a.walletName)
    (hmine : ∀ d, (Call.abandonSend a).follows = some d → mine d)
    (haccount : ∀ i, a.pos.account = some i → ρ.account path i j)
    (hfile : ∀ file, a.pos.file = some file → file = path) (hnext : a.next me ch σ = some (a', σ')) :
    ∃ j' τ', (a.to (a.pos.withAccount j)).next me ch τ = some (a'.to (a'.pos.withAccount j'), τ') ∧
      (∀ i, a'.pos.account = some i → ρ.account path i j') ∧
      (∀ file, a'.pos.file = some file → file = path) ∧ σ'.Agree W mine ρ τ' := by
  have hconn : τ.getDbConnection ch = σ.getDbConnection ch := hσ.connection hτ hpath hpath' ch
  have hon {file : PathBuf} (h : σ.getDbConnection ch = .ok file) : file = path := by
    rw [hσ.getDbConnection_eq hpath] at h
    cases hpool : ch.poolError <;> rw [hpool] at h <;> cases h
    rfl
  obtain ⟨v, passphrase, transactionId, pos⟩ := a
  unfold next at hnext ⊢
  dsimp only [AbandonSend.to]
  cases pos with
  | conn =>
    dsimp only [AbandonAt.withAccount] at hnext ⊢
    rw [hconn]
    split at hnext
    · cases hnext
      exact ⟨j, τ, rfl, nofun, nofun, hag⟩
    · split at hnext <;> rename_i hgot <;> cases hnext
      · exact ⟨j, τ, rfl, nofun, nofun, hag⟩
      · refine ⟨j, τ, rfl, nofun, ?_, hag⟩
        intro file hf
        obtain rfl := Option.some.inj hf
        exact hon hgot
  | verify file =>
    obtain rfl := hfile file rfl
    dsimp only [AbandonAt.withAccount] at hnext ⊢
    split at hnext
    · cases hnext
      exact ⟨j, τ, rfl, nofun, nofun, hag⟩
    rcases hag.account hw file with ⟨ha, hb⟩ | ⟨row, row', ha, hb, hlike⟩
    · rw [ha] at hnext
      rw [hb]
      cases hnext
      exact ⟨j, τ, rfl, nofun, nofun, hag⟩
    · rw [ha] at hnext
      rw [hb]
      dsimp only at hnext ⊢
      rw [hlike.verify_eq]
      split at hnext <;> cases hnext
      · exact ⟨j, τ, rfl, nofun, nofun, hag⟩
      · refine ⟨row'.id, τ, rfl, ?_, nofun, hag⟩
        intro i hi
        obtain rfl := Option.some.inj hi
        exact hlike.id
  | «begin» account =>
    obtain ⟨σ₁, hbegin, hnext⟩ := Option.map_eq_some_iff.mp hnext
    cases hnext
    obtain ⟨τ', hτ', hag'⟩ := hag.beginMaintenance hw hbegin
    refine ⟨j, τ', ?_, haccount, nofun, hag'⟩
    dsimp only [AbandonAt.withAccount]
    rw [hτ']
    rfl
  | connCheck account =>
    dsimp only [AbandonAt.withAccount] at hnext ⊢
    rw [hconn]
    split at hnext <;> rename_i hgot <;> cases hnext
    · exact ⟨j, τ, rfl, nofun, nofun, hag⟩
    · refine ⟨j, τ, rfl, haccount, ?_, hag⟩
      intro file hf
      obtain rfl := Option.some.inj hf
      exact hon hgot
  | sameAccount file account =>
    obtain rfl := hfile file rfl
    dsimp only [AbandonAt.withAccount] at hnext ⊢
    split at hnext
    · cases hnext
      exact ⟨j, τ, rfl, nofun, nofun, hag⟩
    rcases hag.account hw file with ⟨ha, hb⟩ | ⟨row, row', ha, hb, hlike⟩
    · rw [ha] at hnext
      rw [hb]
      cases hnext
      exact ⟨j, τ, rfl, nofun, nofun, hag⟩
    · -- The two ids that are compared stand for the two that are compared in the second run.
      have hsame : row.id = account ↔ row'.id = j :=
        (hag.files file).ids.eq_iff hlike.id (haccount account rfl)
      rw [ha] at hnext
      rw [hb]
      dsimp only at hnext ⊢
      split at hnext <;> rename_i hid <;> cases hnext
      · exact ⟨j, τ, if_pos fun hid' => hid (hsame.mpr hid'), nofun, nofun, hag⟩
      · refine ⟨j, τ, if_neg ?_, haccount, nofun, hag⟩
        exact fun hid' => hid fun heq => hid' (hsame.mp heq)
  | stop s account =>
    have hmine' : ∀ d, s = .wait d → mine d := by
      rintro d rfl
      exact hmine d rfl
    dsimp only [AbandonAt.withAccount] at hnext ⊢
    split at hnext <;> cases hnext <;> obtain ⟨τ', hτ', hag'⟩ := StopAt.lockstep hag hw hmine' ‹_› <;>
      exact ⟨j, τ', by rw [hτ']; rfl, haccount, nofun, hag'⟩
  | connWrite account =>
    dsimp only [AbandonAt.withAccount] at hnext ⊢
    rw [hconn]
    split at hnext <;> rename_i hgot <;> cases hnext
    · exact ⟨j, τ, rfl, nofun, nofun, hag⟩
    · refine ⟨j, τ, rfl, haccount, ?_, hag⟩
      intro file hf
      obtain rfl := Option.some.inj hf
      exact hon hgot
  | abandon file account =>
    dsimp only [AbandonAt.withAccount] at hnext ⊢
    split at hnext <;> cases hnext <;> exact ⟨j, τ, rfl, nofun, nofun, hag⟩
  | leave r =>
    cases hnext
    exact ⟨j, _, rfl, nofun, nofun, hag.dropMaintenance v⟩
  | returned r => cases hnext

/-! ## Unlocks -/

/-- `session::unlock` fails alike, or leaves sessions of the same files. -/
theorem Shared.Agree.unlock (hag : σ.Agree W mine ρ τ) (hw : W w) (file : PathBuf) (p : Passphrase)
    (foreign : Bool) (serial serial' : Nat) :
    (∃ e, σ.keys.unlock file (σ.files file) w p foreign serial = .error e ∧
        τ.keys.unlock file (τ.files file) w p foreign serial' = .error e) ∨
      ∃ keys keys', σ.keys.unlock file (σ.files file) w p foreign serial = .ok keys ∧
        τ.keys.unlock file (τ.files file) w p foreign serial' = .ok keys' ∧
        ∀ v, W v → (keys' v).map (·.file) = (keys v).map (·.file) := by
  unfold KeySessions.unlock
  rw [hag.seen_eq hw]
  by_cases hseen : σ.keys.isUnlocked file w foreign = true
  · right
    exact ⟨_, _, if_pos hseen, if_pos hseen, hag.keys⟩
  rw [if_neg hseen, if_neg hseen]
  rcases hag.account hw file with ⟨ha, hb⟩ | ⟨row, row', ha, hb, hlike⟩
  · left
    rw [ha, hb]
    exact ⟨_, rfl, rfl⟩
  rw [ha, hb]
  dsimp only
  rw [hlike.verify_eq]
  cases row.verifyPassphrase p with
  | error e => exact Or.inl ⟨e, rfl, rfl⟩
  | ok _ =>
    refine Or.inr ⟨_, _, rfl, rfl, fun v hv => ?_⟩
    by_cases hvw : v = w
    · subst hvw
      simp
    · simp only [Function.update_of_ne hvw]
      exact hag.keys v hv

/-- Past its count an unlock names nothing new. -/
theorem UnlockWallet.lockstep_counted {u u' : UnlockWallet} {j : Nat} (hag : σ.Agree W mine ρ τ)
    (hw : W u.walletName) (hcount : u.pos ≠ .count)
    (hg : ∀ i, u.pos.generation = some i → ρ.generation i j) (hnext : u.next me ch σ = some (u', σ')) :
    ∃ τ', (u.to (u.pos.withGeneration j)).next me ch τ = some (u'.to (u'.pos.withGeneration j), τ') ∧
      σ'.Agree W mine ρ τ' := by
  obtain ⟨path, v, passphrase, pos⟩ := u
  unfold next at hnext ⊢
  dsimp only [UnlockWallet.to]
  cases pos with
  | count => exact absurd rfl hcount
  | gate g =>
    obtain ⟨σ₁, hhold, hnext⟩ := Option.map_eq_some_iff.mp hnext
    cases hnext
    obtain ⟨τ', hτ', hag'⟩ := hag.holdGate hw hhold
    exact ⟨τ', by dsimp only [UnlockAt.withGeneration]; rw [hτ']; rfl, hag'⟩
  | isUnlocked g =>
    dsimp only [UnlockAt.withGeneration] at hnext ⊢
    rw [hag.isUnlocked_eq hw]
    split at hnext
    · cases hnext
      exact ⟨τ, rfl, hag⟩
    · split at hnext <;> rename_i htold <;> cases hnext <;> exact ⟨τ, by rw [htold]; rfl, hag⟩
  | verify g =>
    dsimp only [UnlockAt.withGeneration] at hnext ⊢
    split at hnext
    · cases hnext
      exact ⟨τ, rfl, hag⟩
    rcases hag.account hw path with ⟨ha, hb⟩ | ⟨row, row', ha, hb, hlike⟩
    · rw [ha] at hnext
      rw [hb]
      cases hnext
      exact ⟨τ, rfl, hag⟩
    · rw [ha] at hnext
      rw [hb]
      dsimp only at hnext ⊢
      rw [hlike.verify_eq]
      split at hnext <;> cases hnext <;> exact ⟨τ, rfl, hag⟩
  | isUnlockedAgain g =>
    dsimp only [UnlockAt.withGeneration] at hnext ⊢
    rw [hag.isUnlocked_eq hw]
    split at hnext <;> rename_i htold <;> cases hnext <;> exact ⟨τ, by rw [htold]; rfl, hag⟩
  | unlock g =>
    dsimp only [UnlockAt.withGeneration] at hnext ⊢
    split at hnext
    · cases hnext
      exact ⟨τ, rfl, hag⟩
    rcases hag.unlock hw path passphrase ch.foreign σ.nextSerial τ.nextSerial with
      ⟨e, ha, hb⟩ | ⟨keys, keys', ha, hb, hkeys⟩
    · rw [ha] at hnext
      rw [hb]
      cases hnext
      exact ⟨τ, rfl, hag⟩
    · rw [ha] at hnext
      rw [hb]
      cases hnext
      exact ⟨_, rfl, { hag with keys := hkeys }⟩
  | failed g e =>
    dsimp only [UnlockAt.withGeneration] at hnext ⊢
    split at hnext <;> cases hnext <;>
      obtain ⟨τ', hτ', hag'⟩ := hag.releaseFailed hw (hg g rfl) ‹_› <;>
      exact ⟨τ', by rw [hτ']; rfl, hag'⟩
  | confirm g =>
    dsimp only [UnlockAt.withGeneration] at hnext ⊢
    have hstill : τ.db.stillCounted v j = σ.db.stillCounted v g := hag.db.stillCounted_eq hw (hg g rfl)
    split at hnext <;> cases hnext
    · rename_i hcounted
      exact ⟨τ, if_pos (hstill.trans hcounted), hag⟩
    · rename_i hgone
      exact ⟨τ, if_neg fun hcounted => hgone (hstill.symm.trans hcounted), hag⟩
  | lockHeld h g e =>
    dsimp only [UnlockAt.withGeneration] at hnext ⊢
    split at hnext <;> cases hnext <;> obtain ⟨τ', hτ', hag'⟩ := GateHeldAt.lockstep hag hw ‹_› <;>
      exact ⟨τ', by rw [hτ']; rfl, hag'⟩
  | leave g r =>
    cases hnext
    exact ⟨_, rfl, hag.dropGate v⟩
  | returned g r => cases hnext

/-- An unlock that counts in the first run counts in the second, into the generation that stands for the
first's. -/
theorem UnlockWallet.lockstep {u u' : UnlockWallet} {j : Nat} (hag : σ.Agree W mine ρ τ)
    (hσ : σ.OnOne path tariCommon) (hτ : τ.OnOne path tariCommon) (hw : W u.walletName) (hpath : u.path = path)
    (hg : ∀ i, u.pos.generation = some i → ρ.generation i j) (hnext : u.next me ch σ = some (u', σ')) :
    ∃ ρ' ch' j' τ', ρ.Grows none ρ' ∧ ch.Same ch' ∧
      (u.to (u.pos.withGeneration j)).next me ch' τ = some (u'.to (u'.pos.withGeneration j'), τ') ∧
      (∀ i, u'.pos.generation = some i → ρ'.generation i j') ∧ σ'.Agree W mine ρ' τ' := by
  -- Only the count hands out a generation, and only it may open the pool.
  by_cases hcount : u.pos = .count
  · obtain ⟨path', v, passphrase, pos⟩ := u
    obtain rfl : path' = path := hpath
    obtain rfl : pos = .count := hcount
    unfold next at hnext
    dsimp only at hnext
    split at hnext <;> cases hnext
    · rename_i hcount
      rcases hag.count hw hσ.db hτ.db hcount with ⟨e, τ', he, hτ', hag'⟩ | ⟨g, g', ρ', ch', τ', he, -⟩
      · cases he
        refine ⟨ρ, ch, j, τ', .refl _ ρ, Or.inl rfl, ?_, nofun, hag'⟩
        unfold next
        dsimp only [UnlockWallet.to, UnlockAt.withGeneration]
        rw [hτ']
        rfl
      · cases he
    · rename_i hcount
      rcases hag.count hw hσ.db hτ.db hcount with ⟨e, τ', he, -⟩ |
        ⟨g, g', ρ', ch', τ', he, hle, hch, hτ', hgen, hag'⟩
      · cases he
      · cases he
        refine ⟨ρ', ch', g', τ', hle, hch, ?_, ?_, hag'⟩
        · unfold next
          dsimp only [UnlockWallet.to, UnlockAt.withGeneration]
          rw [hτ']
        · intro i hi
          obtain rfl := Option.some.inj hi
          exact hgen
  · obtain ⟨τ', hτ', hag'⟩ := UnlockWallet.lockstep_counted hag hw hcount hg hnext
    have hcounted : ∃ g, u.pos.generation = some g := by
      obtain ⟨path', v, passphrase, pos⟩ := u
      cases pos with
      | count => exact absurd rfl hcount
      | returned g r => cases hnext
      | _ => exact ⟨_, rfl⟩
    obtain ⟨g, hgen⟩ := hcounted
    have hkept := (UnlockWallet.next_same hnext).2.2.2 g hgen
    refine ⟨ρ, ch, j, τ', .refl _ ρ, Or.inl rfl, hτ', fun i hi => hg i ?_, hag'⟩
    rw [hgen, ← hkept, hi]

end CwTariWallet
