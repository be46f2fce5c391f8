/-
# CwTariWallet.Isolation.Bystanders -- the second run takes no notice of the others

A step of a call on a wallet outside `W` leaves the first run in agreement with the second, which does not
take it (`Call.Aside.next`).  Part by part: it touches no entry, gate, key session, account, slot or
maintenance lock but its own wallet's, no handle but its own, and no token but its own wallet's scans'.
-/
import CwTariWallet.Bridge.Counts
import CwTariWallet.Bridge.FileSteps
import CwTariWallet.Bridge.KeyRefinement
import CwTariWallet.Bridge.SlotRefinement
import CwTariWallet.Isolation.Agreement

namespace CwTariWallet

open Interleaving

variable {W : WalletName → Prop} {mine : CallId → Prop} {ρ : Renaming} {σ σ' τ : Shared}
variable {v w : WalletName} {me : CallId} {ch : Choice} {call call' : Call}

/-! ## Entries -/

theorem DbState.releaseOne_lookup {state state' : DbState} {zero : Bool}
    (h : state.releaseOne v = (zero, state')) (hne : w ≠ v) :
    state'.sessions.lookup w = state.sessions.lookup w := by
  rcases releaseOne_cases h with ⟨-, -, rfl⟩ | ⟨session, rest, -, -, -, -, rfl⟩ | ⟨session, -, -, -, rfl⟩
  · rfl
  · exact AList.lookup_insert_ne hne
  · rw [removeSession_lookup, if_neg hne]

theorem Call.wallet_of_removes (h : call.removes = some v) : call.wallet = some v := by
  unfold removes at h
  split at h
  · split at h
    · exact h
    · cases h
  · split at h
    · exact h
    · exact h
    · cases h
  · cases h

/-- A step touches the entry of its own wallet alone. -/
theorem DbStep.lookup_elsewhere (h : DbStep me call σ call' σ') (hv : call.wallet = some v) (hne : w ≠ v) :
    σ'.db.sessions.lookup w = σ.db.sessions.lookup w := by
  cases h with
  | same hdb _ => rw [hdb]
  | setPath _ _ => cases hv
  | countError _ hcount =>
    -- A count that fails may record the path, which is nobody's entry.
    obtain ⟨db, rfl, rfl | ⟨rfl, -⟩⟩ := Shared.count_error hcount <;> rfl
  | count _ hcount =>
    obtain rfl := Option.some.inj hv
    obtain ⟨db, files, rfl, hacquire, -⟩ := Shared.count_ok hcount
    rw [DbState.acquireSession_lookup hacquire, if_neg hne]
  | release _ hrel _ =>
    obtain rfl := Option.some.inj hv
    obtain ⟨db, hone, rfl⟩ := Shared.releaseSession_eq hrel
    exact DbState.releaseOne_lookup hone hne
  | giveBack _ hgive _ =>
    obtain rfl := Option.some.inj hv
    rcases Shared.releaseFailed_eq hgive with ⟨-, db, hone, rfl⟩ | ⟨-, -, rfl⟩
    · exact DbState.releaseOne_lookup hone hne
    · rfl
  | remove hremoves =>
    obtain rfl := Option.some.inj ((Call.wallet_of_removes hremoves).symm.trans hv)
    show (σ.db.removeSession _).sessions.lookup w = _
    rw [DbState.removeSession_lookup, if_neg hne]

/-! ## Gates, key sessions and maintenance locks -/

theorem Call.keyPhase_elsewhere (hv : call.wallet ≠ some w) : call.keyPhase w = .out := by
  cases call <;> simp only [wallet, ne_eq, Option.some.injEq] at hv <;> simp [keyPhase, hv]

theorem Call.slotPhase_elsewhere (hv : call.wallet ≠ some w) :
    call.slotPhase w = .out ∨ call.slotPhase w = .done := by
  cases call with
  | scan x =>
    have hne : x.walletName ≠ w := fun h => hv (congrArg some h)
    simp only [slotPhase, if_neg hne]
    cases x.pos <;> first | exact Or.inl rfl | exact Or.inr rfl
  | _ =>
    left
    simp only [wallet, ne_eq, Option.some.injEq] at hv
    simp [slotPhase, hv]

theorem KeyProtocol.Step.gate_of_out {u u' : KeyProtocol.View}
    (h : KeyProtocol.Step me .out u .out u') : u'.gate = u.gate := by
  cases h
  rfl

theorem SlotProtocol.Step.maintenance_of_out {p p' : SlotProtocol.Phase} {u u' : SlotProtocol.View}
    (h : SlotProtocol.Step me p u p' u') (hp : p = .out ∨ p = .done) (hp' : p' = .out ∨ p' = .done) :
    u'.maintenance = u.maintenance := by
  cases h with
  | tick _ => rfl
  | stop => rfl
  | _ => simp at hp hp'

theorem Call.gates_elsewhere (h : call.next me ch σ = some (call', σ')) (hv : call.wallet ≠ some w) :
    σ'.gates w = σ.gates w := by
  have hv' : call'.wallet ≠ some w := by rwa [Call.next_wallet h]
  have hstep := Call.keyStep (w := w) h
  rw [Call.keyPhase_elsewhere hv, Call.keyPhase_elsewhere hv'] at hstep
  exact hstep.gate_of_out

theorem Call.keys_elsewhere (h : call.next me ch σ = some (call', σ')) (hv : call.wallet ≠ some w) :
    σ'.keys w = σ.keys w := by
  have hout := Call.keyPhase_elsewhere hv
  cases Call.keysStep h with
  | same hkeys _ => rw [hkeys]
  | stored _ hunlock => exact KeySessions.unlock_ne (fun heq => hv (congrArg some heq)) hunlock
  | @locked u _ _ _ hlocking _ =>
    have hne : w ≠ u := by
      rintro rfl
      rw [hout] at hlocking
      cases hlocking
    exact KeySessions.lock_ne _ hne
  | @dropped u _ _ hmaintains =>
    have hne : w ≠ u := by
      rintro rfl
      rw [hout] at hmaintains
      cases hmaintains
    exact KeySessions.lock_ne _ hne

theorem Call.maintenance_elsewhere {ok : Guard Shared Call} {s : World} (hs : system.Reach ok s)
    (hc : s.calls me = some call) (h : call.next me ch s.shared = some (call', σ'))
    (hv : call.wallet ≠ some w) : σ'.maintenance w = s.shared.maintenance w := by
  have hv' : call'.wallet ≠ some w := by rwa [Call.next_wallet h]
  exact (Call.slotStep (w := w) hs hc h).maintenance_of_out (Call.slotPhase_elsewhere hv)
    (Call.slotPhase_elsewhere hv')

/-! ## Files -/

/-- Only rows of one file, or accounts of names outside `W`, are written. -/
theorem FilesStep.aside (hag : σ.Agree W mine ρ τ) (h : FilesStep call σ call' σ') (hv : call.wallet = some v)
    (hout : ¬ W v) {path : PathBuf} (hfits : call.Fits W path) (file : PathBuf) :
    (σ'.files file).Agree W (ρ.account file) (τ.files file) := by
  have hfile := hag.files file
  -- One file is written, so it is enough to look at what is written there.
  have write {path : PathBuf} {db : WalletDatabase} (hfiles : σ'.files = (σ.setFile path db).files)
      (hdb : file = path → db.Agree W (ρ.account file) (τ.files file)) :
      (σ'.files file).Agree W (ρ.account file) (τ.files file) := by
    rw [hfiles]
    unfold Shared.setFile
    by_cases hf : file = path
    · subst hf
      simpa using hdb rfl
    · simpa [hf] using hfile
  have other {u : WalletName} (hu : W u) : u ≠ v := by
    rintro rfl
    exact hout hu
  cases h with
  | same hfiles =>
    rw [hfiles]
    exact hfile
  | swept hfiles =>
    refine write hfiles ?_
    rintro rfl
    exact hfile.releaseLeft _
  | @changed m path _ _ _ ch _ happly =>
    obtain rfl := Option.some.inj hv
    refine write rfl ?_
    rintro rfl
    unfold WalletChange.apply at happly
    split at happly
    · -- A delete.
      split at happly <;> obtain ⟨-, rfl⟩ := Prod.mk.inj happly
      · exact hfile
      · refine hfile.leftOnly (fun u hu => ?_) (fun _ hrow => hrow) (Nat.le_refl _)
        rw [WalletDatabase.getAccountByName_deleteWallet, if_neg (other hu)]
    · -- A rename, between two names outside `W`.
      rename_i new hchange
      have hnew : ¬ W new := fun hnew => hout ((hfits new hchange).mpr hnew)
      split at happly <;> obtain ⟨-, rfl⟩ := Prod.mk.inj happly
      · exact hfile
      · rename_i hgoes
        simp only [Bool.or_eq_true, not_or, Bool.not_eq_true] at hgoes
        have hfree : (σ.files file).getAccountByName new = none := by simpa using hgoes.2
        have hne : m.walletName ≠ new := by
          intro heq
          rw [heq, hfree] at hgoes
          simp at hgoes
        refine hfile.leftOnly (fun u hu => ?_) (fun _ hrow => hrow) (Nat.le_refl _)
        have hunew : u ≠ new := by
          rintro rfl
          exact hnew hu
        rw [WalletDatabase.getAccountByName_renameWallet hne hfree, if_neg hunew, if_neg (other hu)]
  | @rewritten p path _ _ _ _ hchange =>
    obtain rfl := Option.some.inj hv
    refine write rfl ?_
    rintro rfl
    unfold changePassphraseIn at hchange
    (repeat' split at hchange) <;> obtain ⟨-, rfl⟩ := Prod.mk.inj hchange
    · exact hfile
    · exact hfile
    · refine hfile.leftOnly (fun u hu => ?_) (fun _ hrow => hrow) (Nat.le_refl _)
      rw [WalletDatabase.getAccountByName_rewrite]
      cases hrow : (σ.files file).getAccountByName u with
      | none => rfl
      | some row =>
        have hname : row.friendlyName ≠ p.walletName := by
          rw [WalletDatabase.getAccountByName_name hrow]
          exact other hu
        simp [hname]
  | @created c path _ _ _ _ =>
    obtain rfl := Option.some.inj hv
    refine write rfl ?_
    rintro rfl
    refine hfile.leftOnly (fun u hu => ?_) (fun _ hrow => hrow) (Nat.le_succ _)
    rw [WalletDatabase.getAccountByName_addAccount, if_neg (other hu)]
  | @reserved _ _ sender row inputs _ _ _ =>
    refine write rfl ?_
    intro heq
    rw [← heq]
    exact hfile.reserveLeft row inputs
  | @completed _ _ sender row _ _ =>
    refine write rfl ?_
    intro heq
    rw [← heq]
    exact hfile.completeLeft row
  | @expired _ _ path row _ =>
    refine write rfl ?_
    rintro rfl
    exact hfile.expireLeft row

/-! ## Scans -/

/-- The id of the handle a call works under. -/
def Call.handleId : Call → Option Nat
  | .scan x => if x.handle.walletName = x.walletName then some x.handle.id else none
  | .stopScan s => some s.handle.id
  | call => call.fetchedId

/-- A call outside `W`: neither it nor the scan in its wallet's slot is `mine`, and its handle is nobody's
in `W`. -/
structure Call.Aside (W : WalletName → Prop) (mine : CallId → Prop) (ρ : Renaming) (me : CallId) (call : Call)
    (v : WalletName) (σ : Shared) : Prop where
  wallet : call.wallet = some v
  outside : ¬ W v
  self : ¬ mine me
  slot : ∀ k, σ.scans.running.lookup v = some k → ¬ mine k.scan
  handle : ∀ i j, call.handleId = some i → ¬ ρ.handle i j
  own : ∀ x, call = .scan x → x.pos.stage ≠ .before → x.pos.stage ≠ .over →
    x.handle.walletName = x.walletName

/-- The scans of the two states, with the tokens and the handles. -/
structure Shared.AgreeScans (W : WalletName → Prop) (mine : CallId → Prop) (ρ : Renaming) (σ τ : Shared) :
    Prop where
  scans : σ.scans.Agree W mine ρ.handle τ.scans
  handles : Pairing ρ.handle σ.scanId τ.scanId
  tokens : σ.tokens.Agree mine τ.tokens

namespace Shared.AgreeScans

theorem same (h : σ.AgreeScans W mine ρ τ) (hsame : SameScans σ σ') : σ'.AgreeScans W mine ρ τ := by
  constructor
  · rw [hsame.scans]
    exact h.scans
  · rw [hsame.scanId]
    exact h.handles
  · rw [hsame.tokens]
    exact h.tokens

theorem cancelAside (h : σ.AgreeScans W mine ρ τ) (hout : ¬ W v)
    (hslot : ∀ k, σ.scans.running.lookup v = some k → ¬ mine k.scan) :
    (σ.cancelWalletScans v).2.AgreeScans W mine ρ τ := by
  rw [Shared.cancelWalletScans_eq]
  refine ⟨h.scans.leftOnly (fun _ _ _ => Iff.rfl) (fun _ _ _ => Iff.rfl) ?_ (fun _ _ => rfl), h.handles, ?_⟩
  · intro i j hij
    rw [Table.lookup_retain]
    cases hi : σ.scans.starting.lookup i with
    | none => rfl
    -- A paired id about to start is a wallet's in `W`, so it is not forgotten.
    | some u =>
      have hne : u ≠ v := by
        rintro rfl
        exact hout (h.scans.owned hij hi)
      simp [hne]
  · cases hrun : σ.scans.running.lookup v with
    | none => exact h.tokens
    | some k =>
      refine h.tokens.leftOnly fun c hc => ?_
      have hne : c ≠ k.scan := by
        rintro rfl
        exact hslot k hrun hc
      simp [TokenMap.cancel, hne]

theorem cancelsOwn (h : σ.AgreeScans W mine ρ τ) (hout : ¬ W v)
    (hslot : ∀ k, σ.scans.running.lookup v = some k → ¬ mine k.scan) (hcancels : CancelsOwn v σ σ') :
    σ'.AgreeScans W mine ρ τ := by
  rcases hcancels.scans with hsame | hsame
  · exact h.same hsame
  · exact (h.cancelAside hout hslot).same hsame

/-- Handles that are not paired come and go. -/
theorem handleAside (h : σ.AgreeScans W mine ρ τ) {scans : ScanState} {i : Nat}
    (hi : ∀ j, ¬ ρ.handle i j) (hissued : ∀ id, id ≠ i → (id ∈ scans.issued ↔ id ∈ σ.scans.issued))
    (hstopped : ∀ id, id ≠ i → (id ∈ scans.stoppedBeforeStart ↔ id ∈ σ.scans.stoppedBeforeStart))
    (hstarting : ∀ id, id ≠ i → scans.starting.lookup id = σ.scans.starting.lookup id)
    (hrunning : ∀ w, W w → scans.running.lookup w = σ.scans.running.lookup w) :
    ({ σ with scans := scans } : Shared).AgreeScans W mine ρ τ := by
  have hne {id j : Nat} (hid : ρ.handle id j) : id ≠ i := by
    rintro rfl
    exact hi j hid
  refine ⟨h.scans.leftOnly ?_ ?_ ?_ hrunning, h.handles, h.tokens⟩
  · exact fun id j hid => hissued id (hne hid)
  · exact fun id j hid => hstopped id (hne hid)
  · exact fun id j hid => hstarting id (hne hid)

theorem tokensAside (h : σ.AgreeScans W mine ρ τ) {tokens : TokenMap}
    (htokens : ∀ c, mine c → tokens c = σ.tokens c) :
    ({ σ with tokens := tokens } : Shared).AgreeScans W mine ρ τ :=
  ⟨h.scans, h.handles, h.tokens.leftOnly htokens⟩

theorem unstartAside (h : σ.AgreeScans W mine ρ τ) {i : Nat} (hi : ∀ j, ¬ ρ.handle i j) :
    ({ σ with scans := σ.scans.unstart i } : Shared).AgreeScans W mine ρ τ := by
  refine h.handleAside hi (fun _ _ => Iff.rfl) (fun _ _ => Iff.rfl) (fun id hid => ?_) (fun _ _ => rfl)
  exact AList.lookup_erase_ne hid

/-- A slot outside `W` is cleared. -/
theorem clearAside (h : σ.AgreeScans W mine ρ τ) (hout : ¬ W v) (id : Nat) :
    ({ σ with scans := σ.scans.clearScanIfCurrent v id } : Shared).AgreeScans W mine ρ τ := by
  unfold ScanState.clearScanIfCurrent
  split
  · refine ⟨h.scans.leftOnly (fun _ _ _ => Iff.rfl) (fun _ _ _ => Iff.rfl) (fun _ _ _ => rfl) fun u hu => ?_,
      h.handles, h.tokens⟩
    refine AList.lookup_erase_ne ?_
    rintro rfl
    exact hout hu
  · exact h

end Shared.AgreeScans

/-- A scan outside `W` works under a handle of its own, in its own slot. -/
theorem Scan.aside {x x' : Scan} (hag : σ.AgreeScans W mine ρ τ) (h : Call.Aside W mine ρ me (.scan x) v σ)
    (hnext : x.next me ch σ = some (x', σ')) : σ'.AgreeScans W mine ρ τ := by
  obtain rfl : x.walletName = v := Option.some.inj h.wallet
  -- A scan under another wallet's handle is refused at its claim, so only its own can be touched.
  have hhandle (hown : x.handle.walletName = x.walletName) : ∀ j, ¬ ρ.handle x.handle.id j :=
    fun j => h.handle _ j (if_pos hown)
  have hown (hbefore : x.pos.stage ≠ .before) (hover : x.pos.stage ≠ .over) :
      ∀ j, ¬ ρ.handle x.handle.id j := hhandle (h.own x rfl hbefore hover)
  have hnot {u : WalletName} (hu : W u) : u ≠ x.walletName := by
    rintro rfl
    exact h.outside hu
  have htoken {c : CallId} (hc : mine c) : c ≠ me := by
    rintro rfl
    exact h.self hc
  obtain ⟨handle, v, priority, continuous, rescanFrom, pos, dbPath, forwarder, checked, swept, rolledBack⟩ := x
  dsimp only at hhandle hown hnot
  have hslot := h.slot
  have hreceive (event : ProcessingEvent) (accepts : Bool) :
      (Scan.receive
        ⟨handle, v, priority, continuous, rescanFrom, pos, dbPath, forwarder, checked, swept, rolledBack⟩
        me σ event accepts).2.AgreeScans W mine ρ τ := by
    obtain ⟨_, -, hσ | hσ⟩ := Scan.receive_eq
      ⟨handle, v, priority, continuous, rescanFrom, pos, dbPath, forwarder, checked, swept, rolledBack⟩
      me σ event accepts <;> rw [hσ]
    · exact hag
    · exact hag.tokensAside fun c hc => by simp [TokenMap.cancel, htoken hc]
  unfold next at hnext
  cases pos with
  | claim =>
    dsimp only at hnext
    split at hnext
    · cases hnext
      exact hag
    rename_i hsame
    have hid := hhandle (not_not.mp hsame)
    split at hnext <;> cases hnext
    all_goals
      rcases ScanState.claim_cases ‹_› with ⟨hr, rfl⟩ | ⟨hr, rfl⟩ | ⟨hr, -, rfl⟩ <;> cases hr
    · refine hag.handleAside hid (fun _ _ => Iff.rfl) (fun id hne => ?_) (fun _ _ => rfl) (fun _ _ => rfl)
      simp [hne]
    · exact hag
    · refine hag.handleAside hid (fun id hne => ?_) (fun _ _ => Iff.rfl) (fun id hne => ?_) (fun _ _ => rfl)
      · simp [hne]
      · exact AList.lookup_insert_ne hne
  | maintenance =>
    obtain ⟨σ₁, hbegin, hnext⟩ := Option.map_eq_some_iff.mp hnext
    obtain ⟨-, rfl⟩ := Shared.beginMaintenance_eq_some hbegin
    cases hnext
    exact hag.same ⟨rfl, rfl, rfl⟩
  | slot =>
    have hid := hown (by rintro ⟨⟩) (by rintro ⟨⟩)
    dsimp only at hnext
    split at hnext <;> cases hnext
    all_goals
      rcases Shared.enterSlot_eq ‹_› with ⟨hr, rfl, -⟩ | ⟨e, hr, rfl⟩ | ⟨wallet, -, hr, rfl⟩ <;> cases hr
    · exact hag.unstartAside hid
    · exact hag
    · have hentered : ({ σ with scans := { σ.scans.unstart handle.id with
          running := σ.scans.running.insert v ⟨handle.id, priority, me⟩ } } : Shared).AgreeScans
          W mine ρ τ := by
        refine hag.handleAside hid (fun _ _ => Iff.rfl) (fun _ _ => Iff.rfl) (fun id hne => ?_)
          fun u hu => ?_
        · exact AList.lookup_erase_ne hne
        · exact AList.lookup_insert_ne (hnot hu)
      -- Whom it replaces is a scan of its own wallet.
      refine hentered.tokensAside fun c hc => ?_
      cases hrun : σ.scans.running.lookup v with
      | none => rfl
      | some old =>
        refine TokenMap.replace_ne ?_
        rintro rfl
        exact hslot old hrun hc
  | clear outcome =>
    dsimp only at hnext
    split at hnext <;> cases hnext <;> exact hag.clearAside h.outside handle.id
  | running | draining result =>
    dsimp only at hnext
    split at hnext
    · cases hnext
      exact hreceive _ _
    · (repeat' split at hnext) <;> cases hnext <;> exact hag.same ⟨rfl, rfl, rfl⟩
  | unstart outcome =>
    cases hnext
    exact hag.unstartAside (hown (by rintro ⟨⟩) (by rintro ⟨⟩))
  | stop r =>
    cases hnext
    exact hag.tokensAside fun c hc => by simp [TokenMap.stop, htoken hc]
  | terminal outcome =>
    cases hnext
    exact hag.same ⟨rfl, rfl, rfl⟩
  | sweepConn | sweep file =>
    cases rescanFrom <;> dsimp only at hnext <;> (repeat' split at hnext) <;> cases hnext <;>
      exact hag.same ⟨rfl, rfl, rfl⟩
  | dropMaintenance previous =>
    cases previous <;> cases hnext <;> exact hag.same ⟨rfl, rfl, rfl⟩
  | _ =>
    dsimp only at hnext
    (repeat' split at hnext) <;> cases hnext <;> exact hag.same ⟨rfl, rfl, rfl⟩

theorem StopScan.aside {x x' : StopScan} (hag : σ.AgreeScans W mine ρ τ)
    (h : Call.Aside W mine ρ me (.stopScan x) v σ) (hnext : x.next σ = some (x', σ')) :
    σ'.AgreeScans W mine ρ τ := by
  obtain rfl : x.handle.walletName = v := Option.some.inj h.wallet
  have hid : ∀ j, ¬ ρ.handle x.handle.id j := fun j => h.handle _ j rfl
  have stopped {r : Option CallId} (hstop : σ.stopScan x.handle = (r, σ')) :
      σ'.AgreeScans W mine ρ τ := by
    obtain ⟨_, scans, tokens, hs⟩ : ∃ r scans tokens, σ.scans.stopScan σ.tokens x.handle =
      (r, scans, tokens) := ⟨_, _, _, rfl⟩
    simp only [Shared.stopScan, hs] at hstop
    obtain ⟨-, rfl⟩ := Prod.mk.inj hstop
    rcases ScanState.stopScan_cases hs with ⟨-, -, rfl, rfl⟩ | ⟨-, -, -, rfl, rfl⟩ |
      ⟨k, hk, -, -, rfl, rfl⟩ | ⟨-, -, -, -, rfl, rfl⟩
    · refine hag.handleAside hid (fun id hne => ?_) (fun id hne => ?_) (fun _ _ => rfl) (fun _ _ => rfl)
      · simp [hne]
      · simp [hne]
    · refine hag.handleAside hid (fun _ _ => Iff.rfl) (fun _ _ => Iff.rfl) (fun id hne => ?_) (fun _ _ => rfl)
      exact AList.lookup_erase_ne hne
    · refine hag.tokensAside fun c hc => ?_
      have hne : c ≠ k.scan := by
        rintro rfl
        exact h.slot k hk hc
      simp [TokenMap.cancel, hne]
    · exact hag
  unfold next at hnext
  split at hnext
  · split at hnext <;> cases hnext <;> exact stopped ‹_›
  · split at hnext <;> cases hnext
    exact hag
  · cases hnext

theorem CreateScanHandle.aside {x x' : CreateScanHandle} (hag : σ.AgreeScans W mine ρ τ)
    (h : Call.Aside W mine ρ me (.createScanHandle x) v σ) (hnext : x.next σ = some (x', σ')) :
    σ'.AgreeScans W mine ρ τ := by
  obtain ⟨v, pos⟩ := x
  unfold next at hnext
  cases pos with
  | fetch =>
    cases hnext
    -- The id it takes stays unpaired: the second run's counter stands still.
    exact ⟨hag.scans, hag.handles.mono (Nat.le_succ _) (Nat.le_refl _), hag.tokens⟩
  | insert id =>
    cases hnext
    have hid : ∀ j, ¬ ρ.handle id j := fun j => h.handle id j rfl
    refine hag.handleAside hid (fun other hne => ?_) (fun _ _ => Iff.rfl) (fun _ _ => rfl) (fun _ _ => rfl)
    simp [ScanState.issue, hne]
  | returned handle => cases hnext

/-- No step of a call outside `W` touches the scans of the wallets in `W`. -/
theorem Call.scansAside (hag : σ.AgreeScans W mine ρ τ) (h : call.Aside W mine ρ me v σ)
    (hnext : call.next me ch σ = some (call', σ')) : σ'.AgreeScans W mine ρ τ := by
  have cancels {v' : WalletName} (hcancels : CancelsOwn v' σ σ') (hv' : call.wallet = some v') :
      σ'.AgreeScans W mine ρ τ := by
    obtain rfl : v' = v := Option.some.inj (hv'.symm.trans h.wallet)
    exact hag.cancelsOwn h.outside h.slot hcancels
  cases call <;> obtain ⟨⟨x', σ''⟩, hr, h'⟩ := Option.map_eq_some_iff.mp hnext <;> cases h'
  case setDatabasePath p => cases h.wallet
  case unlockWallet u => exact cancels (UnlockWallet.next_scans hr).own rfl
  case lockWallet l => exact cancels (LockWallet.next_scans hr).own rfl
  case forceLockWallet f => exact cancels (ForceLockWallet.next_scans hr).own rfl
  case withWalletLocked m => exact cancels (WithWalletLocked.next_scans hr) rfl
  case changePassphrase p => exact cancels (ChangePassphrase.next_scans hr) rfl
  case abandonSend a => exact cancels (AbandonSend.next_scans hr) rfl
  case scan x => exact Scan.aside hag h hr
  case stopScan x => exact StopScan.aside hag h hr
  case createScanHandle x => exact CreateScanHandle.aside hag h hr
  case sendTransaction x =>
    obtain ⟨files, network, rfl⟩ := SendTransaction.next_frame hr
    exact hag.same ⟨rfl, rfl, rfl⟩
  case createWallet c =>
    obtain ⟨files, network, rfl⟩ := CreateWallet.next_frame hr
    exact hag.same ⟨rfl, rfl, rfl⟩
  case getAddress a =>
    obtain ⟨files, network, rfl⟩ := GetAddress.next_frame hr
    exact hag.same ⟨rfl, rfl, rfl⟩

/-! ## All of it -/

/-- A step of a call outside `W`, which the second run leaves out. -/
theorem Call.Aside.next {ok : Guard Shared Call} {s : World} (h : call.Aside W mine ρ me v s.shared)
    (hs : system.Reach ok s) (hc : s.calls me = some call) {path : PathBuf}
    (hfits : call.Fits W path) (hag : s.shared.Agree W mine ρ τ)
    (hnext : call.next me ch s.shared = some (call', σ')) : σ'.Agree W mine ρ τ := by
  have other {u : WalletName} (hu : W u) : u ≠ v := by
    rintro rfl
    exact h.outside hu
  -- Wallet by wallet the step is one of a call on another.
  have elsewhere {u : WalletName} (hu : W u) : call.wallet ≠ some u := by
    rw [h.wallet]
    exact fun heq => other hu (Option.some.inj heq).symm
  have hscans := Call.scansAside ⟨hag.scans, hag.handles, hag.tokens⟩ h hnext
  constructor
  · have hdb := Call.dbStep hnext
    exact hag.db.leftOnly (fun u hu => hdb.lookup_elsewhere h.wallet (other hu)) hdb.nextGeneration_le
  · intro u hu
    rw [Call.gates_elsewhere hnext (elsewhere hu)]
    exact hag.gates u hu
  · intro u hu
    rw [Call.keys_elsewhere hnext (elsewhere hu)]
    exact hag.keys u hu
  · exact FilesStep.aside hag (Call.filesStep hnext) h.wallet h.outside hfits
  · exact hscans.scans
  · exact hscans.handles
  · exact hscans.tokens
  · intro u hu
    rw [Call.maintenance_elsewhere hs hc hnext (elsewhere hu)]
    exact hag.maintenance u hu

end CwTariWallet
