/-
# CwTariWallet.Bridge.SlotRefinement -- the bridge as the slot protocol of one wallet

Every step of every call is, for a given wallet, a step of `SlotProtocol` or none at all.  The positions
of the wallet's scans and of the operations that hold its maintenance lock become the protocol's phases;
the other calls stay `out`, and whatever they do to the tokens only cancels some.
-/
import CwTariWallet.Bridge.ScanSteps
import CwTariWallet.Protocol.Slot

namespace CwTariWallet

open Interleaving SlotProtocol

/-- What the slot protocol of `w` sees of the state. -/
def Shared.slotView (w : WalletName) (σ : Shared) : SlotProtocol.View :=
  ⟨(σ.scans.running.lookup w).map (·.scan), σ.maintenance w, fun c => (σ.tokens c).cancelled,
    fun c => (σ.tokens c).stopped⟩

/-! ## Phases -/

def ScanAt.slotPhase : ScanAt → Phase
  | .slot | .leaveMaintenance _ => .begun
  | .dropMaintenance previous => .entered previous
  | .waitPrevious previous => .waiting previous
  | .firstCheck => .ready
  | .sweepConn | .sweep _ | .rollbackConn _ | .rollback _ _ | .secondCheck | .running | .draining _
  | .readSuperseded => .inside
  | .clear _ => .clearing
  | .returned _ => .done
  | _ => .out

/-- A scan of another wallet: all this wallet's protocol sees of it is its `stopped` token. -/
def ScanAt.otherSlotPhase : ScanAt → Phase
  | .returned _ => .done
  | _ => .out

def StopAt.slotPhase : StopAt → Phase
  | .cancel => .begun
  | .wait scan => .stopping scan

def EverywhereAt.slotPhase : EverywhereAt → Phase
  | .stop s => s.slotPhase
  | _ => .begun

def WithLockedAt.slotPhase : WithLockedAt → Phase
  | .begin | .returned _ => .out
  | .lockBefore _ e => e.slotPhase
  | .change _ | .settle _ _ => .quiet
  | .conn | .lockAfter _ _ | .leave _ => .begun

def ChangeAt.slotPhase : ChangeAt → Phase
  | .conn | .verify _ | .begin | .returned _ => .out
  | .stop s => s.slotPhase
  | .connAgain | .write _ | .settle _ _ => .quiet
  | .leave _ => .begun

def AbandonAt.slotPhase : AbandonAt → Phase
  | .conn | .verify _ | .begin _ | .returned _ => .out
  | .connCheck _ | .sameAccount _ _ | .leave _ => .begun
  | .stop s _ => s.slotPhase
  | .connWrite _ | .abandon _ _ => .quiet

/-- The phase of a call, for wallet `w`. -/
def Call.slotPhase (w : WalletName) : Call → Phase
  | .scan s => if s.walletName = w then s.pos.slotPhase else s.pos.otherSlotPhase
  | .withWalletLocked m => if m.walletName = w then m.pos.slotPhase else .out
  | .changePassphrase p => if p.walletName = w then p.pos.slotPhase else .out
  | .abandonSend a => if a.walletName = w then a.pos.slotPhase else .out
  | _ => .out

/-! ## Steps -/

variable {w : WalletName} {me : CallId} {ch : Choice} {σ σ' : Shared}

/-- All that changes for `w` is that some tokens are cancelled. -/
def OnlyCancels (w : WalletName) (σ σ' : Shared) : Prop :=
  ∃ k, (∀ d, (σ.tokens d).cancelled = true → k d = true) ∧
    σ'.slotView w = { σ.slotView w with cancelled := k }

theorem OnlyCancels.step {p : Phase} (h : OnlyCancels w σ σ') :
    Step me p (σ.slotView w) p (σ'.slotView w) := by
  obtain ⟨k, hk, hview⟩ := h
  rw [hview]
  exact .tick hk

theorem onlyCancels_of_eq (hscans : σ'.scans.running = σ.scans.running)
    (htokens : σ'.tokens = σ.tokens) (hm : σ'.maintenance w = σ.maintenance w) :
    OnlyCancels w σ σ' :=
  ⟨_, fun _ hd => hd, by simp [Shared.slotView, hscans, htokens, hm]⟩

theorem OnlyCancels.refl : OnlyCancels w σ σ := onlyCancels_of_eq rfl rfl rfl

/-- Cancelling one more token. -/
theorem onlyCancels_cancel {c : CallId} (hscans : σ'.scans.running = σ.scans.running)
    (htokens : σ'.tokens = σ.tokens.cancel c) (hm : σ'.maintenance w = σ.maintenance w) :
    OnlyCancels w σ σ' :=
  ⟨fun d => (σ.tokens.cancel c d).cancelled, fun d hd => by simp [hd],
    by simp [Shared.slotView, hscans, htokens, hm]⟩

theorem onlyCancels_cancelWallet {v : WalletName} (h : SameScans (σ.cancelWalletScans v).2 σ')
    (hm : σ'.maintenance w = σ.maintenance w) : OnlyCancels w σ σ' := by
  obtain ⟨hscans, htokens, -⟩ := h
  rw [Shared.cancelWalletScans_eq] at hscans htokens
  dsimp only at hscans htokens
  cases hrun : σ.scans.running.lookup v with
  | none =>
    rw [hrun] at htokens
    exact onlyCancels_of_eq (by rw [hscans]) htokens hm
  | some c =>
    rw [hrun] at htokens
    exact onlyCancels_cancel (by rw [hscans]) htokens hm

theorem CancelsAtMost.onlyCancels {v : WalletName} (h : CancelsAtMost v σ σ') :
    OnlyCancels w σ σ' := by
  rcases h.scans with hsame | hcancel
  · exact onlyCancels_of_eq (by rw [hsame.scans]) hsame.tokens (by rw [h.maintenance])
  · exact onlyCancels_cancelWallet hcancel (by rw [h.maintenance])

theorem CancelsOwn.elsewhere {v : WalletName} (h : CancelsOwn v σ σ') (hv : v ≠ w) :
    OnlyCancels w σ σ' := by
  rcases h.scans with hsame | hcancel
  · exact onlyCancels_of_eq (by rw [hsame.scans]) hsame.tokens (h.others w hv.symm)
  · exact onlyCancels_cancelWallet hcancel (h.others w hv.symm)

/-- A step of a call on wallet `v`: a step of the protocol if that is `w`, and none otherwise. -/
theorem slotStep_on {v : WalletName} {p p' : Phase}
    (hon : v = w → Step me p (σ.slotView w) p' (σ'.slotView w)) (hoff : v ≠ w → OnlyCancels w σ σ') :
    Step me (if v = w then p else .out) (σ.slotView w) (if v = w then p' else .out)
      (σ'.slotView w) := by
  by_cases hv : v = w
  · simpa [hv] using hon hv
  · simpa [hv] using (hoff hv).step

theorem Shared.slotStep_begin (h : σ.beginMaintenance w me = some σ') :
    Step me .out (σ.slotView w) .begun (σ'.slotView w) := by
  obtain ⟨hfree, rfl⟩ := Shared.beginMaintenance_eq_some h
  have hview : Shared.slotView w
      { σ with maintenance := Function.update σ.maintenance w (some me) } =
      { σ.slotView w with maintenance := some me } := by simp [Shared.slotView]
  rw [hview]
  exact .begin hfree

theorem Shared.slotView_dropMaintenance (σ : Shared) :
    (σ.dropMaintenance w).slotView w = { σ.slotView w with maintenance := none } := by
  simp [Shared.slotView, Shared.dropMaintenance]

theorem Shared.slotStep_leave (σ : Shared) :
    Step me .begun (σ.slotView w) .out ((σ.dropMaintenance w).slotView w) := by
  rw [Shared.slotView_dropMaintenance]
  exact .finish

/-! ### Stopping the scan in the slot -/

/-- The phase of a call once `StopAt.next` has answered. -/
def stopResult : StopAt ⊕ Unit → Phase
  | .inl s => s.slotPhase
  | .inr _ => .quiet

theorem StopAt.slotStep {s : StopAt} {r : StopAt ⊕ Unit} (h : s.next w σ = some (r, σ')) :
    Step me s.slotPhase (σ.slotView w) (stopResult r) (σ'.slotView w) := by
  rcases StopAt.next_eq h with ⟨rfl, rfl, rfl⟩ | ⟨c, rfl, hc, rfl, rfl⟩
  · rw [Shared.cancelWalletScans_eq]
    cases hrun : σ.scans.running.lookup w with
    | none =>
      have hview : Shared.slotView w { σ with
          scans := { σ.scans with
            starting := Table.retain (fun _ wallet => decide (wallet ≠ w)) σ.scans.starting }
          tokens := σ.tokens } =
          { σ.slotView w with cancelled := fun d => (σ.tokens d).cancelled } := rfl
      dsimp only [Option.map, Option.elim]
      rw [hview]
      exact .cancelNone (fun _ hd => hd) (by simp [Shared.slotView, hrun])
    | some c =>
      have hview : Shared.slotView w { σ with
          scans := { σ.scans with
            starting := Table.retain (fun _ wallet => decide (wallet ≠ w)) σ.scans.starting }
          tokens := σ.tokens.cancel c.scan } =
          { σ.slotView w with cancelled := fun d => (σ.tokens.cancel c.scan d).cancelled } := by
        simp [Shared.slotView]
      dsimp only [Option.map, Option.elim]
      rw [hview]
      refine .cancel (fun d hd => ?_) (by simp [Shared.slotView, hrun]) (by simp)
      have hd' : (σ.tokens d).cancelled = true := hd
      simp [hd']
  · exact .waited hc

theorem EverywhereAt.slotStep {e : EverywhereAt} {r : EverywhereAt ⊕ Unit}
    (hnext : e.next me w σ = some (r, σ')) :
    Step me e.slotPhase (σ.slotView w) (match r with
      | .inl e => e.slotPhase
      | .inr _ => .quiet) (σ'.slotView w) := by
  have hscans := EverywhereAt.next_scans hnext
  cases e with
  | remove =>
    cases hnext
    exact hscans.onlyCancels.step
  | gate file g =>
    simp only [EverywhereAt.next] at hnext
    split at hnext <;> cases hnext <;> exact hscans.onlyCancels.step
  | stop s =>
    simp only [EverywhereAt.next] at hnext
    split at hnext <;> cases hnext <;> exact StopAt.slotStep ‹_›

/-! ### The operations that hold the maintenance lock -/

theorem WithWalletLocked.slotStep {m m' : WithWalletLocked} (h : m.next me ch σ = some (m', σ')) :
    Step me m.pos.slotPhase (σ.slotView m.walletName) m'.pos.slotPhase
      (σ'.slotView m.walletName) := by
  obtain ⟨v, change, pos⟩ := m
  unfold next at h
  cases pos with
  | «begin» =>
    dsimp only at h
    split at h
    · cases h
      exact OnlyCancels.refl.step
    · obtain ⟨σ₁, hbegin, h⟩ := Option.map_eq_some_iff.mp h
      cases h
      exact Shared.slotStep_begin hbegin
  | conn =>
    dsimp only at h
    split at h <;> cases h <;> exact OnlyCancels.refl.step
  | lockBefore file e =>
    dsimp only at h
    split at h <;> cases h <;> exact EverywhereAt.slotStep ‹_›
  | change file =>
    dsimp only at h
    split at h <;> cases h <;> exact (onlyCancels_of_eq rfl rfl rfl).step
  | settle file changed =>
    dsimp only at h
    split at h <;> cases h
    · exact (onlyCancels_of_eq rfl rfl rfl).step
    · exact .forget
  | lockAfter e changed =>
    dsimp only at h
    split at h <;> cases h <;> exact (EverywhereAt.next_scans ‹_›).onlyCancels.step
  | leave r =>
    cases h
    exact Shared.slotStep_leave σ
  | returned r => cases h

theorem ChangePassphrase.slotStep {p p' : ChangePassphrase} (h : p.next me ch σ = some (p', σ')) :
    Step me p.pos.slotPhase (σ.slotView p.walletName) p'.pos.slotPhase
      (σ'.slotView p.walletName) := by
  obtain ⟨v, old, new, pos⟩ := p
  unfold next at h
  cases pos with
  | «begin» =>
    obtain ⟨σ₁, hbegin, h⟩ := Option.map_eq_some_iff.mp h
    cases h
    exact Shared.slotStep_begin hbegin
  | stop s =>
    dsimp only at h
    split at h <;> cases h <;> exact StopAt.slotStep ‹_›
  | connAgain =>
    dsimp only at h
    split at h <;> cases h
    · exact .forget
    · exact OnlyCancels.refl.step
  | settle file r =>
    dsimp only at h
    split at h <;> cases h
    · exact (onlyCancels_of_eq rfl rfl rfl).step
    · exact .forget
  | leave r =>
    cases h
    exact Shared.slotStep_leave σ
  | _ =>
    dsimp only at h
    (repeat' split at h) <;> cases h <;> exact (onlyCancels_of_eq rfl rfl rfl).step

theorem AbandonSend.slotStep {a a' : AbandonSend} (h : a.next me ch σ = some (a', σ')) :
    Step me a.pos.slotPhase (σ.slotView a.walletName) a'.pos.slotPhase
      (σ'.slotView a.walletName) := by
  obtain ⟨v, passphrase, transactionId, pos⟩ := a
  unfold next at h
  cases pos with
  | «begin» account =>
    obtain ⟨σ₁, hbegin, h⟩ := Option.map_eq_some_iff.mp h
    cases h
    exact Shared.slotStep_begin hbegin
  | stop s account =>
    dsimp only at h
    split at h <;> cases h <;> exact StopAt.slotStep ‹_›
  | connWrite account =>
    dsimp only at h
    split at h <;> cases h
    · exact .forget
    · exact OnlyCancels.refl.step
  | abandon file account =>
    dsimp only at h
    split at h <;> cases h <;> exact .forget
  | leave r =>
    cases h
    exact Shared.slotStep_leave σ
  | _ =>
    dsimp only at h
    (repeat' split at h) <;> cases h <;> exact (onlyCancels_of_eq rfl rfl rfl).step

/-! ### Scans -/

theorem Shared.slotView_stop (σ : Shared) :
    Shared.slotView w { σ with tokens := σ.tokens.stop me } =
      { σ.slotView w with stopped := Function.update (σ.slotView w).stopped me true } := by
  simp only [Shared.slotView, TokenMap.stop_cancelled, View.mk.injEq, true_and]
  funext d
  by_cases hd : d = me <;> simp [TokenMap.stop, hd]

theorem Scan.receive_onlyCancels (s : Scan) (σ : Shared) (event : ProcessingEvent)
    (accepts : Bool) : OnlyCancels w σ (s.receive me σ event accepts).2 := by
  obtain ⟨forwarder, -, hσ | hσ⟩ := s.receive_eq me σ event accepts <;> rw [hσ]
  · exact .refl
  · exact onlyCancels_cancel rfl rfl rfl

/-- `clear_scan_if_current` compares ids; in the slot an id stands for its scan. -/
theorem Shared.slotView_clear {id : Nat}
    (hid : ∀ c, σ.scans.running.lookup w = some c → (c.id = id ↔ c.scan = me)) :
    Shared.slotView w { σ with scans := σ.scans.clearScanIfCurrent w id } =
      { σ.slotView w with
        running := if (σ.slotView w).running = some me then none else (σ.slotView w).running } := by
  unfold ScanState.clearScanIfCurrent
  cases hrun : σ.scans.running.lookup w with
  | none => simp [Shared.slotView, hrun]
  | some c =>
    have hc := hid c hrun
    by_cases hcm : c.scan = me
    · simp [Shared.slotView, hrun, hcm, hc.mpr hcm]
    · simp [Shared.slotView, hrun, hcm, mt hc.mp hcm]

/-- A step of a scan of `w`. -/
theorem Scan.slotStep {s s' : Scan} (h : s.next me ch σ = some (s', σ'))
    (hid : ∀ c, σ.scans.running.lookup s.walletName = some c →
      s.pos.stage = .active → (c.id = s.handle.id ↔ c.scan = me)) :
    Step me s.pos.slotPhase (σ.slotView s.walletName) s'.pos.slotPhase
      (σ'.slotView s.walletName) := by
  obtain ⟨handle, v, priority, continuous, rescanFrom, pos, dbPath, forwarder, checked, swept, rolledBack⟩ := s
  unfold next at h
  cases pos with
  | claim =>
    dsimp only at h
    split at h
    · cases h
      exact OnlyCancels.refl.step
    · split at h <;> cases h
      all_goals
        rcases ScanState.claim_cases ‹_› with ⟨-, rfl⟩ | ⟨-, rfl⟩ | ⟨-, -, rfl⟩ <;>
          exact (onlyCancels_of_eq rfl rfl rfl).step
  | maintenance =>
    obtain ⟨σ₁, hbegin, h⟩ := Option.map_eq_some_iff.mp h
    cases h
    exact Shared.slotStep_begin hbegin
  | slot =>
    dsimp only at h
    split at h <;> cases h
    all_goals
      rcases Shared.enterSlot_eq ‹_› with ⟨hr, rfl, -⟩ | ⟨e, hr, rfl⟩ | ⟨wallet, -, hr, rfl⟩ <;>
        cases hr
    · exact (onlyCancels_of_eq rfl rfl rfl).step
    · exact OnlyCancels.refl.step
    · let tokens := (σ.scans.running.lookup v).elim σ.tokens fun old => σ.tokens.replace old.scan
      have htokens : (∀ d, (σ.tokens d).cancelled = true → (tokens d).cancelled = true) ∧
          (∀ d, (σ.scans.running.lookup v).map (·.scan) = some d → (tokens d).cancelled = true) ∧
          ∀ d, (tokens d).stopped = (σ.tokens d).stopped := by
        cases hrun : σ.scans.running.lookup v with
        | none => simp [tokens, hrun]
        | some old =>
          refine ⟨fun d hd => by simp [tokens, hrun, hd], fun d hd => ?_, by simp [tokens, hrun]⟩
          obtain rfl := Option.some.inj hd
          simp [tokens, hrun]
      obtain ⟨hkeep, hprevious, hstopped⟩ := htokens
      have hview : Shared.slotView v { σ with
          scans := { σ.scans.unstart handle.id with
            running := σ.scans.running.insert v ⟨handle.id, priority, me⟩ }
          tokens := tokens } =
          { σ.slotView v with
            running := some me, cancelled := fun d => (tokens d).cancelled } := by
        simp [Shared.slotView, hstopped]
      dsimp only [Scan.goto, ScanAt.slotPhase]
      rw [hview]
      exact .take hkeep hprevious
  | dropMaintenance previous =>
    cases previous <;> cases h <;> dsimp only [Scan.goto, ScanAt.slotPhase] <;>
      rw [Shared.slotView_dropMaintenance]
    · exact .leaveReady
    · exact .leaveWaiting
  | leaveMaintenance outcome =>
    cases h
    exact Shared.slotStep_leave σ
  | waitPrevious p =>
    dsimp only at h
    split at h <;> cases h
    exact .resume ‹_›
  | firstCheck =>
    dsimp only at h
    split at h <;> cases h
    · exact .skip ‹_›
    · exact .goIn (Bool.eq_false_iff.mpr ‹_›)
  | sweepConn | sweep file =>
    cases rescanFrom <;> dsimp only at h <;> (repeat' split at h) <;> cases h <;>
      exact (onlyCancels_of_eq rfl rfl rfl).step
  | rollbackConn fromHeight | rollback file fromHeight | secondCheck | readSuperseded =>
    dsimp only at h
    (repeat' split at h) <;> cases h <;> first
      | exact .goOut
      | exact OnlyCancels.refl.step
  | running | draining result =>
    dsimp only at h
    split at h
    · cases h
      exact (Scan.receive_onlyCancels _ σ _ _).step
    · (repeat' split at h) <;> cases h <;> first
        | exact .goOut
        | exact OnlyCancels.refl.step
  | clear outcome =>
    dsimp only at h
    split at h <;> cases h
    all_goals
      dsimp only [Scan.goto, ScanAt.slotPhase]
      rw [Shared.slotView_clear fun c hc => hid c hc rfl]
      exact .clear
  | stop r =>
    cases h
    dsimp only [Scan.goto, ScanAt.slotPhase]
    rw [Shared.slotView_stop]
    exact .stop
  | unstart outcome | terminal outcome =>
    cases h
    exact (onlyCancels_of_eq rfl rfl rfl).step
  | _ =>
    dsimp only at h
    (repeat' split at h) <;> cases h <;> exact (onlyCancels_of_eq rfl rfl rfl).step

theorem Shared.onlyCancels_maintenance {v : WalletName} (hv : v ≠ w) (holder : Option CallId) :
    OnlyCancels w σ { σ with maintenance := Function.update σ.maintenance v holder } :=
  onlyCancels_of_eq rfl rfl (Function.update_of_ne hv.symm _ _)

/-- A step of a scan of another wallet. -/
theorem Scan.slotStep_elsewhere {s s' : Scan} (h : s.next me ch σ = some (s', σ'))
    (hv : s.walletName ≠ w) :
    Step me s.pos.otherSlotPhase (σ.slotView w) s'.pos.otherSlotPhase (σ'.slotView w) := by
  obtain ⟨handle, v, priority, continuous, rescanFrom, pos, dbPath, forwarder, checked, swept, rolledBack⟩ := s
  unfold next at h
  cases pos with
  | claim =>
    dsimp only at h
    split at h
    · cases h
      exact OnlyCancels.refl.step
    · split at h <;> cases h
      all_goals
        rcases ScanState.claim_cases ‹_› with ⟨-, rfl⟩ | ⟨-, rfl⟩ | ⟨-, -, rfl⟩ <;>
          exact (onlyCancels_of_eq rfl rfl rfl).step
  | maintenance =>
    obtain ⟨σ₁, hbegin, h⟩ := Option.map_eq_some_iff.mp h
    obtain ⟨-, rfl⟩ := Shared.beginMaintenance_eq_some hbegin
    cases h
    exact (Shared.onlyCancels_maintenance hv _).step
  | slot =>
    dsimp only at h
    split at h <;> cases h
    all_goals
      rcases Shared.enterSlot_eq ‹_› with ⟨hr, rfl, -⟩ | ⟨e, hr, rfl⟩ | ⟨wallet, -, hr, rfl⟩ <;>
        cases hr
    · exact (onlyCancels_of_eq rfl rfl rfl).step
    · exact OnlyCancels.refl.step
    · -- It replaces a scan of its own wallet.
      refine OnlyCancels.step ?_
      cases hrun : σ.scans.running.lookup v with
      | none =>
        refine ⟨_, fun _ hd => hd, ?_⟩
        simp [Shared.slotView, AList.lookup_insert_ne hv.symm]
      | some old =>
        refine ⟨fun d => (σ.tokens.replace old.scan d).cancelled, fun d hd => by simp [hd], ?_⟩
        simp [Shared.slotView, AList.lookup_insert_ne hv.symm]
  | dropMaintenance previous =>
    cases previous <;> cases h <;> exact (Shared.onlyCancels_maintenance hv _).step
  | leaveMaintenance outcome =>
    cases h
    exact (Shared.onlyCancels_maintenance hv _).step
  | running | draining result =>
    dsimp only at h
    split at h
    · cases h
      exact (Scan.receive_onlyCancels _ σ _ _).step
    · (repeat' split at h) <;> cases h <;> exact OnlyCancels.refl.step
  | clear outcome =>
    have hlookup : (σ.scans.clearScanIfCurrent v handle.id).running.lookup w =
        σ.scans.running.lookup w := by
      unfold ScanState.clearScanIfCurrent
      split
      · exact AList.lookup_erase_ne hv.symm
      · rfl
    dsimp only at h
    split at h <;> cases h
    all_goals
      exact OnlyCancels.step ⟨_, fun _ hd => hd, by simp [Shared.slotView, hlookup]⟩
  | stop r =>
    cases h
    dsimp only [Scan.goto, ScanAt.otherSlotPhase]
    rw [Shared.slotView_stop]
    exact .stop
  | unstart outcome | terminal outcome =>
    cases h
    exact (onlyCancels_of_eq rfl rfl rfl).step
  | sweepConn | sweep file =>
    cases rescanFrom <;> dsimp only at h <;> (repeat' split at h) <;> cases h <;>
      exact (onlyCancels_of_eq rfl rfl rfl).step
  | _ =>
    dsimp only at h
    (repeat' split at h) <;> cases h <;> exact (onlyCancels_of_eq rfl rfl rfl).step

/-! ## Calls stay on their wallet -/

theorem Scan.next_same {s s' : Scan} (h : s.next me ch σ = some (s', σ')) :
    s'.handle = s.handle ∧ s'.walletName = s.walletName := by
  obtain ⟨handle, v, priority, continuous, rescanFrom, pos, dbPath, forwarder, checked, swept, rolledBack⟩ := s
  unfold next at h
  cases pos with
  | maintenance =>
    obtain ⟨σ₁, -, h⟩ := Option.map_eq_some_iff.mp h
    cases h
    exact ⟨rfl, rfl⟩
  | sweepConn | sweep file =>
    cases rescanFrom <;> dsimp only at h <;> (repeat' split at h) <;> cases h <;> exact ⟨rfl, rfl⟩
  | _ =>
    dsimp only at h
    (repeat' split at h) <;> cases h <;> exact ⟨rfl, rfl⟩

theorem WithWalletLocked.next_walletName {m m' : WithWalletLocked}
    (h : m.next me ch σ = some (m', σ')) : m'.walletName = m.walletName := by
  obtain ⟨v, change, pos⟩ := m
  unfold next at h
  cases pos with
  | «begin» =>
    dsimp only at h
    split at h
    · cases h
      rfl
    · obtain ⟨σ₁, -, h⟩ := Option.map_eq_some_iff.mp h
      cases h
      rfl
  | _ =>
    dsimp only at h
    (repeat' split at h) <;> cases h <;> rfl

theorem ChangePassphrase.next_walletName {p p' : ChangePassphrase}
    (h : p.next me ch σ = some (p', σ')) : p'.walletName = p.walletName := by
  obtain ⟨v, old, new, pos⟩ := p
  unfold next at h
  cases pos with
  | «begin» =>
    obtain ⟨σ₁, -, h⟩ := Option.map_eq_some_iff.mp h
    cases h
    rfl
  | _ =>
    dsimp only at h
    (repeat' split at h) <;> cases h <;> rfl

theorem AbandonSend.next_walletName {a a' : AbandonSend} (h : a.next me ch σ = some (a', σ')) :
    a'.walletName = a.walletName := by
  obtain ⟨v, passphrase, transactionId, pos⟩ := a
  unfold next at h
  cases pos with
  | «begin» account =>
    obtain ⟨σ₁, -, h⟩ := Option.map_eq_some_iff.mp h
    cases h
    rfl
  | _ =>
    dsimp only at h
    (repeat' split at h) <;> cases h <;> rfl

/-! ## The refinement -/

variable {ok : Guard Shared Call} {s : World}

/-- In the slot, an id stands for its scan. -/
theorem id_iff_scan (h : system.Reach ok s) {m : CallId} {x : Scan}
    (hm : s.calls m = some (.scan x)) (hstage : x.pos.stage = .active) {c : ScanController}
    (hc : s.shared.scans.running.lookup x.walletName = some c) :
    c.id = x.handle.id ↔ c.scan = m := by
  obtain ⟨call, hcall, hslot⟩ := running_sound h _ _ hc
  have hticket : (Call.scan x).ticket = .claimed x.handle.id := by simp [Call.ticket, hstage]
  constructor
  · intro hid
    exact handle_unique h hcall (hid ▸ Call.ticket_of_slot hslot) hm hticket
  · rintro rfl
    obtain rfl := Option.some.inj (hm.symm.trans hcall)
    have hown : (Call.scan x).slot = some (x.walletName, x.handle.id) := by
      simp [Call.slot, hstage]
    exact (Prod.mk.inj (Option.some.inj (hslot.symm.trans hown))).2

theorem Call.slotStep (h : system.Reach ok s) {call call' : Call} (hm : s.calls me = some call)
    (hstep : call.next me ch s.shared = some (call', σ')) :
    Step me (call.slotPhase w) (s.shared.slotView w) (call'.slotPhase w) (σ'.slotView w) := by
  cases call <;> obtain ⟨r, hr, h'⟩ := Option.map_eq_some_iff.mp hstep <;> cases h'
  case setDatabasePath p =>
    obtain ⟨path, hσ⟩ := SetDatabasePath.next_frame hr
    rw [hσ]
    exact (onlyCancels_of_eq rfl rfl rfl).step
  case unlockWallet u => exact (UnlockWallet.next_scans hr).onlyCancels.step
  case lockWallet l => exact (LockWallet.next_scans hr).onlyCancels.step
  case forceLockWallet f => exact (ForceLockWallet.next_scans hr).onlyCancels.step
  case withWalletLocked m =>
    simp only [Call.slotPhase, WithWalletLocked.next_walletName hr]
    exact slotStep_on (fun hw => hw ▸ WithWalletLocked.slotStep hr)
      (WithWalletLocked.next_scans hr).elsewhere
  case changePassphrase p =>
    simp only [Call.slotPhase, ChangePassphrase.next_walletName hr]
    exact slotStep_on (fun hw => hw ▸ ChangePassphrase.slotStep hr)
      (ChangePassphrase.next_scans hr).elsewhere
  case abandonSend a =>
    simp only [Call.slotPhase, AbandonSend.next_walletName hr]
    exact slotStep_on (fun hw => hw ▸ AbandonSend.slotStep hr)
      (AbandonSend.next_scans hr).elsewhere
  case scan x =>
    simp only [Call.slotPhase, (Scan.next_same hr).2]
    by_cases hw : x.walletName = w
    · subst hw
      simpa using Scan.slotStep hr fun c hc hstage => id_iff_scan h hm hstage hc
    · simpa [hw] using Scan.slotStep_elsewhere hr hw
  case stopScan x =>
    obtain ⟨scans, tokens, hσ, hrun, -, htokens | ⟨c, htokens⟩⟩ := StopScan.next_frame hr
    · exact (onlyCancels_of_eq (by rw [hσ, hrun]) (by rw [hσ, htokens]) (by rw [hσ])).step
    · exact (onlyCancels_cancel (by rw [hσ, hrun]) (by rw [hσ, htokens]) (by rw [hσ])).step
  case createScanHandle x =>
    obtain ⟨issued, scanId, hσ⟩ := CreateScanHandle.next_frame hr
    rw [hσ]
    exact (onlyCancels_of_eq rfl rfl rfl).step
  case sendTransaction x =>
    obtain ⟨files, network, hσ⟩ := SendTransaction.next_frame hr
    rw [hσ]
    exact (onlyCancels_of_eq rfl rfl rfl).step
  case createWallet c =>
    obtain ⟨files, network, hσ⟩ := CreateWallet.next_frame hr
    rw [hσ]
    exact (onlyCancels_of_eq rfl rfl rfl).step
  case getAddress c =>
    obtain ⟨files, network, hσ⟩ := GetAddress.next_frame hr
    rw [hσ]
    exact (onlyCancels_of_eq rfl rfl rfl).step

/-- The bridge refines the slot protocol of every wallet. -/
def slotHom (ok : Guard Shared Call) (w : WalletName) :
    System.Hom system ok SlotProtocol.protocol where
  shared := Shared.slotView w
  call := Call.slotPhase w
  init := by
    rintro σ ⟨files, tariCommon, rfl⟩
    rfl
  start := by
    intro call hstart
    cases call <;> simp only [system, Call.starts, decide_eq_true_eq] at hstart <;>
      simp only [SlotProtocol.protocol, Call.slotPhase]
    case scan s =>
      rw [hstart]
      exact ite_self _
    case withWalletLocked m => simp [hstart, WithLockedAt.slotPhase]
    case changePassphrase p => simp [hstart, ChangeAt.slotPhase]
    case abandonSend a => simp [hstart, AbandonAt.slotPhase]
  step := by
    rintro s c l l' σ' hs _ hc ⟨ch, hstep⟩
    exact Call.slotStep hs hc hstep

end CwTariWallet
