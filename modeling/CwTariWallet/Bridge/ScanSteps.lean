/-
# CwTariWallet.Bridge.ScanSteps -- the ways a step can change `SCAN_STATE`

`ScanStep` names the critical sections of `SCAN_STATE`, the token operations and the steps of
`create_scan_handle`; every other step of the bridge leaves all of that as it is (`Call.scanStep`).  From
it: a handle's id belongs to one call at a time (`ticketHom`), and what is in a wallet's slot is a scan of
that wallet which has taken it and not cleared it yet (`running_sound`).
-/
import CwTariWallet.Bridge.Effects
import CwTariWallet.Protocol.Tickets

namespace CwTariWallet

open Interleaving

/-! ## Where a scan stands -/

/-- What a scan has to do with the handles and the slot. -/
inductive ScanStage where
  | before
  /-- Claimed, not in its slot yet. -/
  | starting
  /-- In its slot, or replaced there. -/
  | active
  /-- Past its slot, or never in it; its id is still to be forgotten. -/
  | left
  | over
  deriving DecidableEq, Repr

def ScanAt.stage : ScanAt → ScanStage
  | .claim => .before
  | .dbPath | .conn | .account _ | .check _ | .maintenance | .slot => .starting
  | .dropMaintenance _ | .waitPrevious _ | .firstCheck | .sweepConn | .sweep _ | .rollbackConn _
  | .rollback _ _ | .secondCheck | .running | .draining _ | .readSuperseded | .clear _ => .active
  | .leaveMaintenance _ | .goneConn _ | .gone _ _ | .unstart _ => .left
  | .terminal _ | .stop _ | .returned _ => .over

/-- The phase of a call in the protocol of handle ids. -/
def Call.ticket : Call → TicketProtocol.Phase
  | .scan s =>
    match s.pos.stage with
    | .starting | .active | .left => .claimed s.handle.id
    | .before | .over => .out
  | .createScanHandle h =>
    match h.pos with
    | .insert id => .minted id
    | _ => .out
  | _ => .out

/-- The wallet and the id of an active scan. -/
def Call.slot : Call → Option (WalletName × Nat)
  | .scan s => if s.pos.stage = .active then some (s.walletName, s.handle.id) else none
  | _ => none

/-- `SCAN_STATE`, the tokens and `SCAN_ID` are untouched. -/
structure SameScans (σ σ' : Shared) : Prop where
  scans : σ'.scans = σ.scans
  tokens : σ'.tokens = σ.tokens
  scanId : σ'.scanId = σ.scanId

/-- What a step can do to `SCAN_STATE`, the tokens and `SCAN_ID`. -/
inductive ScanStep (me : CallId) : Call → Shared → Call → Shared → Prop
  | same {call call' σ σ'} : SameScans σ σ' → call'.ticket = call.ticket →
      call'.slot = call.slot → ScanStep me call σ call' σ'
  | cancelWallet {call call' σ σ' w} : SameScans (σ.cancelWalletScans w).2 σ' →
      call.ticket = .out → call'.ticket = .out → call'.slot = call.slot →
      ScanStep me call σ call' σ'
  | stopScan {h r call' σ σ'} : σ.stopScan h.handle = (r, σ') → call'.ticket = .out →
      call'.slot = none → ScanStep me (.stopScan h) σ call' σ'
  | claim {s σ} : s.pos = .claim → s.handle.walletName = s.walletName →
      s.handle.id ∈ σ.scans.issued →
      ScanStep me (.scan s) σ (.scan (s.goto .dbPath)) { σ with scans := { σ.scans with
        issued := σ.scans.issued.erase s.handle.id
        starting := σ.scans.starting.insert s.handle.id s.walletName } }
  | stoppedBefore {s outcome σ} : s.pos = .claim →
      ScanStep me (.scan s) σ (.scan (s.goto (.terminal outcome))) { σ with scans := { σ.scans with
        stoppedBeforeStart := σ.scans.stoppedBeforeStart.erase s.handle.id } }
  | enter {s wallet σ} : s.pos = .slot → σ.scans.starting.lookup s.handle.id = some wallet →
      ScanStep me (.scan s) σ
        (.scan (s.goto (.dropMaintenance ((σ.scans.running.lookup s.walletName).map (·.scan)))))
        { σ with
          scans := { σ.scans.unstart s.handle.id with
            running := σ.scans.running.insert s.walletName ⟨s.handle.id, s.priority, me⟩ }
          tokens := (σ.scans.running.lookup s.walletName).elim σ.tokens fun old =>
            σ.tokens.replace old.scan }
  | refuse {s outcome σ} : s.pos = .slot →
      ScanStep me (.scan s) σ (.scan (s.goto (.leaveMaintenance outcome)))
        { σ with scans := σ.scans.unstart s.handle.id }
  | clear {s outcome pos σ} : s.pos = .clear outcome → pos.stage = .left →
      ScanStep me (.scan s) σ (.scan (s.goto pos))
        { σ with scans := σ.scans.clearScanIfCurrent s.walletName s.handle.id }
  | unstart {s outcome σ} : s.pos = .unstart outcome →
      ScanStep me (.scan s) σ (.scan (s.goto (.terminal outcome)))
        { σ with scans := σ.scans.unstart s.handle.id }
  | cancelSelf {s s' σ} : s.pos.stage = .active → s'.pos = s.pos → s'.handle = s.handle →
      s'.walletName = s.walletName →
      ScanStep me (.scan s) σ (.scan s') { σ with tokens := σ.tokens.cancel me }
  | stop {s r σ} : s.pos = .stop r → ScanStep me (.scan s) σ (.scan (s.goto (.returned r)))
      { σ with tokens := σ.tokens.stop me }
  | mint {h σ} : h.pos = .fetch →
      ScanStep me (.createScanHandle h) σ (.createScanHandle { h with pos := .insert σ.scanId })
        { σ with scanId := σ.scanId + 1 }
  | issue {h id σ} : h.pos = .insert id →
      ScanStep me (.createScanHandle h) σ
        (.createScanHandle { h with pos := .returned ⟨h.walletName, id⟩ })
        { σ with scans := σ.scans.issue id }

variable {w : WalletName} {me : CallId} {ch : Choice} {σ σ' : Shared}

/-! ## Every step is one of them -/

theorem SameScans.refl (σ : Shared) : SameScans σ σ := ⟨rfl, rfl, rfl⟩

/-- Nothing changes but what `cancel_wallet_scans` of `w` may, and `w`'s maintenance lock. -/
structure CancelsOwn (w : WalletName) (σ σ' : Shared) : Prop where
  scans : SameScans σ σ' ∨ SameScans (σ.cancelWalletScans w).2 σ'
  others : ∀ v, v ≠ w → σ'.maintenance v = σ.maintenance v

/-- Nothing changes but what `cancel_wallet_scans` of `w` may. -/
structure CancelsAtMost (w : WalletName) (σ σ' : Shared) : Prop where
  scans : SameScans σ σ' ∨ SameScans (σ.cancelWalletScans w).2 σ'
  maintenance : σ'.maintenance = σ.maintenance

theorem CancelsAtMost.own (h : CancelsAtMost w σ σ') : CancelsOwn w σ σ' :=
  ⟨h.scans, fun v _ => by rw [h.maintenance]⟩

theorem CancelsAtMost.refl : CancelsAtMost w σ σ := ⟨Or.inl (.refl _), rfl⟩

theorem CancelsAtMost.cancel : CancelsAtMost w σ (σ.cancelWalletScans w).2 :=
  ⟨Or.inr (.refl _), by rw [Shared.cancelWalletScans_eq]⟩

theorem CancelsOwn.scanStep {call call' : Call} (h : CancelsOwn w σ σ')
    (ht : call.ticket = .out) (ht' : call'.ticket = .out) (hs : call'.slot = call.slot) :
    ScanStep me call σ call' σ' := by
  rcases h.scans with hsame | hcancel
  · exact .same hsame (ht'.trans ht.symm) hs
  · exact .cancelWallet hcancel ht ht' hs

theorem GateHeldAt.next_scans {h : GateHeldAt} {r : GateHeldAt ⊕ Bool}
    (hnext : h.next w σ = (r, σ')) : CancelsAtMost w σ σ' := by
  cases h with
  | readState =>
    simp only [GateHeldAt.next] at hnext
    split at hnext <;> obtain ⟨-, rfl⟩ := Prod.mk.inj hnext <;> exact .refl
  | lockSession =>
    obtain ⟨-, rfl⟩ := Prod.mk.inj hnext
    exact ⟨Or.inl ⟨rfl, rfl, rfl⟩, rfl⟩
  | cancelScans =>
    obtain ⟨-, rfl⟩ := Prod.mk.inj hnext
    exact .cancel

theorem GateAt.next_scans {g : GateAt} {r : GateAt ⊕ Bool} (hnext : g.next me w σ = some (r, σ')) :
    CancelsAtMost w σ σ' := by
  cases g with
  | wait =>
    obtain ⟨σ₁, hhold, h⟩ := Option.map_eq_some_iff.mp hnext
    obtain ⟨-, rfl⟩ := Shared.holdGate_eq_some hhold
    cases h
    exact ⟨Or.inl ⟨rfl, rfl, rfl⟩, rfl⟩
  | held h =>
    simp only [GateAt.next] at hnext
    split at hnext <;> cases hnext <;> exact GateHeldAt.next_scans ‹_›
  | leave locked =>
    cases hnext
    exact ⟨Or.inl ⟨rfl, rfl, rfl⟩, rfl⟩

theorem StopAt.next_scans {s : StopAt} {r : StopAt ⊕ Unit} (h : s.next w σ = some (r, σ')) :
    CancelsAtMost w σ σ' := by
  rcases StopAt.next_eq h with ⟨-, rfl, -⟩ | ⟨c, -, -, rfl, -⟩
  · exact .cancel
  · exact .refl

theorem EverywhereAt.next_scans {e : EverywhereAt} {r : EverywhereAt ⊕ Unit}
    (hnext : e.next me w σ = some (r, σ')) : CancelsAtMost w σ σ' := by
  cases e with
  | remove =>
    cases hnext
    exact ⟨Or.inl ⟨rfl, rfl, rfl⟩, rfl⟩
  | gate file g =>
    simp only [EverywhereAt.next] at hnext
    split at hnext <;> cases hnext <;> exact GateAt.next_scans ‹_›
  | stop s =>
    simp only [EverywhereAt.next] at hnext
    split at hnext <;> cases hnext <;> exact StopAt.next_scans ‹_›

theorem Shared.count_scans {path : PathBuf} {r : Except BridgeError Nat}
    (h : σ.count me path w ch = (r, σ')) : CancelsAtMost w σ σ' := by
  cases r with
  | error e =>
    obtain ⟨db, rfl, -⟩ := Shared.count_error h
    exact ⟨Or.inl ⟨rfl, rfl, rfl⟩, rfl⟩
  | ok g =>
    obtain ⟨db, files, rfl, -, -⟩ := Shared.count_ok h
    exact ⟨Or.inl ⟨rfl, rfl, rfl⟩, rfl⟩

theorem Shared.releaseFailed_scans {g : Nat} {zero : Bool}
    (h : σ.releaseFailed me w g = (zero, σ')) : CancelsAtMost w σ σ' := by
  rcases Shared.releaseFailed_eq h with ⟨-, db, -, rfl⟩ | ⟨-, -, rfl⟩
  · exact ⟨Or.inl ⟨rfl, rfl, rfl⟩, rfl⟩
  · exact .refl

theorem UnlockWallet.next_scans {u u' : UnlockWallet} (h : u.next me ch σ = some (u', σ')) :
    CancelsAtMost u.walletName σ σ' := by
  obtain ⟨path, v, passphrase, pos⟩ := u
  unfold next at h
  cases pos with
  | count =>
    dsimp only at h
    split at h <;> cases h <;> exact Shared.count_scans ‹_›
  | gate g =>
    obtain ⟨σ₁, hhold, h⟩ := Option.map_eq_some_iff.mp h
    obtain ⟨-, rfl⟩ := Shared.holdGate_eq_some hhold
    cases h
    exact ⟨Or.inl ⟨rfl, rfl, rfl⟩, rfl⟩
  | failed g e =>
    dsimp only at h
    split at h <;> cases h <;> exact Shared.releaseFailed_scans ‹_›
  | lockHeld hh g e =>
    dsimp only at h
    split at h <;> cases h <;> exact GateHeldAt.next_scans ‹_›
  | _ =>
    dsimp only at h
    (repeat' split at h) <;> cases h <;> exact ⟨Or.inl ⟨rfl, rfl, rfl⟩, rfl⟩

theorem LockWallet.next_scans {l l' : LockWallet} (h : l.next me σ = some (l', σ')) :
    CancelsAtMost l.walletName σ σ' := by
  obtain ⟨v, holder, pos⟩ := l
  unfold next at h
  cases pos with
  | release =>
    dsimp only at h
    split at h <;> cases h
    all_goals
      obtain ⟨db, -, rfl⟩ := Shared.releaseSession_eq ‹_›
      exact ⟨Or.inl ⟨rfl, rfl, rfl⟩, rfl⟩
  | gate file g =>
    dsimp only at h
    split at h <;> cases h <;> exact GateAt.next_scans ‹_›
  | stop s =>
    dsimp only at h
    split at h <;> cases h <;> exact StopAt.next_scans ‹_›
  | returned r => cases h

theorem ForceLockWallet.next_scans {f f' : ForceLockWallet} (h : f.next me σ = some (f', σ')) :
    CancelsAtMost f.walletName σ σ' := by
  unfold next at h
  split at h
  · split at h <;> cases h <;> exact EverywhereAt.next_scans ‹_›
  · cases h

/-- Taking or dropping a wallet's maintenance lock leaves the others'. -/
theorem CancelsOwn.update (holder : Option CallId) :
    CancelsOwn w σ { σ with maintenance := Function.update σ.maintenance w holder } :=
  ⟨Or.inl ⟨rfl, rfl, rfl⟩, fun _ hv => Function.update_of_ne hv _ _⟩

theorem WithWalletLocked.next_scans {m m' : WithWalletLocked} (h : m.next me ch σ = some (m', σ')) :
    CancelsOwn m.walletName σ σ' := by
  obtain ⟨v, change, pos⟩ := m
  unfold next at h
  cases pos with
  | «begin» =>
    dsimp only at h
    split at h
    · cases h
      exact CancelsAtMost.refl.own
    · obtain ⟨σ₁, hbegin, h⟩ := Option.map_eq_some_iff.mp h
      obtain ⟨-, rfl⟩ := Shared.beginMaintenance_eq_some hbegin
      cases h
      exact .update _
  | lockBefore file e | lockAfter e changed =>
    dsimp only at h
    split at h <;> cases h <;> exact (EverywhereAt.next_scans ‹_›).own
  | leave r =>
    cases h
    exact .update _
  | _ =>
    dsimp only at h
    (repeat' split at h) <;> cases h <;> exact ⟨Or.inl ⟨rfl, rfl, rfl⟩, fun _ _ => rfl⟩

theorem ChangePassphrase.next_scans {p p' : ChangePassphrase} (h : p.next me ch σ = some (p', σ')) :
    CancelsOwn p.walletName σ σ' := by
  obtain ⟨v, old, new, pos⟩ := p
  unfold next at h
  cases pos with
  | «begin» =>
    obtain ⟨σ₁, hbegin, h⟩ := Option.map_eq_some_iff.mp h
    obtain ⟨-, rfl⟩ := Shared.beginMaintenance_eq_some hbegin
    cases h
    exact .update _
  | stop s =>
    dsimp only at h
    split at h <;> cases h <;> exact (StopAt.next_scans ‹_›).own
  | leave r =>
    cases h
    exact .update _
  | _ =>
    dsimp only at h
    (repeat' split at h) <;> cases h <;> exact ⟨Or.inl ⟨rfl, rfl, rfl⟩, fun _ _ => rfl⟩

theorem AbandonSend.next_scans {a a' : AbandonSend} (h : a.next me ch σ = some (a', σ')) :
    CancelsOwn a.walletName σ σ' := by
  obtain ⟨v, passphrase, transactionId, pos⟩ := a
  unfold next at h
  cases pos with
  | «begin» account =>
    obtain ⟨σ₁, hbegin, h⟩ := Option.map_eq_some_iff.mp h
    obtain ⟨-, rfl⟩ := Shared.beginMaintenance_eq_some hbegin
    cases h
    exact .update _
  | stop s account =>
    dsimp only at h
    split at h <;> cases h <;> exact (StopAt.next_scans ‹_›).own
  | leave r =>
    cases h
    exact .update _
  | _ =>
    dsimp only at h
    (repeat' split at h) <;> cases h <;> exact ⟨Or.inl ⟨rfl, rfl, rfl⟩, fun _ _ => rfl⟩

theorem StopScan.scanStep {s s' : StopScan} (h : s.next σ = some (s', σ')) :
    ScanStep me (.stopScan s) σ (.stopScan s') σ' := by
  unfold next at h
  split at h
  · split at h <;> cases h <;> exact .stopScan ‹_› rfl rfl
  · split at h <;> cases h
    exact .same (.refl _) rfl rfl
  · cases h

theorem CreateScanHandle.scanStep {s s' : CreateScanHandle} (h : s.next σ = some (s', σ')) :
    ScanStep me (.createScanHandle s) σ (.createScanHandle s') σ' := by
  unfold next at h
  split at h <;> cases h
  · exact .mint ‹_›
  · exact .issue ‹_›

/-- The forwarder cancels at most the scan's own token. -/
theorem Scan.receive_eq (s : Scan) (me : CallId) (σ : Shared) (event : ProcessingEvent)
    (accepts : Bool) : ∃ forwarder, (s.receive me σ event accepts).1 = { s with forwarder := forwarder } ∧
      ((s.receive me σ event accepts).2 = σ ∨
        (s.receive me σ event accepts).2 = { σ with tokens := σ.tokens.cancel me }) := by
  refine ⟨_, rfl, ?_⟩
  simp only [receive]
  cases (s.forwarder.receive event accepts).2
  · exact Or.inl rfl
  · exact Or.inr rfl

theorem Scan.receive_scanStep {s : Scan} (hs : s.pos.stage = .active) {event : ProcessingEvent}
    {accepts : Bool} :
    ScanStep me (.scan s) σ (.scan (s.receive me σ event accepts).1)
      (s.receive me σ event accepts).2 := by
  obtain ⟨forwarder, hs', hσ | hσ⟩ := s.receive_eq me σ event accepts <;> rw [hs', hσ]
  · exact .same (.refl _) rfl rfl
  · exact .cancelSelf hs rfl rfl rfl

theorem Scan.scanStep {s s' : Scan} (h : s.next me ch σ = some (s', σ')) :
    ScanStep me (.scan s) σ (.scan s') σ' := by
  obtain ⟨handle, v, priority, continuous, rescanFrom, pos, dbPath, forwarder, checked, swept, rolledBack⟩ := s
  unfold next at h
  cases pos with
  | claim =>
    dsimp only at h
    split at h
    · cases h
      exact .same (.refl _) rfl rfl
    · rename_i hname
      obtain rfl := not_ne_iff.mp hname
      split at h <;> cases h
      all_goals
        rcases ScanState.claim_cases ‹_› with ⟨hr, rfl⟩ | ⟨hr, rfl⟩ | ⟨hr, hissued, rfl⟩ <;> cases hr
      · exact .stoppedBefore rfl
      · exact .same (.refl _) rfl rfl
      · exact .claim rfl rfl hissued
  | maintenance =>
    obtain ⟨σ₁, hbegin, h⟩ := Option.map_eq_some_iff.mp h
    obtain ⟨-, rfl⟩ := Shared.beginMaintenance_eq_some hbegin
    cases h
    exact .same ⟨rfl, rfl, rfl⟩ rfl rfl
  | slot =>
    dsimp only at h
    split at h <;> cases h
    all_goals
      rcases Shared.enterSlot_eq ‹_› with ⟨hr, rfl, -⟩ | ⟨e, hr, rfl⟩ | ⟨wallet, hstart, hr, rfl⟩ <;>
        cases hr
    · exact .refuse rfl
    · exact .same ⟨rfl, rfl, rfl⟩ rfl rfl
    · exact .enter rfl hstart
  | clear outcome =>
    dsimp only at h
    split at h <;> cases h <;> exact .clear rfl rfl
  | running | draining result =>
    dsimp only at h
    split at h
    · cases h
      exact Scan.receive_scanStep rfl
    · (repeat' split at h) <;> cases h <;> exact .same ⟨rfl, rfl, rfl⟩ rfl rfl
  | unstart outcome =>
    cases h
    exact .unstart rfl
  | stop r =>
    cases h
    exact .stop rfl
  | terminal outcome =>
    cases h
    exact .same ⟨rfl, rfl, rfl⟩ rfl rfl
  | sweepConn | sweep file =>
    cases rescanFrom <;> dsimp only at h <;> (repeat' split at h) <;> cases h <;>
      exact .same ⟨rfl, rfl, rfl⟩ rfl rfl
  | dropMaintenance previous =>
    cases previous <;> cases h <;> exact .same ⟨rfl, rfl, rfl⟩ rfl rfl
  | _ =>
    dsimp only at h
    (repeat' split at h) <;> cases h <;> exact .same ⟨rfl, rfl, rfl⟩ rfl rfl

/-- Every step of the bridge changes `SCAN_STATE` and the tokens in one of these ways. -/
theorem Call.scanStep {call call' : Call} (h : call.next me ch σ = some (call', σ')) :
    ScanStep me call σ call' σ' := by
  cases call <;> obtain ⟨r, hr, h⟩ := Option.map_eq_some_iff.mp h <;> cases h
  case setDatabasePath p =>
    obtain ⟨path, hσ⟩ := SetDatabasePath.next_frame hr
    rw [hσ]
    exact .same ⟨rfl, rfl, rfl⟩ rfl rfl
  case unlockWallet u => exact (UnlockWallet.next_scans hr).own.scanStep rfl rfl rfl
  case lockWallet l => exact (LockWallet.next_scans hr).own.scanStep rfl rfl rfl
  case forceLockWallet f => exact (ForceLockWallet.next_scans hr).own.scanStep rfl rfl rfl
  case withWalletLocked m => exact (WithWalletLocked.next_scans hr).scanStep rfl rfl rfl
  case changePassphrase p => exact (ChangePassphrase.next_scans hr).scanStep rfl rfl rfl
  case abandonSend a => exact (AbandonSend.next_scans hr).scanStep rfl rfl rfl
  case scan s => exact Scan.scanStep hr
  case stopScan s => exact StopScan.scanStep hr
  case createScanHandle s => exact CreateScanHandle.scanStep hr
  case sendTransaction s =>
    obtain ⟨files, network, hσ⟩ := SendTransaction.next_frame hr
    rw [hσ]
    exact .same ⟨rfl, rfl, rfl⟩ rfl rfl
  case createWallet c =>
    obtain ⟨files, network, hσ⟩ := CreateWallet.next_frame hr
    rw [hσ]
    exact .same ⟨rfl, rfl, rfl⟩ rfl rfl
  case getAddress c =>
    obtain ⟨files, network, hσ⟩ := GetAddress.next_frame hr
    rw [hσ]
    exact .same ⟨rfl, rfl, rfl⟩ rfl rfl

/-! ## Handles are claimed once -/

/-- What the protocol of handle ids sees of the state. -/
def Shared.ticketView (σ : Shared) : TicketProtocol.View :=
  ⟨fun id => id ∈ σ.scans.issued, σ.scanId⟩

theorem ticketStep_of_subset {p p' : TicketProtocol.Phase} (hp : p' = p)
    (hissued : ∀ id ∈ σ'.scans.issued, id ∈ σ.scans.issued) (hid : σ'.scanId = σ.scanId) :
    TicketProtocol.Step me p σ.ticketView p' σ'.ticketView := by
  rw [hp, show σ'.ticketView =
    { σ.ticketView with issued := fun id => id ∈ σ'.scans.issued } by simp [Shared.ticketView, hid]]
  exact .tick hissued

theorem ScanStep.ticketStep {call call' : Call} (h : ScanStep me call σ call' σ') :
    TicketProtocol.Step me call.ticket σ.ticketView call'.ticket σ'.ticketView := by
  cases h with
  | same hσ ht _ =>
    exact ticketStep_of_subset ht (fun id hid => hσ.scans ▸ hid) hσ.scanId
  | cancelWallet hσ ht ht' _ =>
    rw [Shared.cancelWalletScans_eq] at hσ
    refine ticketStep_of_subset (ht'.trans ht.symm) (fun id hid => ?_) hσ.scanId
    rwa [hσ.scans] at hid
  | stopScan hstop ht' _ =>
    obtain ⟨scans, tokens, rfl, -, hissued, -⟩ := Shared.stopScan_eq hstop
    exact ticketStep_of_subset ht' hissued rfl
  | @claim s _ hpos _ hissued =>
    have ht : (Call.scan s).ticket = .out := by simp [Call.ticket, hpos, ScanAt.stage]
    have hview : Shared.ticketView { σ with scans := { σ.scans with
          issued := σ.scans.issued.erase s.handle.id
          starting := σ.scans.starting.insert s.handle.id s.walletName } } =
        { σ.ticketView with
          issued := fun i => i ≠ s.handle.id ∧ σ.ticketView.issued i } := by
      simp [Shared.ticketView]
    rw [ht, hview]
    exact .claim hissued
  | enter hpos _ =>
    refine ticketStep_of_subset ?_ (fun _ hid => hid) rfl
    simp [Call.ticket, hpos, Scan.goto, ScanAt.stage]
  | refuse hpos =>
    refine ticketStep_of_subset ?_ (fun _ hid => hid) rfl
    simp [Call.ticket, hpos, Scan.goto, ScanAt.stage]
  | clear hpos hleft =>
    refine ticketStep_of_subset ?_ (fun _ hid => ?_) rfl
    · simp only [Call.ticket, Scan.goto, hleft, hpos]
      rfl
    · simpa [ScanState.clearScanIfCurrent, apply_ite ScanState.issued] using hid
  | @unstart s _ _ hpos =>
    have ht : (Call.scan s).ticket = .claimed s.handle.id := by
      simp [Call.ticket, hpos, ScanAt.stage]
    rw [ht]
    exact .finish
  | cancelSelf _ hpos hhandle _ =>
    refine ticketStep_of_subset ?_ (fun _ hid => hid) rfl
    simp [Call.ticket, hpos, hhandle]
  | stoppedBefore hpos | stop hpos =>
    refine ticketStep_of_subset ?_ (fun _ hid => hid) rfl
    simp [Call.ticket, hpos, Scan.goto, ScanAt.stage]
  | @mint h _ hpos =>
    have ht : (Call.createScanHandle h).ticket = .out := by simp [Call.ticket, hpos]
    rw [ht]
    exact .mint
  | @issue h id _ hpos =>
    have ht : (Call.createScanHandle h).ticket = .minted id := by simp [Call.ticket, hpos]
    have hview : Shared.ticketView { σ with scans := σ.scans.issue id } =
        { σ.ticketView with issued := fun i => i = id ∨ σ.ticketView.issued i } := by
      simp [Shared.ticketView, ScanState.issue]
    rw [ht, hview]
    exact .issue

/-- The bridge refines the protocol of handle ids. -/
def ticketHom (ok : Guard Shared Call) : System.Hom system ok TicketProtocol.protocol where
  shared := Shared.ticketView
  call := Call.ticket
  init := by
    rintro σ ⟨files, tariCommon, rfl⟩
    simp [TicketProtocol.protocol, Shared.ticketView, Shared.initial, ScanState.initial]
  start := by
    intro call hstart
    cases call with
    | scan s =>
      simp only [system, Call.starts, decide_eq_true_eq] at hstart
      rw [hstart]
      rfl
    | createScanHandle h =>
      simp only [system, Call.starts, decide_eq_true_eq] at hstart
      simp [TicketProtocol.protocol, Call.ticket, hstart]
    | _ => rfl
  step := by
    rintro s c l l' σ' _ _ _ ⟨ch, hstep⟩
    exact (Call.scanStep hstep).ticketStep

variable {ok : Guard Shared Call} {s : World}

/-- Two calls that hold one handle id are one. -/
theorem handle_unique (h : system.Reach ok s) {c d : CallId} {call call' : Call} {id : Nat}
    (hc : s.calls c = some call) (hid : call.ticket = .claimed id) (hd : s.calls d = some call')
    (hid' : call'.ticket = .claimed id) : c = d := by
  have hT := (ticketHom ok).reach_any h
  refine TicketProtocol.holder_unique hT (p := .claimed id) (q := .claimed id) ?_ rfl ?_ rfl
  · simp [System.Hom.config_calls, hc, ticketHom, hid]
  · simp [System.Hom.config_calls, hd, ticketHom, hid']

/-- A claimed handle is not issued any more. -/
theorem not_issued_of_claimed (h : system.Reach ok s) {c : CallId} {call : Call} {id : Nat}
    (hc : s.calls c = some call) (hid : call.ticket = .claimed id) :
    id ∉ s.shared.scans.issued := by
  refine (TicketProtocol.sole ((ticketHom ok).reach_any h) c (.claimed id) id ?_ rfl).1
  simp [System.Hom.config_calls, hc, ticketHom, hid]

/-! ## What is in a slot -/

theorem Call.ticket_of_slot {call : Call} {id : Nat} (h : call.slot = some (w, id)) :
    call.ticket = .claimed id := by
  cases call with
  | scan s =>
    simp only [slot, Option.ite_none_right_eq_some, Option.some.injEq, Prod.mk.injEq] at h
    simp [ticket, h.1, h.2.2]
  | _ => cases h

theorem clearScanIfCurrent_lookup {state : ScanState} {id : Nat} {v : WalletName}
    {c : ScanController}
    (h : (state.clearScanIfCurrent w id).running.lookup v = some c) :
    state.running.lookup v = some c ∧ (v = w → c.id ≠ id) := by
  unfold ScanState.clearScanIfCurrent at h
  split at h
  · dsimp only at h
    rw [Table.lookup_erase_eq] at h
    split at h
    · cases h
    · exact ⟨h, fun hv => absurd hv ‹_›⟩
  · rename_i hany
    refine ⟨h, ?_⟩
    rintro rfl rfl
    simp [h] at hany

/-- What is in a slot after a step was there before, or took it now. -/
theorem ScanStep.running_origin {call call' : Call} (h : ScanStep me call σ call' σ')
    {c : ScanController} (hc : σ'.scans.running.lookup w = some c) :
    (c.scan = me ∧ call'.slot = some (w, c.id) ∧ ∃ s wallet, call = .scan s ∧ s.pos = .slot ∧
        σ.scans.starting.lookup s.handle.id = some wallet) ∨
      (σ.scans.running.lookup w = some c ∧
        (call.slot = some (w, c.id) → call'.slot = some (w, c.id))) := by
  cases h with
  | same hσ _ hslot =>
    rw [hσ.scans] at hc
    exact Or.inr ⟨hc, hslot.trans⟩
  | cancelWallet hσ _ _ hslot =>
    rw [hσ.scans, Shared.cancelWalletScans_eq] at hc
    exact Or.inr ⟨hc, hslot.trans⟩
  | stopScan hstop _ _ =>
    obtain ⟨scans, tokens, rfl, hrun, -, -⟩ := Shared.stopScan_eq hstop
    exact Or.inr ⟨hrun ▸ hc, nofun⟩
  | claim hpos _ _ | stoppedBefore hpos | refuse hpos | unstart hpos | stop hpos =>
    refine Or.inr ⟨hc, fun hslot => ?_⟩
    simp [Call.slot, hpos, ScanAt.stage] at hslot
  | @enter s wallet _ hpos hstart =>
    have hc' : (σ.scans.running.insert s.walletName ⟨s.handle.id, s.priority, me⟩).lookup w =
        some c := hc
    rw [Table.lookup_insert_eq] at hc'
    split at hc'
    · rename_i hw
      obtain rfl := Option.some.inj hc'
      exact Or.inl ⟨rfl, by simp [Call.slot, Scan.goto, ScanAt.stage, hw], s, wallet, rfl, hpos, hstart⟩
    · refine Or.inr ⟨hc', fun hslot => ?_⟩
      simp [Call.slot, hpos, ScanAt.stage] at hslot
  | @clear s _ _ _ hpos _ =>
    obtain ⟨hold, hne⟩ := clearScanIfCurrent_lookup hc
    refine Or.inr ⟨hold, fun hslot => ?_⟩
    simp only [Call.slot, hpos, ScanAt.stage, if_true, Option.some.injEq, Prod.mk.injEq] at hslot
    exact absurd hslot.2.symm (hne hslot.1.symm)
  | cancelSelf hstage hpos hhandle hname =>
    refine Or.inr ⟨hc, fun hslot => ?_⟩
    simp only [Call.slot, hpos, hhandle, hname]
    exact hslot
  | mint _ | issue _ => exact Or.inr ⟨hc, nofun⟩

/-- In a slot is an active scan of that wallet, under its id. -/
theorem running_sound (h : system.Reach ok s) :
    ∀ w c, s.shared.scans.running.lookup w = some c →
      ∃ call, s.calls c.scan = some call ∧ call.slot = some (w, c.id) := by
  refine h.invariant (I := fun s => ∀ w c, s.shared.scans.running.lookup w = some c →
    ∃ call, s.calls c.scan = some call ∧ call.slot = some (w, c.id)) ?_ ?_ ?_
  · rintro σ ⟨files, tariCommon, rfl⟩ w c hc
    cases hc
  · intro s d call _ ih _ hfree _ w c hc
    obtain ⟨call', hcall', hslot⟩ := ih w c hc
    exact ⟨call', Config.put_calls_of_free hfree hcall', hslot⟩
  · rintro s m call call' σ' _ ih _ hm ⟨ch, hstep⟩ w c hc
    rcases (Call.scanStep hstep).running_origin hc with ⟨rfl, hslot, -⟩ | ⟨hold, hkeep⟩
    · exact ⟨call', Config.put_calls_self _ _ _ _, hslot⟩
    · obtain ⟨call₀, hcall₀, hslot⟩ := ih w c hold
      by_cases hcm : c.scan = m
      · obtain rfl := Option.some.inj ((hcm ▸ hcall₀).symm.trans hm)
        exact ⟨call', by rw [hcm]; exact Config.put_calls_self _ _ _ _, hkeep hslot⟩
      · exact ⟨call₀, by rw [Config.put_calls_ne _ _ _ hcm]; exact hcall₀, hslot⟩

/-! ## What is in `starting`, and the tokens -/

/-- What is in `starting` after a step was there before, or is claimed now. -/
theorem ScanStep.starting_origin {call call' : Call} (h : ScanStep me call σ call' σ') {id : Nat}
    {v : WalletName} (hv : σ'.scans.starting.lookup id = some v) :
    σ.scans.starting.lookup id = some v ∨ ∃ s, call = .scan s ∧ s.pos = .claim ∧
      s.handle.id = id ∧ s.walletName = v ∧ id ∈ σ.scans.issued := by
  have hunstart {id' : Nat} (hv : (σ.scans.unstart id').starting.lookup id = some v) :
      σ.scans.starting.lookup id = some v := by
    simp only [ScanState.unstart, Table.lookup_erase_eq] at hv
    split at hv
    · cases hv
    · exact hv
  cases h with
  | same hσ _ _ => exact Or.inl (hσ.scans ▸ hv)
  | cancelWallet hσ _ _ _ =>
    rw [hσ.scans, Shared.cancelWalletScans_eq] at hv
    exact Or.inl (Table.lookup_retain_eq_some.mp hv).1
  | stopScan hstop _ _ => exact Or.inl (Shared.stopScan_starting hstop hv)
  | @claim s _ hpos _ hissued =>
    have hv' : (σ.scans.starting.insert s.handle.id s.walletName).lookup id = some v := hv
    rw [Table.lookup_insert_eq] at hv'
    split at hv'
    · rename_i hid
      subst hid
      exact Or.inr ⟨s, rfl, hpos, rfl, Option.some.inj hv', hissued⟩
    · exact Or.inl hv'
  | clear _ _ =>
    simp only [ScanState.clearScanIfCurrent, apply_ite ScanState.starting, ite_self] at hv
    exact Or.inl hv
  | enter _ _ | refuse _ | unstart _ => exact Or.inl (hunstart hv)
  | stoppedBefore _ | cancelSelf _ _ _ _ | stop _ | mint _ | issue _ => exact Or.inl hv

/-- A cancelled token stays cancelled. -/
theorem ScanStep.cancelled {call call' : Call} (h : ScanStep me call σ call' σ') {d : CallId}
    (hd : (σ.tokens d).cancelled = true) : (σ'.tokens d).cancelled = true := by
  cases h with
  | same hσ _ _ => rwa [hσ.tokens]
  | @cancelWallet _ _ _ _ v hσ _ _ _ =>
    rw [hσ.tokens, Shared.cancelWalletScans_eq]
    cases σ.scans.running.lookup v <;> simp [hd]
  | stopScan hstop _ _ =>
    obtain ⟨scans, tokens, rfl, -, -, rfl | ⟨c, rfl⟩⟩ := Shared.stopScan_eq hstop <;> simp [hd]
  | @enter s _ _ _ _ =>
    dsimp only
    cases σ.scans.running.lookup s.walletName <;> simp [hd]
  | cancelSelf _ _ _ _ | stop _ => simp [hd]
  | _ => exact hd

/-- A `stopped` token that has fired stays so. -/
theorem ScanStep.stopped {call call' : Call} (h : ScanStep me call σ call' σ') {d : CallId}
    (hd : (σ.tokens d).stopped = true) : (σ'.tokens d).stopped = true := by
  cases h with
  | same hσ _ _ => rwa [hσ.tokens]
  | @cancelWallet _ _ _ _ v hσ _ _ _ =>
    rw [hσ.tokens, Shared.cancelWalletScans_eq]
    cases σ.scans.running.lookup v <;> simp [hd]
  | stopScan hstop _ _ =>
    obtain ⟨scans, tokens, rfl, -, -, rfl | ⟨c, rfl⟩⟩ := Shared.stopScan_eq hstop <;> simp [hd]
  | @enter s _ _ _ _ =>
    dsimp only
    cases σ.scans.running.lookup s.walletName <;> simp [hd]
  | cancelSelf _ _ _ _ | stop _ => simp [hd]
  | _ => exact hd

/-- A superseded scan stays superseded. -/
theorem ScanStep.superseded {call call' : Call} (h : ScanStep me call σ call' σ') {d : CallId}
    (hd : (σ.tokens d).superseded = true) : (σ'.tokens d).superseded = true := by
  cases h with
  | same hσ _ _ => rwa [hσ.tokens]
  | @cancelWallet _ _ _ _ v hσ _ _ _ =>
    rw [hσ.tokens, Shared.cancelWalletScans_eq]
    cases σ.scans.running.lookup v <;> simp [hd]
  | stopScan hstop _ _ =>
    obtain ⟨scans, tokens, rfl, -, -, rfl | ⟨c, rfl⟩⟩ := Shared.stopScan_eq hstop <;> simp [hd]
  | @enter x _ _ _ _ =>
    dsimp only
    cases σ.scans.running.lookup x.walletName <;> simp [hd]
  | cancelSelf _ _ _ _ | stop _ => simp [hd]
  | _ => exact hd

/-- Scan `x`, about to take its slot, takes it from the scan of `old`. -/
structure Scan.TakesFrom (x : Scan) (old : ScanController) (σ : Shared) (call' : Call) : Prop where
  pos : x.pos = .slot
  starting : (σ.scans.starting.lookup x.handle.id).isSome = true
  slot : σ.scans.running.lookup x.walletName = some old
  goes : call' = .scan (x.goto (.dropMaintenance (some old.scan)))

/-- A scan is marked superseded by the one that takes its slot while its token is uncancelled. -/
theorem ScanStep.superseded_of {call call' : Call} (h : ScanStep me call σ call' σ') {d : CallId}
    (hd : (σ'.tokens d).superseded = true) :
    (σ.tokens d).superseded = true ∨ ∃ x old, call = .scan x ∧ x.TakesFrom old σ call' ∧
      old.scan = d ∧ (σ.tokens d).cancelled = false := by
  cases h with
  | same hσ _ _ =>
    rw [hσ.tokens] at hd
    exact Or.inl hd
  | @cancelWallet _ _ _ _ v hσ _ _ _ =>
    rw [hσ.tokens, Shared.cancelWalletScans_eq] at hd
    cases hrun : σ.scans.running.lookup v <;> rw [hrun] at hd
    · exact Or.inl hd
    · exact Or.inl (by simpa using hd)
  | stopScan hstop _ _ =>
    obtain ⟨scans, tokens, rfl, -, -, rfl | ⟨c, rfl⟩⟩ := Shared.stopScan_eq hstop
    · exact Or.inl hd
    · exact Or.inl (by simpa using hd)
  | @enter x wallet _ hpos hstart =>
    dsimp only at hd
    cases hrun : σ.scans.running.lookup x.walletName with
    | none =>
      rw [hrun] at hd
      exact Or.inl hd
    | some old =>
      rw [hrun, Option.elim_some, TokenMap.replace_superseded, Bool.or_eq_true,
        Bool.and_eq_true, decide_eq_true_eq, Bool.not_eq_true'] at hd
      rcases hd with ⟨rfl, hlive⟩ | hd
      · exact Or.inr ⟨x, old, rfl, ⟨hpos, by rw [hstart]; rfl, hrun, rfl⟩, rfl, hlive⟩
      · exact Or.inl hd
  | cancelSelf _ _ _ _ | stop _ => exact Or.inl (by simpa using hd)
  | _ => exact Or.inl hd

/-- Only by claiming a handle does a call come to hold one. -/
theorem ScanStep.claimed_of {s s' : Scan} (h : ScanStep me (.scan s) σ (.scan s') σ')
    (hpos : s.pos ≠ .claim) (ht : (Call.scan s').ticket = .claimed s'.handle.id) :
    (Call.scan s).ticket = .claimed s'.handle.id := by
  cases h with
  | same _ hsame _ => exact hsame.symm.trans ht
  | cancelWallet _ _ hout _ =>
    rw [hout] at ht
    cases ht
  | claim hclaim _ _ | stoppedBefore hclaim => exact absurd hclaim hpos
  | enter hslot _ | refuse hslot => simp [Call.ticket, hslot, ScanAt.stage, Scan.goto]
  | clear hclear _ => simp [Call.ticket, hclear, ScanAt.stage, Scan.goto]
  | unstart _ | stop _ => cases ht
  | cancelSelf _ hsame hhandle _ => simpa [Call.ticket, hsame, hhandle] using ht

end CwTariWallet
