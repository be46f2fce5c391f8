/-
# CwTariWallet.Bridge.ScanStops -- what can stop a scan, and what cannot

A token is cancelled in four ways: by `stop_scan` with the scan's own id, by the scan's own forwarder when
a delivery fails, by the scan that takes its slot, and by `cancel_wallet_scans` of its own wallet.  A start
that is refused touches no other scan, and a scan that ends clears no slot but its own
(`nothing_else_stops`).

That a start was refused is a fact about all of its steps, so every call's steps are recorded
(`footsteps`).
-/
import CwTariWallet.Bridge.LockedScans
import CwTariWallet.Recording

namespace CwTariWallet

open Interleaving

variable {ok : Guard Shared Call} {s : World} {w : WalletName}
variable {me c : CallId} {ch : Choice} {σ σ' : Shared} {x x' : Scan}

/-! ## Who cancels a wallet's scans -/

def GateHeldAt.cancels : GateHeldAt → Bool
  | .cancelScans => true
  | _ => false

def GateAt.cancels : GateAt → Bool
  | .held h => h.cancels
  | _ => false

def StopAt.cancels : StopAt → Bool
  | .cancel => true
  | .wait _ => false

def EverywhereAt.cancels : EverywhereAt → Bool
  | .remove => false
  | .gate _ g => g.cancels
  | .stop s => s.cancels

def UnlockAt.cancels : UnlockAt → Bool
  | .lockHeld h _ _ => h.cancels
  | _ => false

def LockAt.cancels : LockAt → Bool
  | .gate _ g => g.cancels
  | .stop s => s.cancels
  | _ => false

def ForceAt.cancels : ForceAt → Bool
  | .everywhere e => e.cancels
  | .returned => false

def WithLockedAt.cancels : WithLockedAt → Bool
  | .lockBefore _ e | .lockAfter e _ => e.cancels
  | _ => false

def ChangeAt.cancels : ChangeAt → Bool
  | .stop s => s.cancels
  | _ => false

def AbandonAt.cancels : AbandonAt → Bool
  | .stop s _ => s.cancels
  | _ => false

/-- The wallet whose scans a lock transition or a maintenance operation is about to cancel. -/
def Call.cancelsScansOf : Call → Option WalletName
  | .unlockWallet u => if u.pos.cancels then some u.walletName else none
  | .lockWallet l => if l.pos.cancels then some l.walletName else none
  | .forceLockWallet f => if f.pos.cancels then some f.walletName else none
  | .withWalletLocked m => if m.pos.cancels then some m.walletName else none
  | .changePassphrase p => if p.pos.cancels then some p.walletName else none
  | .abandonSend a => if a.pos.cancels then some a.walletName else none
  | _ => none

/-- A step that cancels `w`'s scans does to them just that, and any other leaves the tokens as they are. -/
structure CancelsIf (cancels : Bool) (w : WalletName) (σ σ' : Shared) : Prop where
  yes : cancels = true → SameScans (σ.cancelWalletScans w).2 σ'
  no : cancels = false → σ'.tokens = σ.tokens

theorem CancelsIf.keeps (h : σ'.tokens = σ.tokens) : CancelsIf false w σ σ' := ⟨nofun, fun _ => h⟩

theorem CancelsIf.all : CancelsIf true w σ (σ.cancelWalletScans w).2 := ⟨fun _ => .refl _, nofun⟩

theorem GateHeldAt.next_tokens {h : GateHeldAt} {r : GateHeldAt ⊕ Bool}
    (hnext : h.next w σ = (r, σ')) : CancelsIf h.cancels w σ σ' := by
  cases h with
  | readState =>
    simp only [GateHeldAt.next] at hnext
    split at hnext <;> obtain ⟨-, rfl⟩ := Prod.mk.inj hnext <;> exact .keeps rfl
  | lockSession =>
    cases hnext
    exact .keeps rfl
  | cancelScans =>
    cases hnext
    exact .all

theorem GateAt.next_tokens {g : GateAt} {r : GateAt ⊕ Bool} (hnext : g.next me w σ = some (r, σ')) :
    CancelsIf g.cancels w σ σ' := by
  cases g with
  | wait =>
    obtain ⟨σ₁, hhold, h⟩ := Option.map_eq_some_iff.mp hnext
    obtain ⟨-, rfl⟩ := Shared.holdGate_eq_some hhold
    cases h
    exact .keeps rfl
  | held h =>
    unfold GateAt.next at hnext
    dsimp only at hnext
    split at hnext <;> cases hnext <;> exact GateHeldAt.next_tokens ‹_›
  | leave locked =>
    cases hnext
    exact .keeps rfl

theorem StopAt.next_tokens {s : StopAt} {r : StopAt ⊕ Unit} (h : s.next w σ = some (r, σ')) :
    CancelsIf s.cancels w σ σ' := by
  rcases StopAt.next_eq h with ⟨rfl, rfl, -⟩ | ⟨c, rfl, -, rfl, -⟩
  · exact .all
  · exact .keeps rfl

theorem EverywhereAt.next_tokens {e : EverywhereAt} {r : EverywhereAt ⊕ Unit}
    (hnext : e.next me w σ = some (r, σ')) : CancelsIf e.cancels w σ σ' := by
  unfold next at hnext
  cases e with
  | remove =>
    cases hnext
    exact .keeps rfl
  | gate file g =>
    dsimp only at hnext
    split at hnext <;> cases hnext <;> exact GateAt.next_tokens ‹_›
  | stop s =>
    dsimp only at hnext
    split at hnext <;> cases hnext <;> exact StopAt.next_tokens ‹_›

theorem UnlockWallet.next_tokens {u u' : UnlockWallet} (h : u.next me ch σ = some (u', σ')) :
    CancelsIf u.pos.cancels u.walletName σ σ' := by
  obtain ⟨path, v, passphrase, pos⟩ := u
  unfold next at h
  cases pos with
  | count =>
    dsimp only at h
    split at h <;> cases h
    · obtain ⟨db, rfl, -⟩ := Shared.count_error ‹_›
      exact .keeps rfl
    · obtain ⟨db, files, rfl, -, -⟩ := Shared.count_ok ‹_›
      exact .keeps rfl
  | gate g =>
    obtain ⟨σ₁, hhold, h⟩ := Option.map_eq_some_iff.mp h
    obtain ⟨-, rfl⟩ := Shared.holdGate_eq_some hhold
    cases h
    exact .keeps rfl
  | failed g e =>
    dsimp only at h
    split at h <;> cases h
    all_goals
      rcases Shared.releaseFailed_eq ‹_› with ⟨-, db, -, rfl⟩ | ⟨-, -, rfl⟩ <;> exact .keeps rfl
  | lockHeld hh g e =>
    dsimp only at h
    split at h <;> cases h <;> exact GateHeldAt.next_tokens ‹_›
  | _ =>
    dsimp only at h
    (repeat' split at h) <;> cases h <;> exact .keeps rfl

theorem LockWallet.next_tokens {l l' : LockWallet} (h : l.next me σ = some (l', σ')) :
    CancelsIf l.pos.cancels l.walletName σ σ' := by
  obtain ⟨v, holder, pos⟩ := l
  unfold next at h
  cases pos with
  | release =>
    dsimp only at h
    split at h <;> cases h
    all_goals
      obtain ⟨db, -, rfl⟩ := Shared.releaseSession_eq ‹_›
      exact .keeps rfl
  | gate file g =>
    dsimp only at h
    split at h <;> cases h <;> exact GateAt.next_tokens ‹_›
  | stop s =>
    dsimp only at h
    split at h <;> cases h <;> exact StopAt.next_tokens ‹_›
  | returned r => cases h

theorem ForceLockWallet.next_tokens {f f' : ForceLockWallet} (h : f.next me σ = some (f', σ')) :
    CancelsIf f.pos.cancels f.walletName σ σ' := by
  obtain ⟨v, pos⟩ := f
  unfold next at h
  cases pos with
  | everywhere e =>
    dsimp only at h
    split at h <;> cases h <;> exact EverywhereAt.next_tokens ‹_›
  | returned => cases h

theorem WithWalletLocked.next_tokens {m m' : WithWalletLocked} (h : m.next me ch σ = some (m', σ')) :
    CancelsIf m.pos.cancels m.walletName σ σ' := by
  obtain ⟨v, change, pos⟩ := m
  unfold next at h
  cases pos with
  | «begin» =>
    dsimp only at h
    split at h
    · cases h
      exact .keeps rfl
    · obtain ⟨σ₁, hbegin, h⟩ := Option.map_eq_some_iff.mp h
      obtain ⟨-, rfl⟩ := Shared.beginMaintenance_eq_some hbegin
      cases h
      exact .keeps rfl
  | lockBefore file e | lockAfter e changed =>
    dsimp only at h
    split at h <;> cases h <;> exact EverywhereAt.next_tokens ‹_›
  | _ =>
    dsimp only at h
    (repeat' split at h) <;> cases h <;> exact .keeps rfl

theorem ChangePassphrase.next_tokens {p p' : ChangePassphrase} (h : p.next me ch σ = some (p', σ')) :
    CancelsIf p.pos.cancels p.walletName σ σ' := by
  obtain ⟨v, old, new, pos⟩ := p
  unfold next at h
  cases pos with
  | «begin» =>
    obtain ⟨σ₁, hbegin, h⟩ := Option.map_eq_some_iff.mp h
    obtain ⟨-, rfl⟩ := Shared.beginMaintenance_eq_some hbegin
    cases h
    exact .keeps rfl
  | stop s =>
    dsimp only at h
    split at h <;> cases h <;> exact StopAt.next_tokens ‹_›
  | _ =>
    dsimp only at h
    (repeat' split at h) <;> cases h <;> exact .keeps rfl

theorem AbandonSend.next_tokens {a a' : AbandonSend} (h : a.next me ch σ = some (a', σ')) :
    CancelsIf a.pos.cancels a.walletName σ σ' := by
  obtain ⟨v, passphrase, transactionId, pos⟩ := a
  unfold next at h
  cases pos with
  | «begin» account =>
    obtain ⟨σ₁, hbegin, h⟩ := Option.map_eq_some_iff.mp h
    obtain ⟨-, rfl⟩ := Shared.beginMaintenance_eq_some hbegin
    cases h
    exact .keeps rfl
  | stop s account =>
    dsimp only at h
    split at h <;> cases h <;> exact StopAt.next_tokens ‹_›
  | _ =>
    dsimp only at h
    (repeat' split at h) <;> cases h <;> exact .keeps rfl

/-! ## What a scan does to tokens -/

/-- The callback refuses the event the forwarder is about to receive. -/
def Scan.FailsDelivery (x : Scan) (ch : Choice) : Prop :=
  (x.pos = .running ∨ ∃ result, x.pos = .draining result) ∧ x.forwarder.sinkOpen = true ∧
    ∃ event dto, ch.event = some (event, false) ∧ mapProcessingEvent event = some dto ∧
      isTerminal dto = false

/-- By the priority rules, a scan may take its slot from the scan of `old`. -/
def Scan.MayReplace (x : Scan) (old : ScanController) (σ : Shared) : Prop :=
  ¬ (x.priority = .background ∧ old.priority = .foreground ∧
    (σ.tokens old.scan).cancelled = false ∧ (σ.tokens old.scan).stopped = false)

theorem ScanState.takeSlot_allowed {state : ScanState} {tokens : TokenMap} {controller : ScanController}
    {r : Option ScanController × ScanState × TokenMap}
    (h : state.takeSlot tokens w controller = .ok r) {old : ScanController}
    (hold : state.running.lookup w = some old) :
    ¬ (controller.priority = .background ∧ old.priority = .foreground ∧
      (tokens old.scan).cancelled = false ∧ (tokens old.scan).stopped = false) := by
  rintro ⟨hbackground, hforeground, hlive, hgoing⟩
  simp [ScanState.takeSlot, hold, hbackground, hforeground, hlive, hgoing] at h

theorem Shared.enterSlot_allowed {controller : ScanController} {previous : Option CallId}
    (h : σ.enterSlot w controller = (.ok (some previous), σ')) {old : ScanController}
    (hold : σ.scans.running.lookup w = some old) :
    ¬ (controller.priority = .background ∧ old.priority = .foreground ∧
      (σ.tokens old.scan).cancelled = false ∧ (σ.tokens old.scan).stopped = false) := by
  unfold enterSlot at h
  split at h
  · cases h
  · dsimp only at h
    split at h
    · cases h
    · rename_i htake
      exact ScanState.takeSlot_allowed htake hold

/-- What a step of a scan does to the tokens. -/
inductive Scan.TokensStep (me : CallId) (ch : Choice) (x : Scan) (σ : Shared) (x' : Scan) (σ' : Shared) : Prop
  | same : σ'.tokens = σ.tokens → TokensStep me ch x σ x' σ'
  | stop {r} : x.pos = .stop r → σ'.tokens = σ.tokens.stop me → TokensStep me ch x σ x' σ'
  | replace {old} : x.TakesFrom old σ (.scan x') → x.MayReplace old σ →
      σ'.tokens = σ.tokens.replace old.scan → TokensStep me ch x σ x' σ'
  | fail : x.FailsDelivery ch → σ'.tokens = σ.tokens.cancel me → TokensStep me ch x σ x' σ'

theorem Scan.receive_tokensStep (hpos : x.pos = .running ∨ ∃ result, x.pos = .draining result)
    {event : ProcessingEvent} {accepts : Bool} (hevent : ch.event = some (event, accepts)) :
    Scan.TokensStep me ch x σ (x.receive me σ event accepts).1 (x.receive me σ event accepts).2 := by
  cases hcancel : (x.forwarder.receive event accepts).2 with
  | false => exact .same (by simp [receive, hcancel])
  | true =>
    -- Only a refused delivery cancels.
    have hfails : x.FailsDelivery ch := by
      unfold Forwarder.receive at hcancel
      split at hcancel
      · cases hcancel
      · rename_i dto hdto
        split at hcancel
        · cases hcancel
        split at hcancel
        · split at hcancel
          · cases hcancel
          · rename_i hterminal hopen hrefused
            have haccepts : accepts = false := Bool.eq_false_iff.mpr hrefused
            exact ⟨hpos, hopen, event, dto, by rw [hevent, haccepts], hdto,
              Bool.eq_false_iff.mpr hterminal⟩
        · cases hcancel
    exact .fail hfails (by simp [receive, hcancel])

theorem Scan.next_tokens (h : x.next me ch σ = some (x', σ')) : x.TokensStep me ch σ x' σ' := by
  obtain ⟨handle, v, priority, continuous, rescanFrom, pos, dbPath, forwarder, checked, swept, rolledBack⟩ := x
  unfold next at h
  cases pos with
  | running | draining result =>
    dsimp only at h
    split at h
    · rename_i event accepts hevent
      cases h
      refine Scan.receive_tokensStep ?_ hevent
      first | exact Or.inl rfl | exact Or.inr ⟨_, rfl⟩
    · (repeat' split at h) <;> cases h <;> exact .same rfl
  | slot =>
    dsimp only at h
    split at h <;> rename_i henter <;> cases h <;>
      rcases Shared.enterSlot_eq henter with ⟨hr, rfl, -⟩ | ⟨e, hr, rfl⟩ | ⟨wallet, hstart, hr, rfl⟩ <;>
      cases hr
    · exact .same rfl
    · exact .same rfl
    · cases hrun : σ.scans.running.lookup v with
      | none => exact .same rfl
      | some old =>
        refine .replace ⟨rfl, Option.isSome_of_eq_some hstart, hrun, ?_⟩
          (Shared.enterSlot_allowed henter hrun) ?_
        · simp [goto]
        · simp
  | stop r =>
    cases h
    exact .stop rfl rfl
  | maintenance =>
    obtain ⟨σ₁, hbegin, h⟩ := Option.map_eq_some_iff.mp h
    obtain ⟨-, rfl⟩ := Shared.beginMaintenance_eq_some hbegin
    cases h
    exact .same rfl
  | sweepConn | sweep file =>
    cases rescanFrom <;> dsimp only at h <;> (repeat' split at h) <;> cases h <;> exact .same rfl
  | dropMaintenance previous =>
    cases previous <;> cases h <;> exact .same rfl
  | _ =>
    dsimp only at h
    (repeat' split at h) <;> cases h <;> exact .same rfl

/-! ## The scan in a slot -/

theorem Scan.next_priority (h : x.next me ch σ = some (x', σ')) : x'.priority = x.priority := by
  obtain ⟨handle, v, priority, continuous, rescanFrom, pos, dbPath, forwarder, checked, swept, rolledBack⟩ := x
  unfold next at h
  cases pos with
  | maintenance =>
    obtain ⟨σ₁, -, h⟩ := Option.map_eq_some_iff.mp h
    cases h
    rfl
  | sweepConn | sweep file =>
    cases rescanFrom <;> dsimp only at h <;> (repeat' split at h) <;> cases h <;> rfl
  | _ =>
    dsimp only at h
    (repeat' split at h) <;> cases h <;> rfl

/-- What is in a slot has the priority of its scan, after any step. -/
theorem ScanStep.running_priority {call call' : Call} (h : ScanStep me call σ call' σ')
    {k : ScanController} (hk : σ'.scans.running.lookup w = some k) :
    σ.scans.running.lookup w = some k ∨
      ∃ x, call = .scan x ∧ x.walletName = w ∧ k = ⟨x.handle.id, x.priority, me⟩ := by
  cases h with
  | same hσ _ _ => exact Or.inl (hσ.scans ▸ hk)
  | cancelWallet hσ _ _ _ =>
    rw [hσ.scans, Shared.cancelWalletScans_eq] at hk
    exact Or.inl hk
  | stopScan hstop _ _ =>
    obtain ⟨scans, tokens, rfl, hrun, -, -⟩ := Shared.stopScan_eq hstop
    exact Or.inl (hrun ▸ hk)
  | @enter x wallet _ _ _ =>
    have hk' : (σ.scans.running.insert x.walletName ⟨x.handle.id, x.priority, me⟩).lookup w = some k := hk
    rw [Table.lookup_insert_eq] at hk'
    split at hk'
    · rename_i hw
      exact Or.inr ⟨x, rfl, hw.symm, (Option.some.inj hk').symm⟩
    · exact Or.inl hk'
  | clear _ _ => exact Or.inl (clearScanIfCurrent_lookup hk).1
  | _ => exact Or.inl hk

/-- In a slot is a scan of that wallet, under its id and with its priority. -/
theorem running_scan (h : system.Reach ok s) {k : ScanController}
    (hk : s.shared.scans.running.lookup w = some k) :
    ∃ x, s.calls k.scan = some (.scan x) ∧ x.pos.stage = .active ∧ x.walletName = w ∧
      x.handle.id = k.id ∧ x.priority = k.priority := by
  have hpriority : ∀ w k, s.shared.scans.running.lookup w = some k →
      ∀ x, s.calls k.scan = some (.scan x) → x.priority = k.priority := by
    refine h.invariant (I := fun s : World => ∀ w k, s.shared.scans.running.lookup w = some k →
      ∀ x, s.calls k.scan = some (.scan x) → x.priority = k.priority) ?_ ?_ ?_
    · rintro σ ⟨files, tariCommon, rfl⟩ w k hk
      cases hk
    · intro s m call hs ih _ hfree _ w k hk x hx
      rcases Config.put_calls_eq_some hx with ⟨hkm, -⟩ | ⟨-, hx⟩
      · -- The scan in the slot has been called, so it is not the one that starts.
        obtain ⟨call', hcall', -⟩ := running_sound hs w k hk
        rw [hkm, hfree] at hcall'
        cases hcall'
      · exact ih w k hk x hx
    · rintro s m call call' σ' hs ih _ hm ⟨ch, hstep⟩ w k hk x' hx'
      rcases (Call.scanStep hstep).running_priority hk with hold | ⟨y, rfl, -, rfl⟩
      · rcases Config.put_calls_eq_some hx' with ⟨rfl, rfl⟩ | ⟨-, hx⟩
        · obtain ⟨x, rfl, hnext⟩ := Call.of_next_scan hstep
          exact (Scan.next_priority hnext).trans (ih w k hold x hm)
        · exact ih w k hold x' hx
      · obtain ⟨y', rfl, hnext⟩ := Call.next_scan hstep
        rw [Config.put_calls_self] at hx'
        obtain rfl := Call.scan.inj (Option.some.inj hx')
        exact Scan.next_priority hnext
  obtain ⟨call, hcall, hslot⟩ := running_sound h w k hk
  cases call with
  | scan x =>
    simp only [Call.slot, Option.ite_none_right_eq_some, Option.some.injEq, Prod.mk.injEq] at hslot
    exact ⟨x, hcall, hslot.1, hslot.2.1, hslot.2.2, hpriority w k hk x hcall⟩
  | _ => cases hslot

/-! ## What cancels a token -/

/-- Why a step of call `c` cancels the token of scan `d`. -/
inductive World.StoppedBy (s : World) (c : CallId) (call : Call) (ch : Choice) (call' : Call)
    (d : CallId) (x : Scan) : Prop
  /-- `stop_scan` with the scan's own id. -/
  | stopScan {h : StopScan} : call = .stopScan h → h.pos = .stop → h.handle.id = x.handle.id →
      h.handle.walletName = x.walletName → StoppedBy s c call ch call' d x
  /-- A delivery fails in the scan's own forwarder. -/
  | delivery : c = d → x.FailsDelivery ch → StoppedBy s c call ch call' d x
  /-- Another scan of the wallet takes the slot, which the priority rules let it. -/
  | replaced {y : Scan} : call = .scan y → c ≠ d → y.walletName = x.walletName → y.pos = .slot →
      call' = .scan (y.goto (.dropMaintenance (some d))) →
      ¬ (y.priority = .background ∧ x.priority = .foreground ∧
        (s.shared.tokens d).cancelled = false ∧ (s.shared.tokens d).stopped = false) →
      StoppedBy s c call ch call' d x
  /-- A lock transition or a maintenance operation of the wallet cancels its scans. -/
  | cancelled : call.cancelsScansOf = some x.walletName → StoppedBy s c call ch call' d x

/-- The state step of `stop_scan`. -/
theorem StopScan.next_stop {h h' : StopScan} (hnext : h.next σ = some (h', σ')) (hpos : h.pos = .stop) :
    ∃ waitFor scans tokens, σ.scans.stopScan σ.tokens h.handle = (waitFor, scans, tokens) ∧
      σ' = { σ with scans := scans, tokens := tokens } ∧
      h' = { h with pos := waitFor.elim .returned .wait } := by
  refine ⟨_, _, _, rfl, ?_⟩
  unfold next at hnext
  rw [hpos] at hnext
  dsimp only at hnext
  split at hnext <;> rename_i hstop <;> obtain ⟨hwait, rfl⟩ := Prod.mk.inj hstop <;> cases hnext <;>
    exact ⟨rfl, by rw [hwait]; rfl⟩

/-- What `stop_scan` cancels is the scan in its wallet's slot with its id. -/
theorem StopScan.next_tokens {h h' : StopScan} (hnext : h.next σ = some (h', σ')) :
    σ'.tokens = σ.tokens ∨ ∃ k, h.pos = .stop ∧
      σ.scans.running.lookup h.handle.walletName = some k ∧ k.id = h.handle.id ∧
      σ'.tokens = σ.tokens.cancel k.scan := by
  by_cases hpos : h.pos = .stop
  · obtain ⟨waitFor, scans, tokens, hstop, rfl, -⟩ := StopScan.next_stop hnext hpos
    rcases ScanState.stopScan_cases hstop with ⟨-, -, hsame, -⟩ | ⟨-, -, -, hsame, -⟩ |
      ⟨k, hk, hid, -, htokens, -⟩ | ⟨-, -, -, -, hsame, -⟩
    · exact Or.inl hsame
    · exact Or.inl hsame
    · exact Or.inr ⟨k, hpos, hk, hid, htokens⟩
    · exact Or.inl hsame
  · left
    unfold next at hnext
    split at hnext
    · exact absurd ‹_› hpos
    · split at hnext <;> cases hnext
      rfl
    · cases hnext

/-- What a step does to the tokens: nothing, or one of the four things. -/
inductive Call.TokensStep (me : CallId) (call : Call) (ch : Choice) (σ : Shared) (call' : Call)
    (σ' : Shared) : Prop
  | same : call.cancelsScansOf = none → σ'.tokens = σ.tokens → TokensStep me call ch σ call' σ'
  | cancels {w : WalletName} : call.cancelsScansOf = some w → SameScans (σ.cancelWalletScans w).2 σ' →
      TokensStep me call ch σ call' σ'
  | scan {x x' : Scan} : call = .scan x → call' = .scan x' → x.TokensStep me ch σ x' σ' →
      TokensStep me call ch σ call' σ'
  | stopScan {h : StopScan} {k : ScanController} : call = .stopScan h → h.pos = .stop →
      σ.scans.running.lookup h.handle.walletName = some k → k.id = h.handle.id →
      σ'.tokens = σ.tokens.cancel k.scan → TokensStep me call ch σ call' σ'

theorem CancelsIf.tokensStep {cancels : Bool} {call call' : Call} (h : CancelsIf cancels w σ σ')
    (hof : call.cancelsScansOf = if cancels then some w else none) :
    call.TokensStep me ch σ call' σ' := by
  cases cancels with
  | false => exact .same hof (h.no rfl)
  | true => exact .cancels hof (h.yes rfl)

theorem Call.tokensStep {call call' : Call} (h : call.next me ch σ = some (call', σ')) :
    call.TokensStep me ch σ call' σ' := by
  cases call <;> obtain ⟨r, hr, h⟩ := Option.map_eq_some_iff.mp h <;> cases h
  case setDatabasePath p =>
    obtain ⟨path, hσ⟩ := SetDatabasePath.next_frame hr
    exact .same rfl (by rw [hσ])
  case unlockWallet u => exact (UnlockWallet.next_tokens hr).tokensStep rfl
  case lockWallet l => exact (LockWallet.next_tokens hr).tokensStep rfl
  case forceLockWallet f => exact (ForceLockWallet.next_tokens hr).tokensStep rfl
  case withWalletLocked m => exact (WithWalletLocked.next_tokens hr).tokensStep rfl
  case changePassphrase p => exact (ChangePassphrase.next_tokens hr).tokensStep rfl
  case abandonSend a => exact (AbandonSend.next_tokens hr).tokensStep rfl
  case scan x => exact .scan rfl rfl (Scan.next_tokens hr)
  case stopScan y =>
    rcases StopScan.next_tokens hr with hsame | ⟨k, hpos, hk, hid, htokens⟩
    · exact .same rfl hsame
    · exact .stopScan rfl hpos hk hid htokens
  case createScanHandle y =>
    unfold CreateScanHandle.next at hr
    split at hr <;> cases hr <;> exact .same rfl rfl
  case sendTransaction y =>
    obtain ⟨files, network, hσ⟩ := SendTransaction.next_frame hr
    exact .same rfl (by rw [hσ])
  case createWallet y =>
    obtain ⟨files, network, hσ⟩ := CreateWallet.next_frame hr
    exact .same rfl (by rw [hσ])
  case getAddress y =>
    obtain ⟨files, network, hσ⟩ := GetAddress.next_frame hr
    exact .same rfl (by rw [hσ])

/-- A token is cancelled for one of the four reasons. -/
theorem stoppedBy_of_cancelled (h : system.Reach ok s) {call call' : Call}
    (hc : s.calls c = some call) (hstep : call.next c ch s.shared = some (call', σ')) {d : CallId}
    (hd : s.calls d = some (.scan x)) (hlive : (s.shared.tokens d).cancelled = false)
    (hcancelled : (σ'.tokens d).cancelled = true) : s.StoppedBy c call ch call' d x := by
  -- Whoever is in a slot and has `d`'s tokens is `d`.
  have hslot {v : WalletName} {k : ScanController}
      (hk : s.shared.scans.running.lookup v = some k) (hkd : d = k.scan) :
      x.pos.stage = .active ∧ x.walletName = v ∧ x.handle.id = k.id ∧ x.priority = k.priority := by
    obtain ⟨x₁, hx₁, hfacts⟩ := running_scan h hk
    rw [← hkd, hd] at hx₁
    obtain rfl := Call.scan.inj (Option.some.inj hx₁)
    exact hfacts
  have hd' : ∀ tokens : TokenMap, σ'.tokens = tokens → (tokens d).cancelled = true := by
    rintro tokens rfl
    exact hcancelled
  have hsame : σ'.tokens ≠ s.shared.tokens := by
    intro hsame
    have := hd' _ hsame
    rw [hlive] at this
    cases this
  cases Call.tokensStep hstep with
  | same _ heq => exact absurd heq hsame
  | @cancels w hof hcancel =>
    have htokens := hd' _ hcancel.tokens
    rw [Shared.cancelWalletScans_eq] at htokens
    cases hrun : s.shared.scans.running.lookup w with
    | none => simp [hrun, hlive] at htokens
    | some k =>
      simp only [hrun, Option.elim_some, TokenMap.cancel_cancelled, hlive, Bool.or_false,
        decide_eq_true_eq] at htokens
      obtain ⟨-, hname, -⟩ := hslot hrun htokens
      exact .cancelled (hname ▸ hof)
  | stopScan hcall hpos hk hid htokens =>
    have hdk := hd' _ htokens
    simp only [TokenMap.cancel_cancelled, hlive, Bool.or_false, decide_eq_true_eq] at hdk
    obtain ⟨-, hname, hid', -⟩ := hslot hk hdk
    exact .stopScan hcall hpos (hid.symm.trans hid'.symm) hname.symm
  | scan hcall hcall' htokens =>
    subst hcall hcall'
    cases htokens with
    | same heq => exact absurd heq hsame
    | stop _ htokens =>
      have := hd' _ htokens
      rw [TokenMap.stop_cancelled, hlive] at this
      cases this
    | @replace old htakes hmay htokens =>
      have hdk := hd' _ htokens
      simp only [TokenMap.replace_cancelled, hlive, Bool.or_false, decide_eq_true_eq] at hdk
      subst hdk
      obtain ⟨hactive, hname, -, hpriority⟩ := hslot htakes.slot rfl
      refine .replaced rfl ?_ hname.symm htakes.pos htakes.goes (hpriority ▸ hmay)
      rintro rfl
      obtain rfl := Call.scan.inj (Option.some.inj (hc.symm.trans hd))
      rw [htakes.pos] at hactive
      cases hactive
    | fail hfails htokens =>
      have hdk := hd' _ htokens
      simp only [TokenMap.cancel_cancelled, hlive, Bool.or_false, decide_eq_true_eq] at hdk
      subst hdk
      obtain rfl := Call.scan.inj (Option.some.inj (hc.symm.trans hd))
      exact .delivery rfl hfails

/-- A supersession is a replacement while the token is uncancelled. -/
theorem stoppedBy_of_superseded (h : system.Reach ok s) {call call' : Call}
    (hc : s.calls c = some call) (hstep : call.next c ch s.shared = some (call', σ')) {d : CallId}
    (hd : s.calls d = some (.scan x)) (hnot : (s.shared.tokens d).superseded = false)
    (hsuperseded : (σ'.tokens d).superseded = true) :
    (s.shared.tokens d).cancelled = false ∧ ∃ y, call = .scan y ∧ c ≠ d ∧
      y.walletName = x.walletName ∧ y.pos = .slot ∧
      call' = .scan (y.goto (.dropMaintenance (some d))) := by
  rcases (Call.scanStep hstep).superseded_of hsuperseded with hold | ⟨y, old, rfl, htakes, rfl, hlive⟩
  · rw [hnot] at hold
    cases hold
  · obtain ⟨x₁, hx₁, hactive, hname, -⟩ := running_scan h htakes.slot
    obtain rfl := Call.scan.inj (Option.some.inj (hd.symm.trans hx₁))
    refine ⟨hlive, y, rfl, ?_, hname.symm, htakes.pos, htakes.goes⟩
    rintro rfl
    obtain rfl := Call.scan.inj (Option.some.inj (hc.symm.trans hd))
    rw [htakes.pos] at hactive
    cases hactive

/-- A scan leaves its slot when it clears it itself, or when another takes the slot. -/
theorem slot_lost (h : system.Reach ok s) {call call' : Call} (hc : s.calls c = some call)
    (hstep : call.next c ch s.shared = some (call', σ')) {k : ScanController}
    (hk : s.shared.scans.running.lookup w = some k) (hlost : σ'.scans.running.lookup w ≠ some k) :
    k.scan = c ∨ ∃ y, call = .scan y ∧ y.walletName = w ∧ y.pos = .slot := by
  have hscan := Call.scanStep hstep
  cases hscan with
  | same hσ _ _ => exact absurd (hσ.scans ▸ hk) hlost
  | cancelWallet hσ _ _ _ =>
    rw [hσ.scans, Shared.cancelWalletScans_eq] at hlost
    exact absurd hk hlost
  | stopScan hstop _ _ =>
    obtain ⟨scans, tokens, rfl, hrun, -, -⟩ := Shared.stopScan_eq hstop
    exact absurd (hrun ▸ hk) hlost
  | @enter y _ _ hpos _ =>
    refine Or.inr ⟨y, rfl, ?_, hpos⟩
    by_contra hne
    refine hlost ?_
    show (s.shared.scans.running.insert y.walletName _).lookup w = some k
    rw [Table.lookup_insert_eq, if_neg (Ne.symm hne)]
    exact hk
  | @clear y outcome pos _ hpos _ =>
    left
    have hactive : y.pos.stage = .active := by
      rw [hpos]
      rfl
    by_cases hw : w = y.walletName
    · subst hw
      -- The slot is cleared only of the scan's own id.
      rw [← id_iff_scan h hc hactive hk]
      by_contra hid
      refine hlost ?_
      simp [ScanState.clearScanIfCurrent, hk, hid]
    · refine absurd ?_ hlost
      simp only [ScanState.clearScanIfCurrent]
      split
      · rw [Table.lookup_erase_eq, if_neg hw]
        exact hk
      · exact hk
  | _ => exact absurd hk hlost

/-! ## Starts that are refused -/

/-- The stages in the order a scan goes through them. -/
def ScanStage.rank : ScanStage → Nat
  | .before => 0
  | .starting => 1
  | .active => 2
  | .left => 3
  | .over => 4

/-- A scan never goes back to an earlier stage. -/
theorem Scan.next_rank (h : x.next me ch σ = some (x', σ')) :
    x.pos.stage.rank ≤ x'.pos.stage.rank := by
  obtain ⟨handle, v, priority, continuous, rescanFrom, pos, dbPath, forwarder, checked, swept, rolledBack⟩ := x
  unfold next at h
  cases pos with
  | maintenance =>
    obtain ⟨σ₁, -, h⟩ := Option.map_eq_some_iff.mp h
    cases h
    exact Nat.le_refl 1
  | sweepConn | sweep file =>
    cases rescanFrom <;> dsimp only at h <;> (repeat' split at h) <;> cases h <;> exact Nat.le_refl 2
  | dropMaintenance previous =>
    cases previous <;> cases h <;> simp [goto, ScanAt.stage, ScanStage.rank]
  | _ =>
    dsimp only at h
    (repeat' split at h) <;> cases h <;> simp [goto, ScanAt.stage, ScanStage.rank]

/-- The step changes no running entry, no token or flag of another scan, and no file. -/
structure LeavesScans (c : CallId) (σ σ' : Shared) : Prop where
  running : σ'.scans.running = σ.scans.running
  tokens : ∀ d, d ≠ c → σ'.tokens d = σ.tokens d
  files : σ'.files = σ.files

/-- Outside its slot, a scan leaves the others alone, and rolls nothing back. -/
theorem Scan.leavesScans (h : x.next me ch σ = some (x', σ')) (hbefore : x.pos.stage ≠ .active)
    (hafter : x'.pos.stage ≠ .active) :
    LeavesScans me σ σ' ∧ x'.rolledBack = x.rolledBack := by
  obtain ⟨handle, v, priority, continuous, rescanFrom, pos, dbPath, forwarder, checked, swept, rolledBack⟩ := x
  unfold next at h
  cases pos with
  | claim =>
    dsimp only at h
    split at h
    · cases h
      exact ⟨⟨rfl, fun _ _ => rfl, rfl⟩, rfl⟩
    · split at h <;> cases h
      all_goals
        rcases ScanState.claim_cases ‹_› with ⟨hr, rfl⟩ | ⟨hr, rfl⟩ | ⟨hr, -, rfl⟩ <;> cases hr
        exact ⟨⟨rfl, fun _ _ => rfl, rfl⟩, rfl⟩
  | maintenance =>
    obtain ⟨σ₁, hbegin, h⟩ := Option.map_eq_some_iff.mp h
    obtain ⟨-, rfl⟩ := Shared.beginMaintenance_eq_some hbegin
    cases h
    exact ⟨⟨rfl, fun _ _ => rfl, rfl⟩, rfl⟩
  | slot =>
    dsimp only at h
    split at h <;> rename_i henter <;> cases h
    · rcases Shared.enterSlot_eq henter with ⟨hr, rfl, -⟩ | ⟨e, hr, rfl⟩ | ⟨wallet, -, hr, rfl⟩ <;> cases hr
      exact ⟨⟨rfl, fun _ _ => rfl, rfl⟩, rfl⟩
    · rcases Shared.enterSlot_eq henter with ⟨hr, rfl, -⟩ | ⟨e, hr, rfl⟩ | ⟨wallet, -, hr, rfl⟩ <;> cases hr
      exact ⟨⟨rfl, fun _ _ => rfl, rfl⟩, rfl⟩
    · exact absurd rfl hafter
  | stop r =>
    cases h
    refine ⟨⟨rfl, fun d hd => ?_, rfl⟩, rfl⟩
    exact Function.update_of_ne hd _ _
  | dbPath | conn | account _ | check _ | leaveMaintenance _ | goneConn _ | gone _ _ | unstart _
  | terminal _ =>
    dsimp only at h
    (repeat' split at h) <;> cases h <;> exact ⟨⟨rfl, fun _ _ => rfl, rfl⟩, rfl⟩
  | returned r => cases h
  | _ => exact absurd rfl hbefore

/-- What refuses a start, or stops it before it takes its slot. -/
inductive Scan.Refused (x : Scan) (ch : Choice) (σ : Shared) : Prop
  | otherWallet : x.pos = .claim → x.handle.walletName ≠ x.walletName → Refused x ch σ
  | stoppedBefore : x.pos = .claim → x.handle.id ∈ σ.scans.stoppedBeforeStart → Refused x ch σ
  | used : x.pos = .claim → x.handle.id ∉ σ.scans.issued → Refused x ch σ
  | locked {file : PathBuf} : x.pos = .check file → σ.isUnlocked file x.walletName ch = .ok false →
      Refused x ch σ
  | outOfRange {file : PathBuf} {fromHeight : Nat} : x.pos = .check file →
      x.rescanFrom = some fromHeight → 9223372036854775807 < fromHeight → Refused x ch σ
  | stoppedWaiting : x.pos = .slot → σ.scans.starting.lookup x.handle.id = none → Refused x ch σ
  | foreground {current : ScanController} : x.pos = .slot →
      σ.scans.running.lookup x.walletName = some current → current.priority = .foreground →
      x.priority = .background → (σ.tokens current.scan).cancelled = false →
      (σ.tokens current.scan).stopped = false → Refused x ch σ

/-- A start is refused before it is in its slot. -/
theorem Scan.Refused.early (hrefused : x.Refused ch σ) : x.pos.stage.rank ≤ 1 := by
  cases hrefused with
  | otherWallet hpos _ | stoppedBefore hpos _ | used hpos _ =>
    rw [hpos]
    exact Nat.zero_le 1
  | locked hpos _ | outOfRange hpos _ _ =>
    rw [hpos]
    exact Nat.le_refl 1
  | stoppedWaiting hpos _ | foreground hpos _ _ _ _ _ =>
    rw [hpos]
    exact Nat.le_refl 1

/-- And it ends without taking the slot. -/
theorem Scan.Refused.next (hrefused : x.Refused ch σ) (h : x.next me ch σ = some (x', σ')) :
    3 ≤ x'.pos.stage.rank := by
  have hover : 3 ≤ ScanStage.over.rank := Nat.le_succ 3
  have hleft : 3 ≤ ScanStage.left.rank := Nat.le_refl 3
  obtain ⟨handle, v, priority, continuous, rescanFrom, pos, dbPath, forwarder, checked, swept, rolledBack⟩ := x
  unfold Scan.next at h
  cases hrefused with
  | otherWallet hpos hother =>
    dsimp only at hpos hother
    subst hpos
    simp only [ne_eq, hother, not_false_eq_true, if_true] at h
    cases h
    exact hover
  | stoppedBefore hpos hstopped =>
    dsimp only at hpos hstopped
    subst hpos
    simp only [ScanState.claim, hstopped, if_true] at h
    split at h <;> cases h <;> exact hover
  | used hpos hused =>
    dsimp only at hpos
    subst hpos
    dsimp only at h
    split at h
    · cases h
      exact hover
    · split at h <;> rename_i hclaim <;> cases h
      · exact hover
      · exact hover
      · rcases ScanState.claim_cases hclaim with ⟨hr, -⟩ | ⟨hr, -⟩ | ⟨-, hissued, -⟩
        · cases hr
        · cases hr
        · exact absurd hissued hused
  | locked hpos hlocked =>
    dsimp only at hpos hlocked
    subst hpos
    simp only [hlocked] at h
    cases h
    exact hleft
  | @outOfRange file fromHeight hpos hfrom hrange =>
    dsimp only at hpos hfrom
    subst hpos hfrom
    have hheight : checkRescanHeight fromHeight = .error _ := if_neg (Nat.not_le_of_lt hrange)
    dsimp only [Option.map_some] at h
    rw [hheight] at h
    split at h <;> cases h <;> exact hleft
  | stoppedWaiting hpos hstopped =>
    dsimp only at hpos hstopped
    subst hpos
    simp only [Shared.enterSlot, hstopped, Option.isNone_none, if_true] at h
    cases h
    exact hleft
  | foreground hpos hrun hforeground hbackground hlive hgoing =>
    dsimp only at hpos hrun hbackground
    subst hpos hbackground
    dsimp only at h
    split at h <;> rename_i henter <;> cases h
    · exact hleft
    · exact hleft
    · exact absurd ⟨rfl, hforeground, hlive, hgoing⟩ (Shared.enterSlot_allowed henter hrun)

/-! ## The steps of a call -/

/-- One step of a call: where it stood, and what it found and was answered. -/
structure Footstep where
  call : Call
  choice : Choice
  shared : Shared

/-- The bridge, with the steps of every call. -/
def footsteps : Recording system Choice Footstep where
  next := Call.next
  record _ call ch σ := [⟨call, ch, σ⟩]
  step_iff := Call.step_iff

namespace Footstep

/-- A step of a scan in its slot. -/
def Active (f : Footstep) : Prop := ∃ x, f.call = .scan x ∧ x.pos.stage = .active

/-- A step that refuses a start. -/
def Refuses (f : Footstep) : Prop := ∃ x, f.call = .scan x ∧ x.Refused f.choice f.shared

/-- A step of call `c` that leaves the other scans and the files alone. -/
def Leaves (f : Footstep) (c : CallId) : Prop :=
  ∀ call' σ', f.call.next c f.choice f.shared = some (call', σ') → LeavesScans c f.shared σ'

end Footstep

/-- The steps of scan `c`, which now stands at `x`. -/
structure Scan.Course (c : CallId) (x : Scan) (steps : List Footstep) : Prop where
  /-- Before its slot a scan has taken no step in it. -/
  early : x.pos.stage.rank ≤ 1 → ∀ f ∈ steps, ¬ f.Active
  /-- A scan that never was in its slot left the others alone. -/
  quiet : x.pos.stage ≠ .active → (∀ f ∈ steps, ¬ f.Active) →
    (∀ f ∈ steps, f.Leaves c) ∧ x.rolledBack = none
  /-- A refused start never is in its slot. -/
  refused : ∀ f ∈ steps, f.Refuses → 3 ≤ x.pos.stage.rank ∧ ∀ g ∈ steps, ¬ g.Active

theorem ScanStage.ne_active_of_rank_le {stage : ScanStage} (h : stage.rank ≤ 1) : stage ≠ .active := by
  rintro rfl
  exact absurd h (by decide)

theorem ScanStage.ne_active_of_le_rank {stage : ScanStage} (h : 3 ≤ stage.rank) : stage ≠ .active := by
  rintro rfl
  exact absurd h (by decide)

theorem Footstep.not_active {x : Scan} (h : x.pos.stage ≠ .active) :
    ¬ Footstep.Active ⟨.scan x, ch, σ⟩ := by
  rintro ⟨y, hy, hactive⟩
  obtain rfl := Call.scan.inj hy
  exact h hactive

/-- A scan stays on its course. -/
theorem Scan.Course.step {steps : List Footstep} (h : x.Course c steps)
    (hnext : x.next c ch σ = some (x', σ')) : x'.Course c (steps ++ [⟨.scan x, ch, σ⟩]) := by
  have hrank := Scan.next_rank hnext
  refine ⟨fun hearly => ?_, fun hnow hnever => ?_, fun f hf hrefuses => ?_⟩
  · have hx : x.pos.stage.rank ≤ 1 := Nat.le_trans hrank hearly
    intro f hf
    rcases List.mem_append.mp hf with hf | hf
    · exact h.early hx f hf
    · obtain rfl := List.mem_singleton.mp hf
      exact Footstep.not_active (ScanStage.ne_active_of_rank_le hx)
  · have hx : x.pos.stage ≠ .active := fun hactive =>
      hnever _ (List.mem_append_right _ List.mem_cons_self) ⟨x, rfl, hactive⟩
    obtain ⟨hleaves, hrolled⟩ := h.quiet hx fun f hf => hnever f (List.mem_append_left _ hf)
    obtain ⟨hleave, hsame⟩ := Scan.leavesScans hnext hx hnow
    refine ⟨fun f hf => ?_, hsame.trans hrolled⟩
    rcases List.mem_append.mp hf with hf | hf
    · exact hleaves f hf
    · obtain rfl := List.mem_singleton.mp hf
      intro call' σ₁ hstep
      obtain ⟨y, -, hy⟩ := Call.next_scan hstep
      obtain ⟨-, rfl⟩ := Prod.mk.inj (Option.some.inj (hnext.symm.trans hy))
      exact hleave
  · rcases List.mem_append.mp hf with hf | hf
    · obtain ⟨hlate, hnever⟩ := h.refused f hf hrefuses
      refine ⟨Nat.le_trans hlate hrank, fun g hg => ?_⟩
      rcases List.mem_append.mp hg with hg | hg
      · exact hnever g hg
      · obtain rfl := List.mem_singleton.mp hg
        exact Footstep.not_active (ScanStage.ne_active_of_le_rank hlate)
    · -- The start is refused now: all its steps so far were before its slot.
      obtain rfl := List.mem_singleton.mp hf
      obtain ⟨y, hy, hrefused⟩ := hrefuses
      obtain rfl := Call.scan.inj hy
      refine ⟨hrefused.next hnext, fun g hg => ?_⟩
      rcases List.mem_append.mp hg with hg | hg
      · exact h.early hrefused.early g hg
      · obtain rfl := List.mem_singleton.mp hg
        exact Footstep.not_active (ScanStage.ne_active_of_rank_le hrefused.early)

theorem scan_course {ok : Guard (Recorded Shared Footstep) Call} {s : Config (Recorded Shared Footstep) Call}
    (h : footsteps.recorded.Reach ok s) (hc : s.calls c = some (.scan x)) :
    x.Course c (s.shared.records c) := by
  refine Recording.own_course (R := footsteps)
    (A := fun c call steps => ∀ x, call = .scan x → x.Course c steps) ?_ ?_ h hc x rfl
  · rintro c call hstart x rfl
    have hx : x = _ := of_decide_eq_true hstart
    rw [hx]
    exact ⟨fun _ f hf => (by cases hf), fun _ _ => ⟨fun f hf => (by cases hf), rfl⟩,
      fun f hf => (by cases hf)⟩
  · intro s c call ch call' σ' _ _ hA hnext x' hx'
    subst hx'
    obtain ⟨x, rfl, hx⟩ := Call.of_next_scan hnext
    exact (hA x rfl).step hx

/-! ## Nothing else stops a scan -/

/-- Of the scans that have been called, a step stops only one of those it may stop, and takes only a slot
it may take. -/
structure World.StopsOnly (s : World) (c : CallId) (call : Call) (ch : Choice) (call' : Call)
    (σ' : Shared) : Prop where
  token : ∀ d x, s.calls d = some (.scan x) → (s.shared.tokens d).cancelled = false →
    (σ'.tokens d).cancelled = true → s.StoppedBy c call ch call' d x
  superseded : ∀ d x, s.calls d = some (.scan x) → (s.shared.tokens d).superseded = false →
    (σ'.tokens d).superseded = true → (s.shared.tokens d).cancelled = false ∧
      ∃ y, call = .scan y ∧ c ≠ d ∧ y.walletName = x.walletName ∧ y.pos = .slot ∧
        call' = .scan (y.goto (.dropMaintenance (some d)))
  slot : ∀ w k, s.shared.scans.running.lookup w = some k → σ'.scans.running.lookup w ≠ some k →
    k.scan = c ∨ ∃ y, call = .scan y ∧ y.walletName = w ∧ y.pos = .slot

/-- A scan is stopped by its own id, its own forwarder, the scan that takes its slot, or a lock or
maintenance of its wallet; a refused start does nothing to the others; and a scan clears only its own
slot. -/
theorem nothing_else_stops {s : Config (Recorded Shared Footstep) Call}
    (h : footsteps.recorded.Reach (Recording.guard ok) s) :
    (∀ c call ch call' σ', s.calls c = some call → call.next c ch s.shared.shared = some (call', σ') →
      World.StopsOnly (Recording.plain s) c call ch call' σ') ∧
    ∀ c x, s.calls c = some (.scan x) → (∃ f ∈ s.shared.records c, f.Refuses) →
      (∀ f ∈ s.shared.records c, f.Leaves c) ∧ x.rolledBack = none := by
  have hplain : system.Reach ok (Recording.plain s) := Recording.forget h
  refine ⟨fun c call ch call' σ' hc hstep => ⟨?_, ?_, ?_⟩, fun c x hc hrefused => ?_⟩
  · intro d x hd hlive hcancelled
    exact stoppedBy_of_cancelled hplain hc hstep hd hlive hcancelled
  · intro d x hd hnot hsuperseded
    exact stoppedBy_of_superseded hplain hc hstep hd hnot hsuperseded
  · intro w k hk hlost
    exact slot_lost hplain hc hstep hk hlost
  · obtain ⟨f, hf, hrefuses⟩ := hrefused
    have hcourse := scan_course h hc
    obtain ⟨hlate, hnever⟩ := hcourse.refused f hf hrefuses
    exact hcourse.quiet (ScanStage.ne_active_of_le_rank hlate) hnever

/-- A Background start that finds a Foreground scan at work. -/
def Footstep.meetsForeground (f : Footstep) : Bool :=
  match f.call with
  | .scan x => decide (x.pos = .slot) && decide (x.priority = .background) &&
      (f.shared.scans.running.lookup x.walletName).any fun k =>
        decide (k.priority = .foreground) && !(f.shared.tokens k.scan).cancelled &&
          !(f.shared.tokens k.scan).stopped
  | _ => false

theorem Footstep.refuses_of_meetsForeground {f : Footstep} (h : f.meetsForeground = true) :
    f.Refuses := by
  obtain ⟨call, choice, shared⟩ := f
  cases call with
  | scan x =>
    simp only [meetsForeground, Bool.and_eq_true, decide_eq_true_eq, Option.any_eq_true,
      Bool.not_eq_true'] at h
    obtain ⟨⟨hpos, hbackground⟩, k, hk, ⟨hforeground, hlive⟩, hgoing⟩ := h
    exact ⟨x, rfl, .foreground hpos hk hforeground hbackground hlive hgoing⟩
  | _ => cases h

/-- A fresh process, no step taken. -/
def freshSteps : Config (Recorded Shared Footstep) Call := ⟨⟨fresh.shared, fun _ => []⟩, fun _ => none⟩

/-- A Background scan of "main" is started while a Foreground one works, and returns. -/
def backgroundRefused : Option (Config (Recorded Shared Footstep) Call) :=
  (footsteps.replay 5 Call.starts fun _ _ => true).exec freshSteps (unlocks 0 firstPath ++
    startsScan 1 2 0 ++ .start 3 (.createScanHandle ⟨"main", .fetch⟩) :: go 3 2 ++
    .start 4 (.scan ⟨⟨"main", 1⟩, "main", .background, false, none, .claim, none, {}, none, none, none⟩) ::
      go 4 11)

/-- The stage of a scan. -/
def Call.scanStage : Call → Option ScanStage
  | .scan x => some x.pos.stage
  | _ => none

theorem nothing_else_stops_backgroundRefused : ∃ s x, backgroundRefused = some s ∧
    s.calls 4 = some (.scan x) ∧ x.pos.stage = .over ∧ (∃ f ∈ s.shared.records 4, f.Refuses) ∧
    (∀ f ∈ s.shared.records 4, f.Leaves 4) ∧ x.rolledBack = none := by
  obtain ⟨s, hs⟩ := Option.isSome_iff_exists.mp (by decide : backgroundRefused.isSome = true)
  have hstage : (backgroundRefused.bind fun s => s.calls 4).bind Call.scanStage = some .over := by decide
  have hmeets : backgroundRefused.map (fun s => (s.shared.records 4).any Footstep.meetsForeground) =
      some true := by decide
  rw [hs] at hstage hmeets
  obtain ⟨call, hcall, hover⟩ := Option.bind_eq_some_iff.mp hstage
  cases call <;> simp only [Call.scanStage, reduceCtorEq, Option.some.injEq] at hover
  case scan x =>
  obtain ⟨f, hf, hforeground⟩ := List.any_eq_true.mp (Option.some.inj hmeets)
  have hrefused : ∃ f ∈ s.shared.records 4, f.Refuses :=
    ⟨f, hf, Footstep.refuses_of_meetsForeground hforeground⟩
  have hR : (footsteps.replay 5 Call.starts fun _ _ => true).Sound footsteps.recorded
      (Recording.guard fun _ _ => True) :=
    Recording.replay_sound (fun _ h => h) fun _ _ _ _ => trivial
  have hreach : footsteps.recorded.Reach (Recording.guard fun _ _ => True) s :=
    hR.reach ⟨fresh_init, rfl⟩ hs
  exact ⟨s, x, hs, hcall, hover, hrefused, (nothing_else_stops hreach).2 4 x hcall hrefused⟩

end CwTariWallet
