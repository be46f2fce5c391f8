/-
# CwTariWallet.Bridge.TrailingStops -- the stop a lock makes after it has let the gate go

`lock_wallet` and `force_lock_wallet` lock the session and cancel the wallet's scans with the gate held,
and then call `stop_wallet_scans`, which cancels once more, by name alone.  In between a new holder can
have unlocked and started a scan.  Every scan that had checked before is doomed by then
(`doomed_of_leaving`), so an uncancelled scan in the slot is a newer holder's, and the trailing stop
spares the newer holders' scans just where it finds none (`stop_spares_newer`).
-/
import CwTariWallet.Bridge.LockedScans

namespace CwTariWallet

open Interleaving

variable {ok : Guard Shared Call} {s : World} {w : WalletName}
variable {me : CallId} {ch : Choice} {σ σ' : Shared}

/-! ## What a lock has left to do -/

/-- Where a lock stands that has locked the session and cancelled the scans in its gate step. -/
inductive LockTail where
  /-- About to drop the gate. -/
  | leaving
  /-- In its trailing `stop_wallet_scans`. -/
  | stopping (s : StopAt)
  | returned
  deriving DecidableEq, Repr

def LockAt.tail : LockAt → Option LockTail
  | .gate _ (.leave true) => some .leaving
  | .stop s => some (.stopping s)
  | .returned true => some .returned
  | _ => none

def ForceAt.tail : ForceAt → Option LockTail
  | .everywhere (.gate _ (.leave true)) => some .leaving
  | .everywhere (.stop s) => some (.stopping s)
  | .returned => some .returned
  | _ => none

/-- Where a `lock_wallet` or `force_lock_wallet` of `w` stands after its gate step. -/
def Call.lockTail (w : WalletName) : Call → Option LockTail
  | .lockWallet l => if l.walletName = w then l.pos.tail else none
  | .forceLockWallet f => if f.walletName = w then f.pos.tail else none
  | _ => none

/-- What a lock does after its gate step. -/
inductive TailStep (w : WalletName) (σ σ' : Shared) (call' : Call) : LockTail → Prop
  | leave : call'.lockTail w = some (.stopping .cancel) → σ'.tokens = σ.tokens →
      TailStep w σ σ' call' .leaving
  | cancel {p} : call'.lockTail w = some p → SameScans (σ.cancelWalletScans w).2 σ' →
      TailStep w σ σ' call' (.stopping .cancel)
  | wait {r} : call'.lockTail w = some .returned → σ' = σ →
      TailStep w σ σ' call' (.stopping (.wait r))

theorem LockTail.stop {s : StopAt} {r : StopAt ⊕ Unit} {call' : Call}
    (h : s.next w σ = some (r, σ'))
    (hcall : call'.lockTail w = some (match r with
      | .inl s => .stopping s
      | .inr () => .returned)) : TailStep w σ σ' call' (.stopping s) := by
  rcases StopAt.next_eq h with ⟨rfl, rfl, rfl⟩ | ⟨c, rfl, -, rfl, rfl⟩
  · exact .cancel hcall (.refl _)
  · exact .wait hcall rfl

theorem Call.tailStep {call call' : Call} (h : call.next me ch σ = some (call', σ')) {p : LockTail}
    (hp : call.lockTail w = some p) : TailStep w σ σ' call' p := by
  cases call <;> simp only [lockTail, Option.ite_none_right_eq_some, reduceCtorEq] at hp <;>
    obtain ⟨rfl, hp⟩ := hp <;> obtain ⟨⟨l', σ₁⟩, hr, h⟩ := Option.map_eq_some_iff.mp h <;> cases h
  case lockWallet l =>
    obtain ⟨v, holder, pos⟩ := l
    unfold LockWallet.next at hr
    cases pos with
    | gate file g =>
      cases g with
      | leave locked =>
        cases locked with
        | false => cases hp
        | true =>
          cases hp
          cases hr
          exact .leave (by simp [lockTail, LockAt.tail]) rfl
      | _ => cases hp
    | stop s =>
      cases hp
      dsimp only at hr
      split at hr <;> cases hr <;> exact LockTail.stop ‹_› (by simp [lockTail, LockAt.tail])
    | returned r => cases hr
    | release => cases hp
  case forceLockWallet f =>
    obtain ⟨v, pos⟩ := f
    unfold ForceLockWallet.next at hr
    cases pos with
    | everywhere e =>
      cases e with
      | remove => cases hp
      | gate file g =>
        cases g with
        | leave locked =>
          cases locked with
          | false => cases hp
          | true =>
            cases hp
            cases hr
            exact .leave (by simp [lockTail, ForceAt.tail]) rfl
        | _ => cases hp
      | stop s =>
        cases hp
        dsimp only [EverywhereAt.next] at hr
        cases hs : s.next v σ with
        | none => simp [hs] at hr
        | some a =>
          obtain ⟨r | r, σ₂⟩ := a <;> simp only [hs, Option.some.injEq, Prod.mk.injEq] at hr <;>
            obtain ⟨rfl, rfl⟩ := hr <;> exact LockTail.stop hs (by simp [lockTail, ForceAt.tail])
    | returned => cases hr

/-! ## What the gate step has done -/

/-- The gate step says it has locked only after its last critical section. -/
theorem GateAt.cancelling_of_next {g : GateAt}
    (h : g.next me w σ = some (.inl (.leave true), σ')) :
    g.keyPhase = .cancelling ∧ σ'.keys = σ.keys := by
  cases g with
  | wait =>
    obtain ⟨σ₁, -, h⟩ := Option.map_eq_some_iff.mp h
    cases h
  | held h' =>
    cases h' with
    | readState =>
      by_cases hheld : (σ.db.sessions.lookup w).isSome = true <;>
        simp [GateAt.next, GateHeldAt.next, hheld] at h
    | lockSession => cases h
    | cancelScans =>
      cases h
      exact ⟨rfl, by simp [Shared.cancelWalletScans_eq]⟩
  | leave locked => cases h

theorem LockAt.eq_leave_of_tail {file : Option PathBuf} {g : GateAt} (h : (gate file g).tail = some .leaving) :
    g = .leave true := by
  cases g with
  | leave locked => cases locked <;> first | rfl | cases h
  | _ => cases h

theorem ForceAt.eq_leave_of_tail {file : Option PathBuf} {g : GateAt}
    (h : (everywhere (.gate file g)).tail = some .leaving) : g = .leave true := by
  cases g with
  | leave locked => cases locked <;> first | rfl | cases h
  | _ => cases h

theorem Call.cancelling_of_next {call call' : Call} (h : call.next me ch σ = some (call', σ'))
    (hp : call'.lockTail w = some .leaving) :
    call.keyPhase w = .cancelling ∧ σ'.keys = σ.keys := by
  cases call <;> obtain ⟨⟨l', σ₁⟩, hr, h⟩ := Option.map_eq_some_iff.mp h <;> cases h <;>
    simp only [lockTail, Option.ite_none_right_eq_some, reduceCtorEq] at hp
  case lockWallet l =>
    obtain ⟨v, holder, pos⟩ := l
    unfold LockWallet.next at hr
    cases pos with
    | release =>
      dsimp only at hr
      split at hr <;> cases hr <;> cases hp.2
    | gate file g =>
      dsimp only at hr
      split at hr <;> cases hr
      · rename_i g' hg
        obtain ⟨rfl, hp⟩ := hp
        have hleave : g' = .leave true := LockAt.eq_leave_of_tail hp
        subst hleave
        obtain ⟨hphase, hkeys⟩ := GateAt.cancelling_of_next hg
        exact ⟨by simp [keyPhase, LockAt.keyPhase, hphase], hkeys⟩
      · cases hp.2
      · cases hp.2
    | stop s =>
      dsimp only at hr
      split at hr <;> cases hr <;> cases hp.2
    | returned r => cases hr
  case forceLockWallet f =>
    obtain ⟨v, pos⟩ := f
    unfold ForceLockWallet.next at hr
    cases pos with
    | everywhere e =>
      dsimp only at hr
      split at hr <;> cases hr
      · rename_i e' he
        obtain ⟨rfl, hp⟩ := hp
        cases e with
        | remove =>
          cases he
          cases hp
        | gate file g =>
          simp only [EverywhereAt.next] at he
          split at he <;> cases he
          · rename_i g' hg
            have hleave : g' = .leave true := ForceAt.eq_leave_of_tail hp
            subst hleave
            obtain ⟨hphase, hkeys⟩ := GateAt.cancelling_of_next hg
            exact ⟨by simp [keyPhase, ForceAt.keyPhase, EverywhereAt.keyPhase, hphase], hkeys⟩
          · cases hp
        | stop s =>
          simp only [EverywhereAt.next] at he
          split at he <;> cases he
          cases hp
      · cases hp.2
    | returned => cases hr

theorem Call.not_leaving_of_starts {call : Call} (h : call.starts = true) :
    call.lockTail w ≠ some .leaving := by
  cases call <;> simp only [starts, decide_eq_true_eq] at h <;> simp [lockTail, *, LockAt.tail,
    ForceAt.tail]

theorem Call.holdsGate_of_leaving {call : Call} (h : call.lockTail w = some .leaving) :
    (call.keyPhase w).holdsGate = true := by
  cases call <;> simp only [lockTail, Option.ite_none_right_eq_some, reduceCtorEq] at h <;>
    obtain ⟨rfl, h⟩ := h
  case lockWallet l =>
    obtain ⟨v, holder, pos⟩ := l
    cases pos with
    | gate file g =>
      cases g with
      | leave locked => simp [keyPhase, LockAt.keyPhase, GateAt.keyPhase, KeyProtocol.Phase.holdsGate]
      | _ => cases h
    | returned r => cases r <;> cases h
    | _ => cases h
  case forceLockWallet f =>
    obtain ⟨v, pos⟩ := f
    cases pos with
    | everywhere e =>
      cases e with
      | gate file g =>
        cases g with
        | leave locked => simp [keyPhase, ForceAt.keyPhase, EverywhereAt.keyPhase, GateAt.keyPhase,
            KeyProtocol.Phase.holdsGate]
        | _ => cases h
      | _ => cases h
    | returned => cases h

/-- Once a lock has made its gate step, there is no session, and every scan that had checked is doomed,
until the gate is let go. -/
structure World.GateStepDone (s : World) (w : WalletName) : Prop where
  locked : s.shared.keys w = none
  doomed : ∀ c x, s.calls c = some (.scan x) → x.walletName = w → x.checked.isSome = true →
    s.Doomed w c x

/-- A scan that has made its check had made it before, or finds a session and makes it now. -/
theorem Scan.checked_before {x x' : Scan} (h : x.next me ch σ = some (x', σ'))
    (hchecked : x'.checked.isSome = true) (hnone : σ.keys x.walletName = none) :
    x.checked.isSome = true := by
  rcases Scan.next_checked h with hsame | ⟨file, hpos⟩
  · rwa [hsame] at hchecked
  · obtain ⟨-, ⟨e, rfl⟩ | ⟨k, hk, -⟩⟩ := Scan.next_check h hpos
    · exact hchecked
    · rw [hnone] at hk
      cases hk

theorem doomed_of_leaving (h : system.Reach ok s) :
    ∀ X call, s.calls X = some call → call.lockTail w = some .leaving → s.GateStepDone w := by
  refine h.invariant (I := fun s : World => ∀ X call, s.calls X = some call →
    call.lockTail w = some .leaving → s.GateStepDone w) ?_ ?_ ?_
  · intro σ _ X call hX
    cases hX
  · rintro (s : World) c call hs ih _ hfree hstart X call' hX hp
    rcases Config.put_calls_eq_some hX with ⟨rfl, rfl⟩ | ⟨-, hX⟩
    · exact absurd hp (Call.not_leaving_of_starts hstart)
    obtain ⟨hlocked, hdoomed⟩ := ih X call' hX hp
    refine ⟨hlocked, fun d x hd hw hchecked => ?_⟩
    rcases Config.put_calls_eq_some hd with ⟨rfl, rfl⟩ | ⟨-, hd⟩
    · simp only [system, Call.starts, decide_eq_true_eq] at hstart
      rw [hstart] at hchecked
      cases hchecked
    · obtain ⟨h1, h2, h3, h4⟩ := hdoomed d x hd hw hchecked
      exact ⟨h1, h2, h3, h4⟩
  · rintro (s : World) m l l' σ' hs ih _ hm ⟨ch, hstep⟩ X call hX hp
    rcases Config.put_calls_eq_some hX with ⟨rfl, rfl⟩ | ⟨hne, hX⟩
    · -- It has just cancelled the scans, with the session locked before.
      obtain ⟨hphase, hkeys⟩ := Call.cancelling_of_next hstep hp
      have hcancel := Call.cancels_of_cancelling hstep hphase
      have hT := (keyHom ok w).reach_any hs
      have hlive : (s.shared.keys w).isSome = false :=
        KeyProtocol.not_live_of_cancelling hT (c := X) (by simp [keyHom, hm, hphase])
      refine ⟨?_, fun d x hd hw hchecked => ?_⟩
      · simpa [hkeys] using hlive
      rcases Config.put_calls_eq_some hd with ⟨rfl, rfl⟩ | ⟨-, hd⟩
      · cases hp
      · exact doomed_of_cancel hs hcancel hd hw hchecked
    · obtain ⟨hlocked, hdoomed⟩ := ih X call hX hp
      refine ⟨no_session_kept hs hX (Call.holdsGate_of_leaving hp) hm hstep hne hlocked,
        fun d x hd hw hchecked => ?_⟩
      rcases Config.put_calls_eq_some hd with ⟨rfl, rfl⟩ | ⟨hdm, hd⟩
      · obtain ⟨x₀, rfl, hnext⟩ := Call.of_next_scan hstep
        obtain ⟨-, hname⟩ := Scan.next_same hnext
        rw [hname] at hw
        have hbefore := Scan.checked_before hnext hchecked (by rw [hw]; exact hlocked)
        obtain ⟨x', hx', hdoomed', -⟩ := (hdoomed d x₀ hm hw hbefore).put hs hm hstep hm
        obtain rfl := Call.scan.inj (Option.some.inj ((Config.put_calls_self _ _ _ _).symm.trans hx'))
        exact hdoomed'
      · obtain ⟨x', hx', hdoomed', -⟩ := (hdoomed d x hd hw hchecked).put hs hm hstep hd
        rw [Config.put_calls_ne _ _ _ hdm] at hx'
        obtain rfl := Call.scan.inj (Option.some.inj (hd.symm.trans hx'))
        exact hdoomed'

/-! ## After the gate step -/

/-- Every session of `w` was stored after number `n`, and every scan of `w` that had checked an older
one is doomed. -/
structure World.Renewed (s : World) (w : WalletName) (n : Nat) : Prop where
  serial : n ≤ s.shared.nextSerial
  session : ∀ k, s.shared.keys w = some k → n ≤ k.serial
  scans : ∀ c x, s.calls c = some (.scan x) → x.walletName = w → x.checked.isSome = true →
    (∃ file k, x.checked = some (file, k) ∧ n ≤ k.serial) ∨ s.Doomed w c x

theorem World.GateStepDone.renewed (h : s.GateStepDone w) : s.Renewed w s.shared.nextSerial where
  serial := Nat.le_refl _
  session k hk := by
    rw [h.locked] at hk
    cases hk
  scans c x hc hw hchecked := Or.inr (h.doomed c x hc hw hchecked)

theorem KeysStep.nextSerial_le {call call' : Call} (h : KeysStep me call σ call' σ') :
    σ.nextSerial ≤ σ'.nextSerial := by
  cases h with
  | same _ hserial => exact hserial ▸ Nat.le_refl _
  | stored _ _ => exact Nat.le_succ _
  | locked _ _ | dropped _ => exact Nat.le_refl _

theorem World.Renewed.put {n : Nat} (hs : system.Reach ok s) (h : s.Renewed w n) {m : CallId}
    {l l' : Call} (hm : s.calls m = some l) (hstep : l.next m ch s.shared = some (l', σ')) :
    World.Renewed (s.put m l' σ') w n := by
  obtain ⟨hserial, hsession, hscans⟩ := h
  have hkeys := Call.keysStep hstep
  refine ⟨hserial.trans hkeys.nextSerial_le, fun k hk => ?_, fun d x hd hw hchecked => ?_⟩
  · rcases hkeys.origin hk with hold | ⟨u, g, _, _, -, -, -, rfl, -⟩
    · exact hsession k hold
    · exact hserial
  -- A scan keeps what it checked, or checks the session of now.
  have old (x₀ : Scan) (hx₀ : s.calls d = some (.scan x₀)) (hw₀ : x₀.walletName = w)
      (hold : x₀.checked.isSome = true) (hsame : x.checked = x₀.checked) :
      (∃ file k, x.checked = some (file, k) ∧ n ≤ k.serial) ∨ World.Doomed (s.put m l' σ') w d x := by
    rcases hscans d x₀ hx₀ hw₀ hold with ⟨file, k, hk, hle⟩ | hdoomed
    · exact Or.inl ⟨file, k, hsame.trans hk, hle⟩
    · obtain ⟨x', hx', hdoomed', -⟩ := hdoomed.put hs hm hstep hx₀
      obtain rfl := Call.scan.inj (Option.some.inj (hd.symm.trans hx'))
      exact Or.inr hdoomed'
  rcases Config.put_calls_eq_some hd with ⟨rfl, rfl⟩ | ⟨-, hx⟩
  · obtain ⟨x₀, rfl, hnext⟩ := Call.of_next_scan hstep
    have hw₀ := (Scan.next_same hnext).2.symm.trans hw
    rcases Scan.next_checked hnext with hsame | ⟨file, hpos⟩
    · exact old x₀ hm hw₀ (hsame ▸ hchecked) hsame
    · obtain ⟨-, ⟨e, rfl⟩ | ⟨k, hk, hx, -⟩⟩ := Scan.next_check hnext hpos
      · exact old x₀ hm hw₀ hchecked rfl
      · exact Or.inl ⟨file, k, hx, hsession k (hw₀ ▸ hk)⟩
  · exact old x hx hw hchecked rfl

theorem renewed_steps {n : Nat} {t : World} (hs : system.Reach ok s) (h : s.Renewed w n)
    (ht : system.Steps ok s t) : t.Renewed w n := by
  refine System.Steps.stable (I := fun t : World => t.Renewed w n) ?_ ?_ ?_ hs h ht
  · exact fun _ _ h => h
  · rintro (t : World) d call _ ⟨hserial, hsession, hscans⟩ _ hfree hstart
    refine ⟨hserial, hsession, fun e x he hw hchecked => ?_⟩
    rcases Config.put_calls_eq_some he with ⟨rfl, rfl⟩ | ⟨-, he⟩
    · simp only [system, Call.starts, decide_eq_true_eq] at hstart
      rw [hstart] at hchecked
      cases hchecked
    · exact (hscans e x he hw hchecked).imp_right fun h => ⟨h.1, h.2, h.3, h.4⟩
  · rintro (t : World) m l l' σ' hs h _ hm ⟨ch, hstep⟩
    exact h.put hs hm hstep

/-- The tail of a lock is what it goes through from its gate step on. -/
theorem lockTail_steps {t : World} {X : CallId} {call : Call} (hX : s.calls X = some call)
    (htail : (call.lockTail w).isSome = true) (ht : system.Steps ok s t) :
    ∃ call', t.calls X = some call' ∧ (call'.lockTail w).isSome = true := by
  induction ht with
  | refl => exact ⟨call, hX, htail⟩
  | move _ _ hmove ih =>
    obtain ⟨call₁, hX₁, htail₁⟩ := ih
    cases hmove with
    | start hfree _ => exact ⟨call₁, Config.put_calls_of_free hfree hX₁, htail₁⟩
    | @step _ m _ l' _ hm hst =>
      obtain ⟨ch, hst⟩ := hst
      by_cases hXm : X = m
      · subst hXm
        obtain rfl := Option.some.inj (hX₁.symm.trans hm)
        obtain ⟨p, hp⟩ := Option.isSome_iff_exists.mp htail₁
        refine ⟨l', Config.put_calls_self _ _ _ _, ?_⟩
        cases Call.tailStep hst hp <;> simp [*]
      · exact ⟨call₁, by rw [Config.put_calls_ne _ _ _ hXm]; exact hX₁, htail₁⟩

/-- Scan `c` of `w` holds its slot, uncancelled, and made its check under a session stored under number
`n` or later. -/
structure World.NewerScan (s : World) (w : WalletName) (n : Nat) (c : CallId) : Prop where
  checked : ∃ x file k, s.calls c = some (.scan x) ∧ x.walletName = w ∧
    x.checked = some (file, k) ∧ n ≤ k.serial
  slot : (s.shared.scans.running.lookup w).map (·.scan) = some c
  wanted : (s.shared.tokens c).cancelled = false

/-- Every step a lock of `w` takes after it has locked the session and cancelled the scans leaves the
newer holders' scans alone, just if it is not the trailing `stop_wallet_scans` with an uncancelled scan
in the slot. -/
theorem stop_spares_newer (h : system.Reach ok s) {X : CallId} {call : Call}
    (hX : s.calls X = some call) (hdone : call.lockTail w = some .leaving) {t : World}
    (ht : system.Steps ok s t) {call' call'' : Call} (hX' : t.calls X = some call')
    (hstep : call'.next X ch t.shared = some (call'', σ')) :
    (∀ c, t.NewerScan w s.shared.nextSerial c → (σ'.tokens c).cancelled = false) ↔
      (call'.lockTail w = some (.stopping .cancel) →
        ∀ k, t.shared.scans.running.lookup w = some k → (t.shared.tokens k.scan).cancelled = true) := by
  have hrenewed := renewed_steps h (doomed_of_leaving h X call hX hdone).renewed ht
  have ht' := h.steps (fun _ _ h => h) ht
  constructor
  · intro hspares htail k hk
    rw [← Bool.not_eq_false]
    intro hwanted
    -- The scan in the slot is not doomed, so it checked after the gate step.
    obtain ⟨call₀, hcall₀, hslot⟩ := running_sound ht' _ _ hk
    cases call₀ <;> simp only [Call.slot, reduceCtorEq, Option.ite_none_right_eq_some] at hslot
    case scan x =>
    obtain ⟨hstage, hslot⟩ := hslot
    obtain ⟨hw, -⟩ := Prod.mk.inj (Option.some.inj hslot)
    have hchecked : x.checked.isSome = true :=
      (scan_checks ht' hcall₀).after (by unfold ScanAt.passed; split <;> simp_all)
    have hnewer : t.NewerScan w s.shared.nextSerial k.scan := by
      refine ⟨?_, by simp [hk], hwanted⟩
      rcases hrenewed.scans _ x hcall₀ hw hchecked with ⟨file, key, hx, hle⟩ | hdoomed
      · exact ⟨x, file, key, hcall₀, hw, hx, hle⟩
      · rw [hdoomed.active (by simpa using hstage)] at hwanted
        cases hwanted
    have hspared := hspares _ hnewer
    cases Call.tailStep hstep htail with
    | cancel _ hcancel =>
      rw [hcancel.tokens, Shared.cancelWalletScans_eq] at hspared
      simp [show t.shared.scans.running.lookup w = some k from hk] at hspared
  · rintro hcond c ⟨-, hslot, hwanted⟩
    obtain ⟨k, hk, rfl⟩ := Option.map_eq_some_iff.mp hslot
    obtain ⟨call₁, hX₁, htail⟩ := lockTail_steps hX (by rw [hdone]; rfl) ht
    obtain rfl := Option.some.inj (hX₁.symm.trans hX')
    obtain ⟨p, hp⟩ := Option.isSome_iff_exists.mp htail
    cases Call.tailStep hstep hp with
    | leave _ htokens => rw [htokens]; exact hwanted
    | cancel _ _ =>
      rw [hcond hp k hk] at hwanted
      cases hwanted
    | wait _ hσ => rw [hσ]; exact hwanted

/-! ## Two schedules -/

/-- Whether `NewerScan` holds of call `c`, which is a scan. -/
def World.newerScan (s : World) (w : WalletName) (n : Nat) (c : CallId) : Bool :=
  (s.calls c).any (fun call => match call with
    | .scan x => x.walletName = w && x.checked.any fun k => decide (n ≤ k.2.serial)
    | _ => false) &&
  decide ((s.shared.scans.running.lookup w).map (·.scan) = some c) && !(s.shared.tokens c).cancelled

theorem World.newerScan_sound {n : Nat} {c : CallId} (h : s.newerScan w n c = true) :
    s.NewerScan w n c := by
  simp only [newerScan, Bool.and_eq_true, decide_eq_true_eq, Bool.not_eq_true', Option.any_eq_true]
    at h
  obtain ⟨⟨⟨call, hcall, hx⟩, hslot⟩, hwanted⟩ := h
  cases call <;> simp only [Bool.false_eq_true, Bool.and_eq_true, decide_eq_true_eq,
    Option.any_eq_true] at hx
  case scan x =>
  obtain ⟨hw, ⟨file, k⟩, hk, hle⟩ := hx
  exact ⟨⟨x, file, k, hcall, hw, hk, hle⟩, hslot, hwanted⟩

/-- A lock has made its gate step, with a scan at work. -/
def lockLeaving : Option World :=
  (replayOnly 7 fun _ => true).exec fresh (unlocks 0 firstPath ++ startsScan 1 2 0 ++ go 2 2 ++
    .start 3 (.lockWallet ⟨"main", some 0, .release⟩) :: go 3 5)

/-- It waits for the scan to stop; meanwhile a new holder's scan takes the slot, and the old one stops. -/
def newerSpared : Option World :=
  lockLeaving.bind fun s =>
    (replayOnly 7 fun _ => true).exec s (go 3 2 ++ unlocks 4 firstPath ++ startsScan 5 6 1 ++ go 2 8)

theorem stop_spares_newer_newerSpared :
    ∃ s t, lockLeaving = some s ∧ newerSpared = some t ∧
      t.NewerScan "main" s.shared.nextSerial 6 ∧
      ∃ call call' σ', t.calls 3 = some call ∧ call.next 3 {} t.shared = some (call', σ') ∧
        (σ'.tokens 6).cancelled = false := by
  obtain ⟨s, hs⟩ := Option.isSome_iff_exists.mp (by decide : lockLeaving.isSome = true)
  obtain ⟨t, ht⟩ := Option.isSome_iff_exists.mp (by decide : newerSpared.isSome = true)
  have before : lockLeaving.map (fun s => (s.calls 3).any fun call =>
      decide (call.lockTail "main" = some .leaving)) = some true := by decide
  have after : newerSpared.map (fun t => (t.newerScan "main" 1 6, (t.calls 3).any fun call =>
      decide (call.lockTail "main" = some (.stopping (.wait 2))) &&
        (call.next 3 {} t.shared).isSome)) = some (true, true) := by decide
  have serial : lockLeaving.map (fun s => s.shared.nextSerial) = some 1 := by decide
  simp only [hs, ht, Option.map_some, Option.some.injEq, Prod.mk.injEq, Option.any_eq_true,
    Bool.and_eq_true, decide_eq_true_eq, Option.isSome_iff_exists] at before after serial
  obtain ⟨lock, hlock, hleaving⟩ := before
  obtain ⟨hnewer, lock', hlock', hwait, ⟨call', σ'⟩, hstep⟩ := after
  have hR : (replayOnly 7 fun _ => true).Sound system (only fun _ => true) := replayOnly_sound
  obtain ⟨hwithin, -⟩ := hR.steps (fun _ _ => rfl) hs
  have hst : system.Steps (only fun _ => true) s t := by
    rw [newerSpared, hs, Option.bind_some] at ht
    exact (hR.steps hwithin ht).2
  have hspared := (stop_spares_newer (hR.reach fresh_init hs) hlock hleaving hst hlock' hstep).mpr
    (by rw [hwait]; exact nofun)
  have hnewer' := World.newerScan_sound (serial ▸ hnewer)
  exact ⟨s, t, hs, ht, hnewer', lock', call', σ', hlock', hstep, hspared 6 hnewer'⟩

/-- A lock has made its gate step, with no scan at work. -/
def lockLeavingIdle : Option World :=
  (replayOnly 5 fun _ => true).exec fresh (unlocks 0 firstPath ++
    .start 1 (.lockWallet ⟨"main", some 0, .release⟩) :: go 1 5)

/-- It lets the gate go, and before it comes to its trailing stop another holder unlocks and starts a
scan. -/
def newerScanStarted : Option World :=
  lockLeavingIdle.bind fun s =>
    (replayOnly 5 fun _ => true).exec s (go 1 1 ++ unlocks 2 firstPath ++ startsScan 3 4 0)

/-- The lock that let the gate go cancels the scan of a holder who unlocked after it. -/
theorem newer_scan_stopped : ¬ ∀ (s t : World) (X U c : CallId) (call call' call'' : Call)
    (u : UnlockWallet) (g : Nat) (ch : Choice) (σ' : Shared),
    system.Reach (fun _ _ => True) s → s.calls X = some call →
    call.lockTail "main" = some .leaving → system.Steps (fun _ _ => True) s t →
    s.calls U = none → t.calls U = some (.unlockWallet u) → u.walletName = "main" →
    u.pos = .returned (some g) (.ok ()) → t.NewerScan "main" s.shared.nextSerial c →
    t.calls X = some call' → call'.next X ch t.shared = some (call'', σ') →
    (σ'.tokens c).cancelled = false := by
  intro hall
  obtain ⟨s, hs⟩ := Option.isSome_iff_exists.mp (by decide : lockLeavingIdle.isSome = true)
  obtain ⟨t, ht⟩ := Option.isSome_iff_exists.mp (by decide : newerScanStarted.isSome = true)
  have before : lockLeavingIdle.map (fun s => ((s.calls 1).any (fun call =>
      decide (call.lockTail "main" = some .leaving)), s.calls 2, s.shared.nextSerial)) =
        some (true, none, 1) := by decide
  have after : newerScanStarted.map (fun t => (t.newerScan "main" 1 4, t.calls 2)) =
      some (true, some (.unlockWallet ⟨firstPath, "main", "secret", .returned (some 1) (.ok ())⟩)) := by
    decide
  have stopped : newerScanStarted.bind (fun t => (t.calls 1).bind fun call =>
      (call.next 1 {} t.shared).map fun r => (r.2.tokens 4).cancelled) = some true := by decide
  simp only [hs, ht, Option.map_some, Option.some.injEq, Prod.mk.injEq, Option.any_eq_true,
    decide_eq_true_eq, Option.bind_some, Option.bind_eq_some_iff, Option.map_eq_some_iff]
    at before after stopped
  obtain ⟨⟨lock, hlock, hleaving⟩, hfree, hserial⟩ := before
  obtain ⟨hnewer, hunlock⟩ := after
  obtain ⟨lock', hlock', ⟨call'', σ'⟩, hstep, hcancelled⟩ := stopped
  have hR : (replayOnly 5 fun _ => true).Sound system fun _ _ => True :=
    replay_sound fun _ _ _ _ => trivial
  obtain ⟨hwithin, -⟩ := hR.steps (fun _ _ => rfl) hs
  have hst : system.Steps (fun _ _ => True) s t := by
    rw [newerScanStarted, hs, Option.bind_some] at ht
    exact (hR.steps hwithin ht).2
  have hspared := hall s t 1 2 4 lock lock' call'' _ 1 {} σ' (hR.reach fresh_init hs) hlock hleaving
    hst hfree hunlock rfl rfl (World.newerScan_sound (hserial ▸ hnewer)) hlock' hstep
  rw [hspared] at hcancelled
  cases hcancelled

end CwTariWallet
