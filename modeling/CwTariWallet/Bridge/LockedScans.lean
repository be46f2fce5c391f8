/-
# CwTariWallet.Bridge.LockedScans -- locking a wallet ends its scans

A scan checks that the wallet is unlocked and goes on with its keys much later, after any number of waits.
What makes that safe: a scan that is still wanted, about to start or uncancelled in its slot, made its
check under the session that is live now (`armed_session`), and once a lock has returned, no scan that
had made its check before is at work, or ever will be (`lock_ends_scans`).
-/
import CwTariWallet.Bridge.Holders
import CwTariWallet.Bridge.Writers

namespace CwTariWallet

open Interleaving

variable {ok : Guard Shared Call} {s : World} {w : WalletName}
variable {me : CallId} {ch : Choice} {σ σ' : Shared}

/-! ## The check of a scan -/

theorem Call.of_next_scan {call : Call} {x' : Scan}
    (h : call.next me ch σ = some (.scan x', σ')) :
    ∃ x, call = .scan x ∧ x.next me ch σ = some (x', σ') := by
  cases call <;> obtain ⟨r, hr, h⟩ := Option.map_eq_some_iff.mp h <;> cases h
  exact ⟨_, rfl, hr⟩

theorem Call.next_scan {x : Scan} {call' : Call}
    (h : (Call.scan x).next me ch σ = some (call', σ')) :
    ∃ x', call' = .scan x' ∧ x.next me ch σ = some (x', σ') := by
  obtain ⟨r, hr, h⟩ := Option.map_eq_some_iff.mp h
  cases h
  exact ⟨r.1, rfl, hr⟩

/-- Up to and including `unlocked_account`. -/
def ScanAt.unchecked : ScanAt → Bool
  | .claim | .dbPath | .conn | .account _ | .check _ => true
  | _ => false

/-- From the check to the end of `scan_in_slot`. -/
def ScanAt.passed : ScanAt → Bool
  | .maintenance | .slot => true
  | p => p.stage = .active

/-- A scan that is past its check has made it, and no other has. -/
structure Scan.Checks (x : Scan) : Prop where
  before : x.pos.unchecked = true → x.checked = none
  after : x.pos.passed = true → x.checked.isSome = true

/-- The check fails, or finds a live session and remembers it. -/
theorem Scan.next_check {x x' : Scan} {file : PathBuf} (h : x.next me ch σ = some (x', σ'))
    (hpos : x.pos = .check file) :
    σ' = σ ∧ ((∃ e, x' = x.goto (.unstart (.error e))) ∨ ∃ k, σ.keys x.walletName = some k ∧
      x'.checked = some (file, k) ∧
      (x'.pos = .maintenance ∨ ∃ outcome, x'.pos = .unstart outcome)) := by
  unfold next at h
  rw [hpos] at h
  dsimp only at h
  split at h
  · cases h
    exact ⟨rfl, Or.inl ⟨_, rfl⟩⟩
  · cases h
    exact ⟨rfl, Or.inl ⟨_, rfl⟩⟩
  · rename_i hun
    cases hk : σ.keys x.walletName with
    | none =>
      unfold Shared.isUnlocked at hun
      split at hun
      · cases hun
      · simp [KeySessions.isUnlocked_none hk] at hun
    | some k =>
      rw [hk] at h
      split at h <;> cases h
      · exact ⟨rfl, Or.inr ⟨k, rfl, rfl, Or.inr ⟨_, rfl⟩⟩⟩
      · exact ⟨rfl, Or.inr ⟨k, rfl, rfl, Or.inl rfl⟩⟩

/-- Nothing but the check changes what a scan remembers of it. -/
theorem Scan.next_checked {x x' : Scan} (h : x.next me ch σ = some (x', σ')) :
    x'.checked = x.checked ∨ ∃ file, x.pos = .check file := by
  obtain ⟨handle, v, priority, continuous, rescanFrom, pos, dbPath, forwarder, checked, swept, rolledBack⟩ := x
  unfold next at h
  cases pos with
  | check file => exact Or.inr ⟨file, rfl⟩
  | maintenance =>
    obtain ⟨σ₁, -, h⟩ := Option.map_eq_some_iff.mp h
    cases h
    exact Or.inl rfl
  | sweepConn | sweep file =>
    cases rescanFrom <;> dsimp only at h <;> (repeat' split at h) <;> cases h <;> exact Or.inl rfl
  | _ =>
    dsimp only at h
    (repeat' split at h) <;> cases h <;> exact Or.inl rfl

/-- A scan stays unchecked only before its check, and passes only there. -/
theorem Scan.next_pos {x x' : Scan} (h : x.next me ch σ = some (x', σ')) :
    (∃ file, x.pos = .check file) ∨ (x'.pos.unchecked = true → x.pos.unchecked = true) ∧
      (x'.pos.passed = true → x.pos.passed = true) := by
  obtain ⟨handle, v, priority, continuous, rescanFrom, pos, dbPath, forwarder, checked, swept, rolledBack⟩ := x
  unfold next at h
  cases pos with
  | check file => exact Or.inl ⟨file, rfl⟩
  | maintenance =>
    obtain ⟨σ₁, -, h⟩ := Option.map_eq_some_iff.mp h
    cases h
    exact Or.inr ⟨nofun, fun _ => rfl⟩
  | sweepConn | sweep file =>
    cases rescanFrom <;> dsimp only at h <;> (repeat' split at h) <;> cases h <;>
      exact Or.inr ⟨nofun, fun _ => rfl⟩
  | claim | dbPath | conn | account _ =>
    dsimp only at h
    (repeat' split at h) <;> cases h <;> exact Or.inr ⟨fun _ => rfl, nofun⟩
  | leaveMaintenance _ | goneConn _ | gone _ _ | unstart _ | terminal _ | stop _ | returned _ =>
    dsimp only at h
    (repeat' split at h) <;> cases h <;> exact Or.inr ⟨nofun, nofun⟩
  | _ =>
    dsimp only at h
    (repeat' split at h) <;> cases h <;> exact Or.inr ⟨nofun, fun _ => rfl⟩

theorem scan_checks (h : system.Reach ok s) {c : CallId} {x : Scan}
    (hc : s.calls c = some (.scan x)) : x.Checks := by
  refine h.outline (A := fun _ call _ => ∀ x, call = .scan x → x.Checks) ?_ ?_ ?_ hc x rfl
  · rintro s c call _ _ hstart x rfl
    simp only [system, Call.starts, decide_eq_true_eq] at hstart
    rw [hstart]
    exact ⟨fun _ => rfl, fun h => by cases h⟩
  · rintro s c call call' σ' _ _ _ hA ⟨ch, hstep⟩ x' rfl
    obtain ⟨x, rfl, hnext⟩ := Call.of_next_scan hstep
    obtain ⟨hbefore, hafter⟩ := hA x rfl
    by_cases hcheck : ∃ file, x.pos = .check file
    · obtain ⟨file, hpos⟩ := hcheck
      obtain ⟨-, ⟨e, rfl⟩ | ⟨k, -, hk, hpos' | ⟨outcome, hpos'⟩⟩⟩ := Scan.next_check hnext hpos
      · exact ⟨(fun h => by cases h), fun h => by cases h⟩
      · refine ⟨fun h => ?_, fun _ => by rw [hk]; rfl⟩
        rw [hpos'] at h
        cases h
      · refine ⟨fun h => ?_, fun _ => by rw [hk]; rfl⟩
        rw [hpos'] at h
        cases h
    · have hsame := (Scan.next_checked hnext).resolve_right hcheck
      obtain ⟨hpos, hpassed⟩ := (Scan.next_pos hnext).resolve_left hcheck
      exact ⟨fun h => hsame.trans (hbefore (hpos h)), fun h => hsame ▸ hafter (hpassed h)⟩
  · intro s c call call' σ' d m _ _ _ _ _ _ _ hB
    exact hB

/-! ## Scans that are still wanted -/

/-- Scan `c` is in `starting` past its check, or holds its wallet's slot with an uncancelled token. -/
def World.Armed (s : World) (c : CallId) (x : Scan) : Prop :=
  (x.checked.isSome = true ∧ (Call.scan x).ticket = .claimed x.handle.id ∧
    s.shared.scans.starting.lookup x.handle.id = some x.walletName) ∨
  ∃ k, s.shared.scans.running.lookup x.walletName = some k ∧ k.scan = c ∧
    (s.shared.tokens c).cancelled = false

/-- The id of a scan stands in `starting` for the scan's own wallet. -/
theorem starting_wallet (h : system.Reach ok s) {c : CallId} {x : Scan}
    (hc : s.calls c = some (.scan x)) (ht : (Call.scan x).ticket = .claimed x.handle.id)
    {v : WalletName} (hv : s.shared.scans.starting.lookup x.handle.id = some v) :
    v = x.walletName := by
  refine h.outline (A := fun _ call σ => ∀ x v, call = .scan x →
    (Call.scan x).ticket = .claimed x.handle.id → σ.scans.starting.lookup x.handle.id = some v →
      v = x.walletName) ?_ ?_ ?_ hc x v rfl ht hv
  · rintro s c call _ _ hstart x v rfl ht
    simp only [system, Call.starts, decide_eq_true_eq] at hstart
    rw [hstart] at ht
    cases ht
  · rintro s c call call' σ' hs _ hc hA ⟨ch, hstep⟩ x' v rfl ht hv
    obtain ⟨x, rfl, hnext⟩ := Call.of_next_scan hstep
    obtain ⟨hhandle, hname⟩ := Scan.next_same hnext
    have hscan := Call.scanStep hstep
    rw [hname]
    rcases hscan.starting_origin hv with hold | ⟨y, hy, -, -, rfl, -⟩
    · by_cases hclaim : x.pos = .claim
      · -- An issued id is not in `starting` for another scan; this one claims it now.
        cases hscan with
        | same _ hsame _ =>
          rw [hsame] at ht
          simp [Call.ticket, hclaim, ScanAt.stage] at ht
        | cancelWallet _ _ hout _ =>
          rw [hout] at ht
          cases ht
        | claim =>
          have hv' : (s.shared.scans.starting.insert x.handle.id x.walletName).lookup x.handle.id =
            some v := hv
          rw [AList.lookup_insert] at hv'
          exact (Option.some.inj hv').symm
        | stoppedBefore => cases ht
        | enter hpos _ | refuse hpos | clear hpos _ | unstart hpos | stop hpos =>
          rw [hclaim] at hpos
          cases hpos
        | cancelSelf hstage _ _ _ =>
          rw [hclaim] at hstage
          cases hstage
      · have ht' := hscan.claimed_of hclaim ht
        rw [hhandle] at ht' hold
        exact hA x v rfl ht' hold
    · obtain rfl := Call.scan.inj hy
      rfl
  · rintro s m l l' σ' c call hs _ _ _ ⟨ch, hstep⟩ hne hc hB x v rfl ht hv
    rcases (Call.scanStep hstep).starting_origin hv with hold | ⟨y, -, -, -, -, hissued⟩
    · exact hB x v rfl ht hold
    · exact absurd hissued (not_issued_of_claimed hs hc ht)

/-- Nobody arms a scan but the scan itself. -/
theorem armed_of_other (h : system.Reach ok s) {m : CallId} {l l' : Call}
    (hstep : l.next m ch s.shared = some (l', σ')) {c : CallId} {x : Scan} (hne : c ≠ m)
    (hc : s.calls c = some (.scan x)) (harmed : World.Armed (s.put m l' σ') c x) :
    s.Armed c x := by
  have hscan := Call.scanStep hstep
  rcases harmed with ⟨hchecked, ht, hstart⟩ | ⟨k, hk, rfl, htoken⟩
  · rcases hscan.starting_origin hstart with hold | ⟨y, -, -, -, -, hissued⟩
    · exact Or.inl ⟨hchecked, ht, hold⟩
    · exact absurd hissued (not_issued_of_claimed h hc ht)
  · rcases hscan.running_origin hk with ⟨rfl, -, -⟩ | ⟨hold, -⟩
    · exact absurd rfl hne
    · refine Or.inr ⟨k, hold, rfl, ?_⟩
      by_contra hcancelled
      rw [Bool.not_eq_false] at hcancelled
      rw [show (s.put m l' σ').shared = σ' from rfl, hscan.cancelled hcancelled] at htoken
      cases htoken

/-- A scan arms itself by its check, and in no other way. -/
theorem armed_of_own (h : system.Reach ok s) {c : CallId} {x x' : Scan}
    (hc : s.calls c = some (.scan x)) (hnext : x.next c ch s.shared = some (x', σ'))
    (hcheck : ¬ ∃ file, x.pos = .check file) (harmed : World.Armed (s.put c (.scan x') σ') c x') :
    s.Armed c x := by
  have hstep : (Call.scan x).next c ch s.shared = some (.scan x', σ') := by
    simp [Call.next, hnext]
  have hscan := Call.scanStep hstep
  have hsame := (Scan.next_checked hnext).resolve_right hcheck
  obtain ⟨hhandle, hname⟩ := Scan.next_same hnext
  rcases harmed with ⟨hchecked, ht, hstart⟩ | ⟨k, hk, hkc, htoken⟩
  · left
    rw [hsame] at hchecked
    rw [hname, hhandle] at hstart
    have hclaim : x.pos ≠ .claim := by
      intro hclaim
      rw [(scan_checks h hc).before (by rw [hclaim]; rfl)] at hchecked
      cases hchecked
    have ht' := hscan.claimed_of hclaim ht
    rw [hhandle] at ht'
    rcases hscan.starting_origin hstart with hold | ⟨y, hy, hpos, -⟩
    · exact ⟨hchecked, ht', hold⟩
    · obtain rfl := Call.scan.inj hy
      exact absurd hpos hclaim
  · rw [hname] at hk
    rcases hscan.running_origin hk with ⟨-, -, y, wallet, hy, hpos, hstart⟩ | ⟨hold, -⟩
    · -- It takes the slot now, out of `starting`.
      obtain rfl := Call.scan.inj hy
      have ht : (Call.scan x).ticket = .claimed x.handle.id := by
        simp [Call.ticket, hpos, ScanAt.stage]
      obtain rfl := starting_wallet h hc ht hstart
      exact Or.inl ⟨(scan_checks h hc).after (by rw [hpos]; rfl), ht, hstart⟩
    · refine Or.inr ⟨k, hold, hkc, ?_⟩
      by_contra hcancelled
      rw [Bool.not_eq_false] at hcancelled
      rw [show (s.put c (.scan x') σ').shared = σ' from rfl, hscan.cancelled hcancelled] at htoken
      cases htoken

/-- A scan that is wanted after a step found a session in it, or was wanted before. -/
theorem armed_origin (h : system.Reach ok s) {m : CallId} {l l' : Call} (hm : s.calls m = some l)
    (hstep : l.next m ch s.shared = some (l', σ')) {c : CallId} {x : Scan}
    (hc : (s.put m l' σ').calls c = some (.scan x)) (harmed : World.Armed (s.put m l' σ') c x) :
    (σ' = s.shared ∧ ∃ file k, x.checked = some (file, k) ∧ s.shared.keys x.walletName = some k) ∨
      ∃ x₀, s.calls c = some (.scan x₀) ∧ s.Armed c x₀ ∧ x.checked = x₀.checked ∧
        x.walletName = x₀.walletName := by
  rcases Config.put_calls_eq_some hc with ⟨rfl, rfl⟩ | ⟨hne, hold⟩
  · obtain ⟨x₀, rfl, hnext⟩ := Call.of_next_scan hstep
    obtain ⟨-, hname⟩ := Scan.next_same hnext
    by_cases hcheck : ∃ file, x₀.pos = .check file
    · obtain ⟨file, hpos⟩ := hcheck
      obtain ⟨rfl, ⟨e, rfl⟩ | ⟨k, hk, hchecked, -⟩⟩ := Scan.next_check hnext hpos
      · -- It failed, and is not wanted.
        have hnone := (scan_checks h hm).before (by rw [hpos]; rfl)
        rcases harmed with ⟨hchecked, -, -⟩ | ⟨k, hk, hkc, -⟩
        · simp [Scan.goto, hnone] at hchecked
        · obtain ⟨call, hcall, hslot⟩ := running_sound h _ _ hk
          obtain rfl := Option.some.inj ((hkc ▸ hcall).symm.trans hm)
          simp [Call.slot, hpos, ScanAt.stage] at hslot
      · exact Or.inl ⟨rfl, file, k, hchecked, hname ▸ hk⟩
    · exact Or.inr ⟨x₀, hm, armed_of_own h hm hnext hcheck harmed,
        (Scan.next_checked hnext).resolve_right hcheck, hname⟩
  · exact Or.inr ⟨x, hold, armed_of_other h hstep hne hold harmed, rfl, rfl⟩

/-- A scan that has just been called is not wanted yet. -/
theorem armed_of_start (h : system.Reach ok s) {m : CallId} {l : Call} (hfree : s.calls m = none)
    (hstart : system.start l) {c : CallId} {x : Scan} (hc : (s.put m l s.shared).calls c = some (.scan x))
    (harmed : World.Armed (s.put m l s.shared) c x) : s.calls c = some (.scan x) := by
  rcases Config.put_calls_eq_some hc with ⟨rfl, rfl⟩ | ⟨-, hold⟩
  · simp only [system, Call.starts, decide_eq_true_eq] at hstart
    rcases harmed with ⟨hchecked, -, -⟩ | ⟨k, hk, rfl, -⟩
    · rw [hstart] at hchecked
      cases hchecked
    · obtain ⟨call, hcall, -⟩ := running_sound h _ _ hk
      rw [hfree] at hcall
      cases hcall
  · exact hold

/-- `cancel_wallet_scans` leaves no scan of the wallet wanted. -/
theorem not_armed_of_cancel {m : CallId} {l' : Call}
    (hσ : SameScans (s.shared.cancelWalletScans w).2 σ') {c : CallId} {x : Scan}
    (hw : x.walletName = w) : ¬ World.Armed (s.put m l' σ') c x := by
  obtain ⟨hscans, htokens, -⟩ := hσ
  rw [Shared.cancelWalletScans_eq] at hscans htokens
  rintro (⟨-, -, hstart⟩ | ⟨k, hk, hkc, htoken⟩)
  · rw [Config.put_shared, hscans] at hstart
    have hkeep := (Table.lookup_retain_eq_some.mp hstart).2
    simp [hw] at hkeep
  · rw [Config.put_shared, hscans] at hk
    rw [hw] at hk
    rw [Config.put_shared, htokens, show s.shared.scans.running.lookup w = some k from hk] at htoken
    simp [hkc] at htoken

/-! ## The session a wanted scan checked -/

/-- A delete or rename that may have dropped the session and has its last cancel ahead. -/
def WithLockedAt.owesCancel : WithLockedAt → Bool
  | .change _ | .settle _ _ | .lockAfter .remove _ | .lockAfter (.gate _ _) _
  | .lockAfter (.stop .cancel) _ => true
  | _ => false

/-- A call that dropped `w`'s session, or may have, and is on its way to cancel `w`'s scans. -/
def Call.owesCancel (w : WalletName) (call : Call) : Bool :=
  call.keyPhase w = .cancelling || match call with
    | .withWalletLocked m => m.walletName = w && m.pos.owesCancel
    | _ => false

theorem Call.owesCancel_of_pos {m : WithWalletLocked} (hw : m.walletName = w)
    (h : m.pos.owesCancel = true) : (Call.withWalletLocked m).owesCancel w = true := by
  simp [owesCancel, hw, h]

theorem GateAt.eq_of_cancelling {g : GateAt} (h : g.keyPhase = .cancelling) :
    g = .held .cancelScans := by
  cases g with
  | held h' => cases h' <;> first | rfl | cases h
  | _ => cases h

theorem EverywhereAt.eq_of_cancelling (before : KeyProtocol.Phase) (hbefore : before ≠ .cancelling)
    {e : EverywhereAt} (h : e.keyPhase before = .cancelling) :
    ∃ file, e = .gate file (.held .cancelScans) := by
  cases e with
  | remove => exact absurd h hbefore
  | gate file g => exact ⟨file, by rw [GateAt.eq_of_cancelling h]⟩
  | stop _ => cases h

theorem UnlockAt.eq_of_cancelling {p : UnlockAt} (h : p.keyPhase = .cancelling) :
    ∃ g e, p = .lockHeld .cancelScans g e := by
  cases p with
  | lockHeld h' g e => cases h' <;> first | exact ⟨g, e, rfl⟩ | cases h
  | leave _ r => cases r <;> cases h
  | returned g r => cases g <;> cases r <;> cases h
  | _ => cases h

/-- A call between `session::lock` and `cancel_wallet_scans` cancels the wallet's scans next. -/
theorem Call.cancels_of_cancelling {call call' : Call}
    (h : call.next me ch σ = some (call', σ')) (hp : call.keyPhase w = .cancelling) :
    SameScans (σ.cancelWalletScans w).2 σ' := by
  cases call <;> simp only [Call.keyPhase, ite_eq_iff, reduceCtorEq, and_false, or_false] at hp <;>
    obtain ⟨r, hr, h⟩ := Option.map_eq_some_iff.mp h <;> cases h
  case unlockWallet u =>
    obtain ⟨rfl, hp⟩ := hp
    obtain ⟨g, e, hpos⟩ := UnlockAt.eq_of_cancelling hp
    simp only [UnlockWallet.next, hpos, GateHeldAt.next, Option.some.injEq] at hr
    rw [← hr]
    exact .refl _
  case lockWallet l =>
    obtain ⟨v, holder, pos⟩ := l
    obtain ⟨rfl, hp⟩ := hp
    cases pos with
    | gate file g =>
      obtain rfl := GateAt.eq_of_cancelling hp
      cases hr
      exact .refl _
    | _ => cases hp
  case forceLockWallet f =>
    obtain ⟨v, pos⟩ := f
    obtain ⟨rfl, hp⟩ := hp
    cases pos with
    | everywhere e =>
      obtain ⟨file, rfl⟩ := EverywhereAt.eq_of_cancelling .out (by decide) hp
      cases hr
      exact .refl _
    | returned => cases hp
  case withWalletLocked m =>
    obtain ⟨v, change, pos⟩ := m
    obtain ⟨rfl, hp⟩ := hp
    cases pos with
    | lockBefore _ e =>
      obtain ⟨file, rfl⟩ := EverywhereAt.eq_of_cancelling .out (by decide) hp
      cases hr
      exact .refl _
    | lockAfter e _ =>
      obtain ⟨file, rfl⟩ := EverywhereAt.eq_of_cancelling .written (by decide) hp
      cases hr
      exact .refl _
    | _ => cases hp
  case changePassphrase p =>
    obtain ⟨v, old, new, pos⟩ := p
    obtain ⟨rfl, hp⟩ := hp
    cases pos <;> cases hp

/-- A call that owes the cancel goes on owing it, or cancels. -/
theorem Call.owesCancel_next {call call' : Call} (h : call.next me ch σ = some (call', σ'))
    (ho : call.owesCancel w = true) :
    call'.owesCancel w = true ∨ SameScans (σ.cancelWalletScans w).2 σ' := by
  by_cases hp : call.keyPhase w = .cancelling
  · exact Or.inr (Call.cancels_of_cancelling h hp)
  simp only [owesCancel, hp, decide_false, Bool.false_or] at ho
  cases call <;> simp only [Bool.false_eq_true, Bool.and_eq_true, decide_eq_true_eq] at ho
  case withWalletLocked m =>
  obtain ⟨r, hr, h⟩ := Option.map_eq_some_iff.mp h
  cases h
  obtain ⟨m', σ'⟩ := r
  obtain ⟨v, change, pos⟩ := m
  obtain ⟨rfl, ho⟩ := ho
  unfold WithWalletLocked.next at hr
  cases pos with
  | change file | settle file changed =>
    left
    dsimp only at hr
    split at hr <;> cases hr <;> exact owesCancel_of_pos rfl rfl
  | lockAfter e changed =>
    dsimp only at hr
    split at hr <;> cases hr
    · -- Still inside the second lock.
      rename_i hnext
      cases e with
      | remove =>
        cases hnext
        exact Or.inl (owesCancel_of_pos rfl rfl)
      | gate file g =>
        simp only [EverywhereAt.next] at hnext
        split at hnext <;> cases hnext <;> exact Or.inl (owesCancel_of_pos rfl rfl)
      | stop s =>
        simp only [EverywhereAt.next] at hnext
        split at hnext <;> cases hnext
        rcases StopAt.next_eq ‹_› with ⟨-, rfl, -⟩ | ⟨c, rfl, -⟩
        · exact Or.inr (.refl _)
        · cases ho
    · obtain ⟨s, rfl, hnext⟩ := EverywhereAt.stop_of_next_inr ‹_›
      rcases StopAt.next_eq hnext with ⟨-, rfl, -⟩ | ⟨c, rfl, -⟩
      · exact Or.inr (.refl _)
      · cases ho
  | _ => cases ho

/-! ## Locked wallets' scans -/

/-- Schedules on one database file without `change_passphrase`. -/
def onOneFile (path : PathBuf) : Guard Shared Call :=
  only fun call => call.unlocksOn path && !call.isChangePassphrase

theorem onOneFile_unlocksOn {path : PathBuf} (h : system.Reach (onOneFile path) s) :
    system.Reach (only (Call.unlocksOn path)) s :=
  h.mono fun e _ hok => by
    cases e with
    | start c call =>
      simp only [onOneFile, only, startsOnly, Bool.and_eq_true] at hok
      exact hok.1
    | step c => rfl

theorem onOneFile_noPassphraseChange {path : PathBuf} (h : system.Reach (onOneFile path) s) :
    system.Reach noPassphraseChange s :=
  h.mono fun e _ hok => by
    cases e with
    | start c call =>
      simp only [onOneFile, only, startsOnly, Bool.and_eq_true] at hok
      exact hok.2
    | step c => rfl

/-- Whatever drops a session owes its scans the cancel. -/
theorem owesCancel_of_dropped {path : PathBuf} (h : system.Reach (onOneFile path) s) {m : CallId}
    {call call' : Call} (hm : s.calls m = some call)
    (hstep : call.next m ch s.shared = some (call', σ')) {k : KeySession}
    (hk : s.shared.keys w = some k) (hgone : σ'.keys w ≠ some k) :
    call'.owesCancel w = true := by
  cases Call.keysStep hstep with
  | same hkeys _ => exact absurd (hkeys ▸ hk) hgone
  | @stored u g keys foreign _ hpos hunlock =>
    rcases KeySessions.unlock_ok hunlock with ⟨-, rfl⟩ | ⟨hlocked, rfl, -⟩
    · exact absurd hk hgone
    · by_cases hw : w = u.walletName
      · -- On one file minotari sees the session, and stores no other.
        subst hw
        have hone := onOneFile_unlocksOn h
        have hfile : k.file = u.path := (session_file hone _ k hk).trans (unlock_path hone hm).symm
        rw [KeySessions.isUnlocked_own hk hfile] at hlocked
        cases hlocked
      · exact absurd ((Function.update_of_ne hw _ _).trans hk) hgone
  | @locked v _ _ _ _ hcancelling =>
    by_cases hw : w = v
    · subst hw
      simp [Call.owesCancel, hcancelling]
    · exact absurd ((KeySessions.lock_ne _ hw).trans hk) hgone
  | @dropped v _ _ hmaintains =>
    by_cases hw : w = v
    · subst hw
      rcases Call.of_maintains hmaintains with ⟨x, rfl, hname⟩ | ⟨p, rfl⟩
      · obtain ⟨v, change, pos⟩ := x
        subst hname
        cases pos with
        | change _ | settle _ _ => exact Call.owesCancel_of_pos rfl rfl
        | lockBefore _ e => cases e <;> simp [Call.keyPhase, WithLockedAt.keyPhase,
            EverywhereAt.keyPhase] at hmaintains
        | lockAfter e _ =>
          cases e with
          | stop s => simp [Call.keyPhase, WithLockedAt.keyPhase, EverywhereAt.keyPhase] at hmaintains
          | _ => exact Call.owesCancel_of_pos rfl rfl
        | _ => simp [Call.keyPhase, WithLockedAt.keyPhase] at hmaintains
      · cases isChangePassphrase_eq_false (onOneFile_noPassphraseChange h) hm
    · exact absurd ((KeySessions.lock_ne _ hw).trans hk) hgone

/-- Scan `x` made its check under the session that is live now. -/
def World.ChecksLive (s : World) (x : Scan) : Prop :=
  ∃ file k, x.checked = some (file, k) ∧ s.shared.keys x.walletName = some k

/-- Some call owes `w`'s scans the cancel. -/
def World.CancelOwed (s : World) (w : WalletName) : Prop :=
  ∃ d call, s.calls d = some call ∧ call.owesCancel w = true

/-- A wanted scan made its check under the live session, or is about to be cancelled. -/
theorem armed_session {path : PathBuf} (h : system.Reach (onOneFile path) s) :
    ∀ c x, s.calls c = some (.scan x) → s.Armed c x → s.ChecksLive x ∨ s.CancelOwed x.walletName := by
  refine h.invariant (I := fun s : World => ∀ c x, s.calls c = some (.scan x) → s.Armed c x →
    s.ChecksLive x ∨ s.CancelOwed x.walletName) ?_ ?_ ?_
  · intro σ _ c x hc
    cases hc
  · intro s m call hs ih _ hfree hstart c x hc harmed
    have hold := armed_of_start hs hfree hstart hc harmed
    rcases ih c x hold harmed with hlive | ⟨d, call', hd, ho⟩
    · exact Or.inl hlive
    · exact Or.inr ⟨d, call', Config.put_calls_of_free hfree hd, ho⟩
  · rintro (s : World) m l l' σ' hs ih _ hm ⟨ch, hstep⟩ c x hc harmed
    -- The scan's own check finds its session; otherwise it was wanted before.
    rcases armed_origin hs hm hstep hc harmed with ⟨rfl, file, k, hfile, hk⟩ |
      ⟨x₀, hx₀, harmed₀, hchecked, hname⟩
    · exact Or.inl ⟨file, k, hfile, hk⟩
    rcases ih c x₀ hx₀ harmed₀ with ⟨file, k, hfile, hk⟩ | ⟨d, call, hd, ho⟩
    · -- The session is still live, or this step dropped it.
      by_cases hgone : σ'.keys x₀.walletName = some k
      · exact Or.inl ⟨file, k, hchecked.trans hfile, hname ▸ hgone⟩
      · refine Or.inr ⟨m, l', Config.put_calls_self _ _ _ _, ?_⟩
        rw [hname]
        exact owesCancel_of_dropped hs hm hstep hk hgone
    · by_cases hdm : d = m
      · subst hdm
        obtain rfl := Option.some.inj (hm.symm.trans hd)
        rcases Call.owesCancel_next hstep ho with ho' | hcancel
        · exact Or.inr ⟨d, l', Config.put_calls_self _ _ _ _, hname ▸ ho'⟩
        · exact absurd harmed (not_armed_of_cancel hcancel hname)
      · exact Or.inr ⟨d, call, by rw [Config.put_calls_ne _ _ _ hdm]; exact hd, hname ▸ ho⟩

/-- No call is between `session::lock` of `w` and `cancel_wallet_scans`. -/
def World.NotLocking (s : World) (w : WalletName) : Prop :=
  ∀ c call, s.calls c = some call → call.keyPhase w ≠ .cancelling

theorem checksLive_of_armed {path : PathBuf} (h : system.Reach (onOneFile path) s) {c : CallId}
    {x : Scan} (hc : s.calls c = some (.scan x)) (hlocking : s.NotLocking x.walletName)
    (hdeleting : s.NotDeleting x.walletName) (harmed : s.Armed c x) : s.ChecksLive x := by
  rcases armed_session h c x hc harmed with hlive | ⟨d, call, hd, ho⟩
  · exact hlive
  · simp only [Call.owesCancel, hlocking d call hd, decide_false, Bool.false_or] at ho
    split at ho
    · rename_i m
      simp only [Bool.and_eq_true, decide_eq_true_eq] at ho
      have hret := hdeleting d m hd ho.1
      obtain ⟨v, change, pos⟩ := m
      cases pos with
      | returned _ => cases ho.2
      | _ => cases hret
    · cases ho

/-! ## Scans a lock has ended -/

/-- How a scan starts, gets into its slot and gets to work. -/
theorem Scan.next_stage {x x' : Scan} (h : x.next me ch σ = some (x', σ')) :
    (x'.pos.stage = .starting → x.pos.stage = .starting ∨ x.pos = .claim) ∧
      (x'.pos.stage = .active → x.pos.stage = .active ∨ x.pos = .slot ∧
        σ.scans.starting.lookup x.handle.id ≠ none) ∧
      (x'.pos.inside = true → x.pos.inside = true ∨ x.pos = .firstCheck ∧
        (σ.tokens me).cancelled = false) := by
  obtain ⟨handle, v, priority, continuous, rescanFrom, pos, dbPath, forwarder, checked, swept, rolledBack⟩ := x
  unfold next at h
  cases pos with
  | claim =>
    dsimp only at h
    (repeat' split at h) <;> cases h <;> exact ⟨fun _ => Or.inr rfl, nofun, nofun⟩
  | maintenance =>
    obtain ⟨σ₁, -, h⟩ := Option.map_eq_some_iff.mp h
    cases h
    exact ⟨fun _ => Or.inl rfl, nofun, nofun⟩
  | slot =>
    dsimp only at h
    split at h <;> cases h
    · exact ⟨fun _ => Or.inl rfl, nofun, nofun⟩
    · exact ⟨fun _ => Or.inl rfl, nofun, nofun⟩
    · rcases Shared.enterSlot_eq ‹_› with ⟨hr, -, -⟩ | ⟨e, hr, -⟩ | ⟨wallet, hstart, -, -⟩
      · cases hr
      · cases hr
      · refine ⟨fun _ => Or.inl rfl, fun _ => Or.inr ⟨rfl, ?_⟩, nofun⟩
        rw [hstart]
        exact nofun
  | firstCheck =>
    dsimp only at h
    split at h <;> cases h
    · exact ⟨nofun, fun _ => Or.inl rfl, nofun⟩
    · exact ⟨nofun, fun _ => Or.inl rfl, fun _ => Or.inr ⟨rfl, Bool.eq_false_iff.mpr ‹_›⟩⟩
  | dbPath | conn | account _ | check _ =>
    dsimp only at h
    (repeat' split at h) <;> cases h <;> exact ⟨fun _ => Or.inl rfl, nofun, nofun⟩
  | dropMaintenance previous =>
    cases previous <;> cases h <;> exact ⟨nofun, fun _ => Or.inl rfl, nofun⟩
  | waitPrevious _ | clear _ =>
    dsimp only at h
    (repeat' split at h) <;> cases h <;> exact ⟨nofun, fun _ => Or.inl rfl, nofun⟩
  | sweepConn | sweep file =>
    cases rescanFrom <;> dsimp only at h <;> (repeat' split at h) <;> cases h <;>
      exact ⟨nofun, fun _ => Or.inl rfl, fun _ => Or.inl rfl⟩
  | leaveMaintenance _ | goneConn _ | gone _ _ | unstart _ | terminal _ | stop _ | returned _ =>
    dsimp only at h
    (repeat' split at h) <;> cases h <;> exact ⟨nofun, nofun, nofun⟩
  | _ =>
    dsimp only at h
    (repeat' split at h) <;> cases h <;> exact ⟨nofun, fun _ => Or.inl rfl, fun _ => Or.inl rfl⟩

/-- Scan `c` of `w` will never get to work any more, if it is not at work. -/
structure World.Doomed (s : World) (w : WalletName) (c : CallId) (x : Scan) : Prop where
  wallet : x.walletName = w
  checked : x.checked.isSome = true
  starting : x.pos.stage = .starting → s.shared.scans.starting.lookup x.handle.id = none
  active : x.pos.stage = .active → (s.shared.tokens c).cancelled = true

/-- A scan that has made its check goes on from there. -/
theorem Scan.next_of_checked (h : system.Reach ok s) {c : CallId} {x x' : Scan}
    (hc : s.calls c = some (.scan x)) (hchecked : x.checked.isSome = true)
    (hnext : x.next c ch s.shared = some (x', σ')) :
    x.pos ≠ .claim ∧ x'.checked = x.checked := by
  have hpast : x.pos.unchecked ≠ true := fun h' => by
    rw [(scan_checks h hc).before h'] at hchecked
    cases hchecked
  refine ⟨fun hclaim => hpast (by rw [hclaim]; rfl), ?_⟩
  refine (Scan.next_checked hnext).resolve_right ?_
  rintro ⟨file, hpos⟩
  exact hpast (by rw [hpos]; rfl)

/-- Whoever moves, a doomed scan stays doomed, and gets nowhere. -/
theorem World.Doomed.put (h : system.Reach ok s) {m : CallId} {l l' : Call}
    (hm : s.calls m = some l) (hstep : l.next m ch s.shared = some (l', σ')) {c : CallId} {x : Scan}
    (hc : s.calls c = some (.scan x)) (hd : s.Doomed w c x) :
    ∃ x', (s.put m l' σ').calls c = some (.scan x') ∧ World.Doomed (s.put m l' σ') w c x' ∧
      (x'.pos.stage = .active → x.pos.stage = .active) ∧
      (x'.pos.inside = true → x.pos.inside = true) := by
  have hscan := Call.scanStep hstep
  have hstart (hstage : x.pos.stage = .starting) :
      σ'.scans.starting.lookup x.handle.id = none := by
    by_contra hsome
    obtain ⟨v, hv⟩ := Option.ne_none_iff_exists'.mp hsome
    rcases hscan.starting_origin hv with hold | ⟨y, -, -, -, -, hissued⟩
    · cases (hd.starting hstage).symm.trans hold
    · exact not_issued_of_claimed h hc (by simp [Call.ticket, hstage]) hissued
  by_cases hcm : c = m
  · subst hcm
    obtain rfl := Option.some.inj (hm.symm.trans hc)
    obtain ⟨x', rfl, hnext⟩ := Call.next_scan hstep
    obtain ⟨hhandle, hname⟩ := Scan.next_same hnext
    obtain ⟨hclaim, hchecked⟩ := Scan.next_of_checked h hc hd.checked hnext
    obtain ⟨hstarting, hactive, hinside⟩ := Scan.next_stage hnext
    have hactive' : x'.pos.stage = .active → x.pos.stage = .active := fun hstage =>
      (hactive hstage).resolve_right fun hslot =>
        hslot.2 (hd.starting (by rw [hslot.1]; rfl))
    refine ⟨x', Config.put_calls_self _ _ _ _, ⟨hname.trans hd.wallet, hchecked ▸ hd.checked,
      fun hstage => ?_, fun hstage => hscan.cancelled (hd.active (hactive' hstage))⟩, hactive',
      fun hin => ?_⟩
    · rw [hhandle]
      exact hstart ((hstarting hstage).resolve_right hclaim)
    · rcases hinside hin with hin | ⟨hfirst, htoken⟩
      · exact hin
      · rw [hd.active (by rw [hfirst]; rfl)] at htoken
        cases htoken
  · refine ⟨x, by rw [Config.put_calls_ne _ _ _ hcm]; exact hc, ⟨hd.wallet, hd.checked, hstart,
      fun hstage => hscan.cancelled (hd.active hstage)⟩, id, id⟩

/-! ## The trailing stop of a lock -/

def LockAt.stopAhead : LockAt → Bool
  | .release | .gate _ _ | .stop .cancel => true
  | _ => false

def ForceAt.stopAhead : ForceAt → Bool
  | .everywhere .remove | .everywhere (.gate _ _) | .everywhere (.stop .cancel) => true
  | _ => false

/-- A `lock_wallet` or `force_lock_wallet` of `w` that has not come to cancel the scans in its
trailing `stop_wallet_scans`, so in particular one whose gate step is still to come. -/
def Call.stopAhead (w : WalletName) : Call → Bool
  | .lockWallet l => l.walletName = w && l.pos.stopAhead
  | .forceLockWallet f => f.walletName = w && f.pos.stopAhead
  | _ => false

/-- The scan a lock of `w` waits for in its trailing `stop_wallet_scans`. -/
def Call.stopWaits (w : WalletName) : Call → Option CallId
  | .lockWallet ⟨v, _, .stop (.wait r)⟩ => if v = w then some r else none
  | .forceLockWallet ⟨v, .everywhere (.stop (.wait r))⟩ => if v = w then some r else none
  | _ => none

/-- A `lock_wallet` of `w` that returned `true`, or a `force_lock_wallet` that returned. -/
def Call.lockedAll (w : WalletName) : Call → Bool
  | .lockWallet ⟨v, _, .returned true⟩ => v = w
  | .forceLockWallet ⟨v, .returned⟩ => v = w
  | _ => false

/-- A `lock_wallet` that returned `false`. -/
def Call.lockedNothing : Call → Bool
  | .lockWallet ⟨_, _, .returned false⟩ => true
  | _ => false

/-- The trailing `stop_wallet_scans`: it cancels, and waits for the running scan if there is one. -/
theorem StopAt.next_cancel {r : StopAt ⊕ Unit} (h : StopAt.cancel.next w σ = some (r, σ')) :
    SameScans (σ.cancelWalletScans w).2 σ' ∧
      ((∃ k, σ.scans.running.lookup w = some k ∧ r = .inl (.wait k.scan)) ∨
        (σ.scans.running.lookup w = none ∧ r = .inr ())) := by
  rcases StopAt.next_eq h with ⟨-, rfl, rfl⟩ | ⟨c, hc, -⟩
  · refine ⟨.refl _, ?_⟩
    cases hrun : σ.scans.running.lookup w with
    | none => exact Or.inr ⟨rfl, rfl⟩
    | some k => exact Or.inl ⟨k, rfl, rfl⟩
  · cases hc

/-- What a lock does on its way to the end of its trailing stop. -/
inductive StopStep (w : WalletName) (σ σ' : Shared) (call' : Call) : Prop
  | ahead : call'.stopAhead w = true → StopStep w σ σ' call'
  | nothing : call'.lockedNothing = true → StopStep w σ σ' call'
  | cancelled : SameScans (σ.cancelWalletScans w).2 σ' →
      (∀ k, σ.scans.running.lookup w = some k → call'.stopWaits w = some k.scan) →
      (σ.scans.running.lookup w = none → call'.lockedAll w = true) → StopStep w σ σ' call'

theorem Call.stopStep {call call' : Call} (h : call.next me ch σ = some (call', σ'))
    (hahead : call.stopAhead w = true) : StopStep w σ σ' call' := by
  cases call <;> simp only [stopAhead, Bool.and_eq_true, decide_eq_true_eq, Bool.false_eq_true]
    at hahead <;> obtain ⟨r, hr, h⟩ := Option.map_eq_some_iff.mp h <;> cases h
  case lockWallet l =>
    obtain ⟨v, holder, pos⟩ := l
    obtain ⟨rfl, hahead⟩ := hahead
    obtain ⟨l', σ'⟩ := r
    unfold LockWallet.next at hr
    cases pos with
    | release =>
      dsimp only at hr
      split at hr <;> cases hr
      · exact .nothing rfl
      · exact .ahead (by simp [stopAhead, LockAt.stopAhead])
    | gate file g =>
      dsimp only at hr
      split at hr <;> cases hr
      · exact .ahead (by simp [stopAhead, LockAt.stopAhead])
      · exact .nothing rfl
      · exact .ahead (by simp [stopAhead, LockAt.stopAhead])
    | stop s =>
      cases s with
      | cancel =>
        dsimp only at hr
        split at hr <;> cases hr
        all_goals
          obtain ⟨hcancel, ⟨k, hrun, hk⟩ | ⟨hrun, hk⟩⟩ := StopAt.next_cancel ‹_› <;> cases hk
          exact .cancelled hcancel (by simp [hrun, stopWaits]) (by simp [hrun, lockedAll])
      | wait r => cases hahead
    | returned b => cases hahead
  case forceLockWallet f =>
    obtain ⟨v, pos⟩ := f
    obtain ⟨rfl, hahead⟩ := hahead
    obtain ⟨f', σ'⟩ := r
    unfold ForceLockWallet.next at hr
    cases pos with
    | everywhere e =>
      cases e with
      | remove =>
        cases hr
        exact .ahead (by simp [stopAhead, ForceAt.stopAhead])
      | gate file g =>
        dsimp only [EverywhereAt.next] at hr
        cases hg : g.next me v σ with
        | none => simp [hg] at hr
        | some a =>
          obtain ⟨g' | locked, σ₁⟩ := a <;> simp only [hg, Option.some.injEq, Prod.mk.injEq] at hr <;>
            obtain ⟨rfl, rfl⟩ := hr <;> exact .ahead (by simp [stopAhead, ForceAt.stopAhead])
      | stop s =>
        cases s with
        | cancel =>
          dsimp only [EverywhereAt.next] at hr
          cases hs : StopAt.cancel.next v σ with
          | none => simp [hs] at hr
          | some a =>
            obtain ⟨r, σ₁⟩ := a
            obtain ⟨hcancel, ⟨k, hrun, rfl⟩ | ⟨hrun, rfl⟩⟩ := StopAt.next_cancel hs <;>
              simp only [hs, Option.some.injEq, Prod.mk.injEq] at hr <;> obtain ⟨rfl, rfl⟩ := hr <;>
              exact .cancelled hcancel (by simp [hrun, stopWaits]) (by simp [hrun, lockedAll])
        | wait r => cases hahead
    | returned => cases hahead

theorem Call.eq_of_stopWaits {call : Call} {r : CallId} (h : call.stopWaits w = some r) :
    (∃ holder, call = .lockWallet ⟨w, holder, .stop (.wait r)⟩) ∨
      call = .forceLockWallet ⟨w, .everywhere (.stop (.wait r))⟩ := by
  unfold stopWaits at h
  split at h
  · simp only [Option.ite_none_right_eq_some, Option.some.injEq] at h
    obtain ⟨rfl, rfl⟩ := h
    exact Or.inl ⟨_, rfl⟩
  · simp only [Option.ite_none_right_eq_some, Option.some.injEq] at h
    obtain ⟨rfl, rfl⟩ := h
    exact Or.inr rfl
  · cases h

/-- A lock that waits for a scan goes on once that scan's `stopped` token has fired. -/
theorem Call.next_of_stopWaits {call call' : Call} {r : CallId}
    (h : call.next me ch σ = some (call', σ')) (hwaits : call.stopWaits w = some r) :
    (σ.tokens r).stopped = true ∧ σ' = σ ∧ call'.lockedAll w = true := by
  by_cases hstopped : (σ.tokens r).stopped = true
  · rcases Call.eq_of_stopWaits hwaits with ⟨holder, rfl⟩ | rfl
    · simp only [Call.next, LockWallet.next, StopAt.next, hstopped, if_true, Option.map_some,
        Option.some.injEq, Prod.mk.injEq] at h
      obtain ⟨rfl, rfl⟩ := h
      exact ⟨hstopped, rfl, by simp [lockedAll]⟩
    · simp only [Call.next, ForceLockWallet.next, EverywhereAt.next, StopAt.next, hstopped, if_true,
        Option.map_some, Option.some.injEq, Prod.mk.injEq] at h
      obtain ⟨rfl, rfl⟩ := h
      exact ⟨hstopped, rfl, by simp [lockedAll]⟩
  · rcases Call.eq_of_stopWaits hwaits with ⟨holder, rfl⟩ | rfl
    · simp [Call.next, LockWallet.next, StopAt.next, hstopped] at h
    · simp [Call.next, ForceLockWallet.next, EverywhereAt.next, StopAt.next, hstopped] at h

theorem Call.eq_of_lockedAll {call : Call} (h : call.lockedAll w = true) :
    (∃ holder, call = .lockWallet ⟨w, holder, .returned true⟩) ∨
      call = .forceLockWallet ⟨w, .returned⟩ := by
  unfold lockedAll at h
  split at h
  · obtain rfl := of_decide_eq_true h
    exact Or.inl ⟨_, rfl⟩
  · obtain rfl := of_decide_eq_true h
    exact Or.inr rfl
  · cases h

/-- A lock that has returned takes no step. -/
theorem Call.next_of_lockedAll {call : Call} (h : call.lockedAll w = true ∨ call.lockedNothing = true) :
    call.next me ch σ = none := by
  refine Call.next_of_returned ?_
  rcases h with h | h
  · rcases Call.eq_of_lockedAll h with ⟨holder, rfl⟩ | rfl <;> rfl
  · unfold lockedNothing at h
    split at h <;> first | rfl | cases h

/-! ## A lock ends the scans that checked before it -/

/-- What has become of scan `c` of `w`, which had made its check when lock `X` still had its trailing
stop ahead: nothing yet; or the lock waits, at the end of a chain of waits, for the scan to stop; or
the lock has returned and the scan is not at work. -/
inductive World.Ending (s : World) (w : WalletName) (c : CallId) (x : Scan) (call : Call) : Prop
  | ahead : x.walletName = w → x.checked.isSome = true → call.stopAhead w = true →
      Ending s w c x call
  | nothing : call.lockedNothing = true → Ending s w c x call
  | waits {r} : call.stopWaits w = some r → s.Doomed w c x → (x.pos.stage = .active →
      Relation.ReflTransGen (SlotProtocol.Waits ((slotHom (fun _ _ => True) w).config s)) r c) →
      Ending s w c x call
  | ended : call.lockedAll w = true → s.Doomed w c x → x.pos.inside = false →
      Ending s w c x call

theorem ScanAt.slotPhase_active {p : ScanAt} (h : p.stage = .active) : p.slotPhase.active = true := by
  cases p <;> first | rfl | cases h

theorem ScanAt.active_of_inside {p : ScanAt} (h : p.inside = true) : p.stage = .active := by
  cases p <;> first | rfl | cases h

theorem slotPhase_of_active (ok : Guard Shared Call) {c : CallId} {x : Scan}
    (hc : s.calls c = some (.scan x))
    (hw : x.walletName = w) (hstage : x.pos.stage = .active) :
    ∃ q, ((slotHom ok w).config s).calls c = some q ∧ q.active = true :=
  ⟨_, slotPhase_config ok hc, by simp [Call.slotPhase, hw, ScanAt.slotPhase_active hstage]⟩

/-- After the cancel every scan of the wallet that had made its check is doomed, and the scan in the
slot is the last to stop. -/
theorem doomed_of_cancel (h : system.Reach ok s) {m : CallId} {l' : Call}
    (hσ : SameScans (s.shared.cancelWalletScans w).2 σ') {c : CallId} {x : Scan}
    (hc : s.calls c = some (.scan x)) (hw : x.walletName = w) (hchecked : x.checked.isSome = true) :
    World.Doomed (s.put m l' σ') w c x := by
  obtain ⟨hscans, htokens, -⟩ := hσ
  rw [Shared.cancelWalletScans_eq] at hscans htokens
  refine ⟨hw, hchecked, fun hstage => ?_, fun hstage => ?_⟩
  · rw [Config.put_shared, hscans]
    by_contra hsome
    obtain ⟨v, hv⟩ := Option.ne_none_iff_exists'.mp hsome
    obtain ⟨hold, hkeep⟩ := Table.lookup_retain_eq_some.mp hv
    obtain rfl := starting_wallet h hc (by simp [Call.ticket, hstage]) hold
    simp [hw] at hkeep
  · rw [Config.put_shared, htokens]
    have hT := (slotHom ok w).reach_any h
    obtain ⟨q, hq, hact⟩ := slotPhase_of_active ok hc hw hstage
    by_cases hrun : (s.shared.scans.running.lookup w).map (·.scan) = some c
    · obtain ⟨k, hk, rfl⟩ := Option.map_eq_some_iff.mp hrun
      simp [hk]
    · -- It was replaced, hence cancelled.
      have hcancelled : (s.shared.tokens c).cancelled = true :=
        SlotProtocol.active_cancelled hT hq hact hrun
      cases s.shared.scans.running.lookup w <;> simp [hcancelled]

/-- Chains of waits, from one configuration to the next. -/
theorem chain_step (h : system.Reach ok s) {m : CallId} {l l' : Call} (hm : s.calls m = some l)
    (hstep : l.next m ch s.shared = some (l', σ')) {r c : CallId} {x : Scan}
    (hc : s.calls c = some (.scan x)) (hw : x.walletName = w) (hstage : x.pos.stage = .active)
    (hchain : Relation.ReflTransGen (SlotProtocol.Waits ((slotHom ok w).config s)) r c) :
    Relation.ReflTransGen (SlotProtocol.Waits ((slotHom ok w).config (s.put m l' σ'))) r c := by
  obtain ⟨q, hq, hact⟩ := slotPhase_of_active ok hc hw hstage
  rw [System.Hom.config_put]
  exact SlotProtocol.chain_kept ((slotHom ok w).reach_any h) (slotPhase_config ok hm)
    (Call.slotStep h hm hstep) hq hact hchain

/-- A scan goes on being that scan, whoever moves. -/
theorem scan_put {m : CallId} {l l' : Call} (hm : s.calls m = some l)
    (hstep : l.next m ch s.shared = some (l', σ')) {c : CallId} {x : Scan}
    (hc : s.calls c = some (.scan x)) :
    ∃ x', (s.put m l' σ').calls c = some (.scan x') ∧ ((c = m ∧ x.next m ch s.shared = some (x', σ')) ∨
      (c ≠ m ∧ x' = x)) := by
  by_cases hcm : c = m
  · subst hcm
    obtain rfl := Option.some.inj (hm.symm.trans hc)
    obtain ⟨x', rfl, hnext⟩ := Call.next_scan hstep
    exact ⟨x', Config.put_calls_self _ _ _ _, Or.inl ⟨rfl, hnext⟩⟩
  · exact ⟨x, by rw [Config.put_calls_ne _ _ _ hcm]; exact hc, Or.inr ⟨hcm, rfl⟩⟩

theorem World.Ending.put (h : system.Reach (fun _ _ => True) s) {m : CallId} {l l' : Call}
    (hm : s.calls m = some l) (hstep : l.next m ch s.shared = some (l', σ')) {X c : CallId}
    {x : Scan} {call : Call} (hX : s.calls X = some call) (hc : s.calls c = some (.scan x))
    (hending : s.Ending w c x call) :
    ∃ x' call', (s.put m l' σ').calls c = some (.scan x') ∧ (s.put m l' σ').calls X = some call' ∧
      World.Ending (s.put m l' σ') w c x' call' := by
  have hT := (slotHom (fun _ _ => True) w).reach_any h
  by_cases hXm : X = m
  · -- The lock moves.
    subst hXm
    obtain rfl := Option.some.inj (hm.symm.trans hX)
    have hX' : (s.put X l' σ').calls X = some l' := Config.put_calls_self _ _ _ _
    have hlock {p : Prop} (hnone : l.next X ch s.shared = none) : p := by
      rw [hnone] at hstep
      cases hstep
    cases hending with
    | ahead hw hchecked hahead =>
      have hne : c ≠ X := by
        rintro rfl
        obtain rfl := Option.some.inj (hm.symm.trans hc)
        cases hahead
      have hc' : (s.put X l' σ').calls c = some (.scan x) := by
        rw [Config.put_calls_ne _ _ _ hne]
        exact hc
      refine ⟨x, l', hc', hX', ?_⟩
      cases Call.stopStep hstep hahead with
      | ahead hahead' => exact .ahead hw hchecked hahead'
      | nothing hnothing => exact .nothing hnothing
      | cancelled hcancel hwait hnone =>
        have hdoomed : World.Doomed (s.put X l' σ') w c x :=
          doomed_of_cancel h hcancel hc hw hchecked
        -- If the scan is active, there is one in the slot, and a chain from there.
        have hchain (hstage : x.pos.stage = .active) : ∃ k,
            s.shared.scans.running.lookup w = some k ∧ Relation.ReflTransGen
              (SlotProtocol.Waits ((slotHom (fun _ _ => True) w).config s)) k.scan c := by
          obtain ⟨q, hq, hact⟩ := slotPhase_of_active (fun _ _ => True) hc hw hstage
          obtain ⟨r, hr, hchain⟩ := SlotProtocol.active_chain hT c q hq hact
          obtain ⟨k, hk, rfl⟩ := Option.map_eq_some_iff.mp hr
          exact ⟨k, hk, hchain⟩
        cases hrun : s.shared.scans.running.lookup w with
        | none =>
          refine .ended (hnone hrun) hdoomed ?_
          rw [Bool.eq_false_iff]
          intro hin
          obtain ⟨k, hk, -⟩ := hchain (ScanAt.active_of_inside hin)
          rw [hrun] at hk
          cases hk
        | some k =>
          refine .waits (hwait k hrun) hdoomed fun hstage => ?_
          obtain ⟨k', hk', hchain⟩ := hchain hstage
          obtain rfl := Option.some.inj (hrun.symm.trans hk')
          exact chain_step h hm hstep hc hw hstage hchain
    | nothing hnothing => exact hlock (Call.next_of_lockedAll (w := w) (Or.inr hnothing))
    | @waits r hwaits hdoomed hchain =>
      obtain ⟨hstopped, -, hall⟩ := Call.next_of_stopWaits hstep hwaits
      obtain ⟨x', hc', hdoomed', -, hinside⟩ := hdoomed.put h hm hstep hc
      refine ⟨x', l', hc', hX', .ended hall hdoomed' ?_⟩
      rw [Bool.eq_false_iff]
      intro hin
      -- The scan waited for has stopped, and the chain from it leads nowhere.
      have hstage := ScanAt.active_of_inside (hinside hin)
      obtain ⟨q, hq, hact⟩ := slotPhase_of_active (fun _ _ => True) hc hdoomed.wallet hstage
      have hdone := SlotProtocol.done_of_stopped hT r hstopped
      obtain rfl := SlotProtocol.eq_of_chain hdone rfl (hchain hstage)
      obtain rfl := Option.some.inj (hdone.symm.trans hq)
      cases hact
    | ended hall _ _ => exact hlock (Call.next_of_lockedAll (Or.inl hall))
  · have hX' : (s.put m l' σ').calls X = some call := by
      rw [Config.put_calls_ne _ _ _ hXm]
      exact hX
    cases hending with
    | ahead hw hchecked hahead =>
      obtain ⟨x', hc', ⟨rfl, hnext⟩ | ⟨-, rfl⟩⟩ := scan_put hm hstep hc
      · refine ⟨x', call, hc', hX', .ahead ((Scan.next_same hnext).2.trans hw) ?_ hahead⟩
        rw [(Scan.next_of_checked h hc hchecked hnext).2]
        exact hchecked
      · exact ⟨x', call, hc', hX', .ahead hw hchecked hahead⟩
    | nothing hnothing =>
      obtain ⟨x', hc', -⟩ := scan_put hm hstep hc
      exact ⟨x', call, hc', hX', .nothing hnothing⟩
    | waits hwaits hdoomed hchain =>
      obtain ⟨x', hc', hdoomed', hactive, -⟩ := hdoomed.put h hm hstep hc
      exact ⟨x', call, hc', hX', .waits hwaits hdoomed' fun hstage =>
        chain_step h hm hstep hc hdoomed.wallet (hactive hstage) (hchain (hactive hstage))⟩
    | ended hall hdoomed hin =>
      obtain ⟨x', hc', hdoomed', -, hinside⟩ := hdoomed.put h hm hstep hc
      refine ⟨x', call, hc', hX', .ended hall hdoomed' (Bool.eq_false_iff.mpr fun hin' => ?_)⟩
      rw [hinside hin'] at hin
      cases hin

/-- A scan that had made its check when a lock still had its trailing stop ahead is not at work once
the lock has returned, then or ever after. -/
theorem not_inside_after_lock (h : system.Reach ok s) {X c : CallId} {call : Call} {x : Scan}
    (hX : s.calls X = some call) (hahead : call.stopAhead w = true)
    (hc : s.calls c = some (.scan x)) (hw : x.walletName = w) (hchecked : x.checked.isSome = true)
    {t : World} (ht : system.Steps ok s t) {call' : Call} (hX' : t.calls X = some call')
    (hlocked : call'.lockedAll w = true) {x' : Scan} (hc' : t.calls c = some (.scan x')) :
    x'.pos.inside = false := by
  have h' : system.Reach (fun _ _ => True) s := h.mono fun _ _ _ => trivial
  have hend : ∃ x call, t.calls c = some (.scan x) ∧ t.calls X = some call ∧
      World.Ending t w c x call := by
    refine System.Steps.stable (I := fun t : World => ∃ x call,
      t.calls c = some (.scan x) ∧ t.calls X = some call ∧ t.Ending w c x call) ?_ ?_ ?_ h'
      ⟨x, call, hc, hX, .ahead hw hchecked hahead⟩ ht
    · exact fun _ _ _ => trivial
    · rintro (s : World) d l _ ⟨x, call, hc, hX, hending⟩ _ hfree _
      refine ⟨x, call, Config.put_calls_of_free hfree hc, Config.put_calls_of_free hfree hX, ?_⟩
      cases hending with
      | ahead hw hchecked hahead => exact .ahead hw hchecked hahead
      | nothing hnothing => exact .nothing hnothing
      | waits hwaits hdoomed hchain =>
        refine .waits hwaits ⟨hdoomed.1, hdoomed.2, hdoomed.3, hdoomed.4⟩ fun hstage => ?_
        rw [System.Hom.config_put]
        exact SlotProtocol.chain_start (by simp [hfree]) (hchain hstage)
      | ended hall hdoomed hin =>
        exact .ended hall ⟨hdoomed.1, hdoomed.2, hdoomed.3, hdoomed.4⟩ hin
    · rintro (s : World) m l l' σ' hs ⟨x, call, hc, hX, hending⟩ _ hm ⟨ch, hstep⟩
      exact hending.put hs hm hstep hX hc
  obtain ⟨x₀, call₀, hx₀, hcall₀, hending⟩ := hend
  obtain rfl := Option.some.inj (hcall₀.symm.trans hX')
  obtain rfl := Call.scan.inj (Option.some.inj (hx₀.symm.trans hc'))
  -- The lock has returned, so it is the last of the four.
  cases hending with
  | ended _ _ hin => exact hin
  | ahead _ _ hahead' =>
    rcases Call.eq_of_lockedAll hlocked with ⟨holder, rfl⟩ | rfl <;>
      simp [Call.stopAhead, LockAt.stopAhead, ForceAt.stopAhead] at hahead'
  | nothing hnothing =>
    rcases Call.eq_of_lockedAll hlocked with ⟨holder, rfl⟩ | rfl <;> cases hnothing
  | waits hwaits _ _ =>
    rcases Call.eq_of_lockedAll hlocked with ⟨holder, rfl⟩ | rfl <;> cases hwaits

/-- Locking a wallet ends its scans.  Unless a lock of the wallet is between `session::lock` and
`cancel_wallet_scans`, or a delete or rename of it is in progress, every scan that is about to start or
holds the slot uncancelled made its check under the session that is live now; and when a `lock_wallet`
has returned `true`, or a `force_lock_wallet` has returned, no scan that had made its check before that
call's gate step is at work, then or later. -/
theorem lock_ends_scans {path : PathBuf} (h : system.Reach (onOneFile path) s) (w : WalletName) :
    (s.NotLocking w → s.NotDeleting w → ∀ c x, s.calls c = some (.scan x) → x.walletName = w →
      s.Armed c x → ∃ file k, x.checked = some (file, k) ∧ s.shared.keys w = some k) ∧
    ∀ X call c x, s.calls X = some call → call.stopAhead w = true → s.calls c = some (.scan x) →
      x.walletName = w → x.checked.isSome = true →
        ∀ t call' x', system.Steps (onOneFile path) s t → t.calls X = some call' →
          call'.lockedAll w = true → t.calls c = some (.scan x') → x'.pos.inside = false := by
  constructor
  · rintro hlocking hdeleting c x hc rfl harmed
    exact checksLive_of_armed h hc hlocking hdeleting harmed
  · intro X call c x hX hahead hc hw hchecked t call' x' ht hX' hlocked hc'
    exact not_inside_after_lock h hX hahead hc hw hchecked ht hX' hlocked hc'

/-- A scan of `w` that has made its check. -/
def Call.checkedScan (w : WalletName) : Call → Bool
  | .scan x => x.walletName = w && x.checked.isSome
  | _ => false

/-- A scan is at work, and a force lock begins. -/
def scanForced : Option World :=
  (replayOnly 4 fun call => call.unlocksOn firstPath && !call.isChangePassphrase).exec fresh
    (unlocks 0 firstPath ++ startsScan 1 2 0 ++ go 2 2 ++
      [.start 3 (.forceLockWallet ⟨"main", .everywhere .remove⟩)])

/-- The lock goes on to wait for the scan, the scan ends, and the lock returns. -/
def scanEnded : Option World :=
  scanForced.bind fun s =>
    (replayOnly 4 fun call => call.unlocksOn firstPath && !call.isChangePassphrase).exec s
      (go 3 7 ++ go 2 8 ++ go 3 1)

theorem lock_ends_scans_scanForced :
    ∃ s t x x' file k, scanForced = some s ∧ scanEnded = some t ∧ s.calls 2 = some (.scan x) ∧
      x.checked = some (file, k) ∧ s.shared.keys "main" = some k ∧ t.calls 2 = some (.scan x') ∧
      x'.pos.inside = false := by
  obtain ⟨s, hs⟩ := Option.isSome_iff_exists.mp (by decide : scanForced.isSome = true)
  obtain ⟨t, ht⟩ := Option.isSome_iff_exists.mp (by decide : scanEnded.isSome = true)
  have before : scanForced.map (fun s => ((s.calls 3).any (Call.stopAhead "main"),
      (s.calls 2).any (Call.checkedScan "main"),
      (s.shared.scans.running.lookup "main").map (·.scan), (s.shared.tokens 2).cancelled,
      s.allBelow 4 fun call => decide (call.keyPhase "main" ≠ .cancelling) &&
        !call.isWithWalletLocked)) = some (true, true, some 2, false, true) := by decide
  have after : scanEnded.map (fun t => ((t.calls 3).any (Call.lockedAll "main"),
      (t.calls 2).any (Call.checkedScan "main"))) = some (true, true) := by decide
  simp only [hs, ht, Option.map_some, Option.some.injEq, Prod.mk.injEq, Option.any_eq_true,
    Option.map_eq_some_iff] at before after
  obtain ⟨⟨lock, hlock, hahead⟩, ⟨scan, hscan, hx⟩, ⟨k, hk, hkc⟩, htoken, hall⟩ := before
  obtain ⟨⟨lock', hlock', hlocked⟩, scan', hscan', hx'⟩ := after
  cases scan <;> simp only [Call.checkedScan, Bool.false_eq_true, Bool.and_eq_true,
    decide_eq_true_eq] at hx
  case scan x =>
  cases scan' <;> simp only [Call.checkedScan, Bool.false_eq_true] at hx'
  case scan x' =>
  have hR : (replayOnly 4 fun call => call.unlocksOn firstPath && !call.isChangePassphrase).Sound
      system (onOneFile firstPath) := replayOnly_sound
  obtain ⟨hwithin, hsteps⟩ := hR.steps (fun _ _ => rfl) hs
  have hst : system.Steps (onOneFile firstPath) s t := by
    rw [scanEnded, hs, Option.bind_some] at ht
    exact (hR.steps hwithin ht).2
  have hlocking : s.NotLocking "main" := fun c call hc => by
    simpa using (Bool.and_eq_true_iff.mp (hwithin.of_allBelow hall hc)).1
  have hdeleting : s.NotDeleting "main" := fun c m hc => by
    have hnone := (Bool.and_eq_true_iff.mp (hwithin.of_allBelow hall hc)).2
    simp [Call.isWithWalletLocked] at hnone
  have h := lock_ends_scans (hR.reach fresh_init hs) "main"
  obtain ⟨file, key, hchecked, hkey⟩ := h.1 hlocking hdeleting 2 x hscan hx.1
    (Or.inr ⟨k, hx.1 ▸ hk, hkc, htoken⟩)
  exact ⟨s, t, x, x', file, key, hs, ht, hscan, hchecked, hkey, hscan', h.2 3 lock 2 x hlock hahead
    hscan hx.1 hx.2 t lock' x' hst hlock' hlocked hscan'⟩

end CwTariWallet
