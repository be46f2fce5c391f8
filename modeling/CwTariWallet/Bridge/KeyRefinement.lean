/-
# CwTariWallet.Bridge.KeyRefinement -- the bridge as the key protocol of one wallet

Every step of every call is, for a given wallet, a step of `KeyProtocol` or none at all.  The positions
of `unlock_wallet`, the locks, `delete_wallet`, `rename_wallet` and `change_passphrase` become the
protocol's phases; the other calls stay `out`.
-/
import CwTariWallet.Bridge.Effects
import CwTariWallet.Protocol.Keys

namespace CwTariWallet

open Interleaving KeyProtocol

/-- What the key protocol of `w` sees of the state. -/
def Shared.keyView (w : WalletName) (σ : Shared) : KeyProtocol.View :=
  ⟨σ.db.generation w, σ.db.nextGeneration, σ.gates w, (σ.keys w).isSome⟩

/-! ## Phases -/

def GateHeldAt.keyPhase : GateHeldAt → Phase
  | .readState => .reading
  | .lockSession => .locking
  | .cancelScans => .cancelling

def GateAt.keyPhase : GateAt → Phase
  | .wait => .owes
  | .held h => h.keyPhase
  | .leave _ => .leaving

/-- `before` is the phase of a call that is about to take the entry away. -/
def EverywhereAt.keyPhase (before : Phase) : EverywhereAt → Phase
  | .remove => before
  | .gate _ g => g.keyPhase
  | .stop _ => .out

def LockAt.keyPhase : LockAt → Phase
  | .gate _ g => g.keyPhase
  | _ => .out

def ForceAt.keyPhase : ForceAt → Phase
  | .everywhere e => e.keyPhase .out
  | .returned => .out

def UnlockAt.keyPhase : UnlockAt → Phase
  | .count => .out
  | .gate g => .counted g
  | .isUnlocked g | .verify g | .isUnlockedAgain g | .unlock g | .failed g _ => .checking g
  | .confirm g => .passed g
  | .lockHeld h _ _ => h.keyPhase
  | .leave g (.ok _) => .confirmed g
  | .leave _ (.error _) => .leaving
  | .returned (some g) (.ok _) => .holder g
  | .returned _ _ => .out

def WithLockedAt.keyPhase : WithLockedAt → Phase
  | .lockBefore _ e => e.keyPhase .out
  | .change _ | .settle _ _ => .writing
  | .lockAfter e _ => e.keyPhase .written
  | _ => .out

def ChangeAt.keyPhase : ChangeAt → Phase
  | .write _ | .settle _ _ => .rewriting
  | _ => .out

/-- The phase of a call, for wallet `w`. -/
def Call.keyPhase (w : WalletName) : Call → Phase
  | .unlockWallet u => if u.walletName = w then u.pos.keyPhase else .out
  | .lockWallet l => if l.walletName = w then l.pos.keyPhase else .out
  | .forceLockWallet f => if f.walletName = w then f.pos.keyPhase else .out
  | .withWalletLocked m => if m.walletName = w then m.pos.keyPhase else .out
  | .changePassphrase p => if p.walletName = w then p.pos.keyPhase else .out
  | _ => .out

/-! ## Steps -/

variable {w : WalletName} {me : CallId} {ch : Choice} {σ σ' : Shared}

theorem keyStep_of_eq {p : Phase} (h : σ'.keyView w = σ.keyView w) :
    Step me p (σ.keyView w) p (σ'.keyView w) := by
  rw [h]
  exact .tick (Nat.le_refl _)

/-- A call on another wallet changes nothing but, maybe, the next generation. -/
structure Elsewhere (w : WalletName) (σ σ' : Shared) : Prop where
  generation : σ'.db.generation w = σ.db.generation w
  fresh : σ.db.nextGeneration ≤ σ'.db.nextGeneration
  gates : σ'.gates w = σ.gates w
  keys : σ'.keys w = σ.keys w

theorem Elsewhere.refl : Elsewhere w σ σ := ⟨rfl, Nat.le_refl _, rfl, rfl⟩

theorem Elsewhere.step {p : Phase} (h : Elsewhere w σ σ') :
    Step me p (σ.keyView w) p (σ'.keyView w) := by
  have hview : σ'.keyView w = { σ.keyView w with fresh := σ'.db.nextGeneration } := by
    simp [Shared.keyView, h.generation, h.gates, h.keys]
  rw [hview]
  exact .tick h.fresh

/-- A step of a call on wallet `v`: a step of the protocol if that is `w`, and none otherwise. -/
theorem keyStep_on {v : WalletName} {p p' : Phase}
    (hon : v = w → Step me p (σ.keyView w) p' (σ'.keyView w)) (hoff : v ≠ w → Elsewhere w σ σ') :
    Step me (if v = w then p else .out) (σ.keyView w) (if v = w then p' else .out)
      (σ'.keyView w) := by
  by_cases hv : v = w
  · simpa [hv] using hon hv
  · simpa [hv] using (hoff hv).step

/-! ### The gate step -/

/-- The phase of a gate step once `GateHeldAt.next` has answered. -/
def heldResult : GateHeldAt ⊕ Bool → Phase
  | .inl h => h.keyPhase
  | .inr _ => .leaving

theorem GateHeldAt.keyStep {h : GateHeldAt} {r : GateHeldAt ⊕ Bool}
    (hnext : h.next w σ = (r, σ')) :
    Step me h.keyPhase (σ.keyView w) (heldResult r) (σ'.keyView w) := by
  cases h with
  | readState =>
    simp only [GateHeldAt.next] at hnext
    split at hnext <;> obtain ⟨rfl, rfl⟩ := Prod.mk.inj hnext
    · refine .readHeld fun hnone => ?_
      simp_all [Shared.keyView, DbState.generation]
    · refine .readFree ?_
      simp_all [Shared.keyView, DbState.generation]
  | lockSession =>
    obtain ⟨rfl, rfl⟩ := Prod.mk.inj hnext
    have hview : Shared.keyView w { σ with keys := σ.keys.lock w } =
        { σ.keyView w with live := false } := by simp [Shared.keyView]
    rw [hview]
    exact .lock
  | cancelScans =>
    obtain ⟨rfl, rfl⟩ := Prod.mk.inj hnext
    rw [Shared.cancelWalletScans_eq]
    exact .cancel

theorem GateHeldAt.elsewhere {v : WalletName} (hv : v ≠ w) {h : GateHeldAt} {r : GateHeldAt ⊕ Bool}
    (hnext : h.next v σ = (r, σ')) : Elsewhere w σ σ' := by
  cases h with
  | readState =>
    simp only [GateHeldAt.next] at hnext
    split at hnext <;> obtain ⟨rfl, rfl⟩ := Prod.mk.inj hnext <;> exact .refl
  | lockSession =>
    obtain ⟨rfl, rfl⟩ := Prod.mk.inj hnext
    exact ⟨rfl, Nat.le_refl _, rfl, KeySessions.lock_ne _ hv.symm⟩
  | cancelScans =>
    obtain ⟨rfl, rfl⟩ := Prod.mk.inj hnext
    rw [Shared.cancelWalletScans_eq]
    exact ⟨rfl, Nat.le_refl _, rfl, rfl⟩

/-- The phase of a gate step once `GateAt.next` has answered. -/
def gateResult : GateAt ⊕ Bool → Phase
  | .inl g => g.keyPhase
  | .inr _ => .out

theorem Shared.keyView_holdGate (h : σ.holdGate w me = some σ') :
    (σ.keyView w).gate = none ∧ σ'.keyView w = { σ.keyView w with gate := some me } := by
  obtain ⟨hfree, rfl⟩ := Shared.holdGate_eq_some h
  exact ⟨hfree, by simp [Shared.keyView]⟩

theorem Shared.elsewhere_holdGate {v : WalletName} (hv : v ≠ w) (h : σ.holdGate v me = some σ') :
    Elsewhere w σ σ' := by
  obtain ⟨-, rfl⟩ := Shared.holdGate_eq_some h
  exact ⟨rfl, Nat.le_refl _, Function.update_of_ne hv.symm _ _, rfl⟩

theorem Shared.keyView_dropGate (σ : Shared) :
    (σ.dropGate w).keyView w = { σ.keyView w with gate := none } := by
  simp [Shared.keyView, Shared.dropGate]

theorem Shared.elsewhere_dropGate {v : WalletName} (hv : v ≠ w) (σ : Shared) :
    Elsewhere w σ (σ.dropGate v) :=
  ⟨rfl, Nat.le_refl _, Function.update_of_ne hv.symm _ _, rfl⟩

theorem GateAt.keyStep {g : GateAt} {r : GateAt ⊕ Bool} (hnext : g.next me w σ = some (r, σ')) :
    Step me g.keyPhase (σ.keyView w) (gateResult r) (σ'.keyView w) := by
  cases g with
  | wait =>
    obtain ⟨σ₁, hhold, h⟩ := Option.map_eq_some_iff.mp hnext
    cases h
    obtain ⟨hfree, hview⟩ := Shared.keyView_holdGate hhold
    rw [hview]
    exact .enter hfree
  | held h =>
    simp only [GateAt.next] at hnext
    split at hnext <;> cases hnext
    · exact GateHeldAt.keyStep ‹_›
    · exact GateHeldAt.keyStep ‹_›
  | leave locked =>
    cases hnext
    rw [Shared.keyView_dropGate]
    exact .leave

theorem GateAt.elsewhere {v : WalletName} (hv : v ≠ w) {g : GateAt} {r : GateAt ⊕ Bool}
    (hnext : g.next me v σ = some (r, σ')) : Elsewhere w σ σ' := by
  cases g with
  | wait =>
    obtain ⟨σ₁, hhold, h⟩ := Option.map_eq_some_iff.mp hnext
    cases h
    exact Shared.elsewhere_holdGate hv hhold
  | held h =>
    simp only [GateAt.next] at hnext
    split at hnext <;> cases hnext <;> exact GateHeldAt.elsewhere hv ‹_›
  | leave locked =>
    cases hnext
    exact Shared.elsewhere_dropGate hv σ

/-! ### The locks -/

theorem Shared.keyView_removeSession (σ : Shared) :
    (σ.removeSession me w).keyView w = { σ.keyView w with entry := none } := by
  simp [Shared.keyView, Shared.removeSession, DbState.removeSession_generation]

theorem Shared.elsewhere_removeSession {v : WalletName} (hv : v ≠ w) (σ : Shared) :
    Elsewhere w σ (σ.removeSession me v) := by
  refine ⟨?_, ?_, rfl, rfl⟩
  · simp [Shared.removeSession, DbState.removeSession_generation, hv.symm]
  · simp [Shared.removeSession]

theorem StopAt.elsewhere {v : WalletName} {s : StopAt} {r : StopAt ⊕ Unit}
    (h : s.next v σ = some (r, σ')) : Elsewhere w σ σ' := by
  obtain ⟨scans, tokens, rfl⟩ := StopAt.next_frame h
  exact ⟨rfl, Nat.le_refl _, rfl, rfl⟩

/-- The phase of a call once `EverywhereAt.next` has answered. -/
def everywhereResult (before : Phase) : EverywhereAt ⊕ Unit → Phase
  | .inl e => e.keyPhase before
  | .inr _ => .out

theorem EverywhereAt.keyStep {before : Phase} (hbefore : before = .out ∨ before = .written)
    {e : EverywhereAt} {r : EverywhereAt ⊕ Unit} (hnext : e.next me w σ = some (r, σ')) :
    Step me (e.keyPhase before) (σ.keyView w) (everywhereResult before r) (σ'.keyView w) := by
  cases e with
  | remove =>
    cases hnext
    rw [Shared.keyView_removeSession]
    rcases hbefore with rfl | rfl
    · exact .release
    · exact .releaseWritten
  | gate file g =>
    simp only [EverywhereAt.next] at hnext
    split at hnext <;> cases hnext
    · exact GateAt.keyStep ‹_›
    · exact GateAt.keyStep ‹_›
  | stop s =>
    simp only [EverywhereAt.next] at hnext
    split at hnext <;> cases hnext
    · exact (StopAt.elsewhere ‹_›).step
    · exact (StopAt.elsewhere ‹_›).step

theorem EverywhereAt.elsewhere {v : WalletName} (hv : v ≠ w) {e : EverywhereAt}
    {r : EverywhereAt ⊕ Unit} (hnext : e.next me v σ = some (r, σ')) : Elsewhere w σ σ' := by
  cases e with
  | remove =>
    cases hnext
    exact Shared.elsewhere_removeSession hv σ
  | gate file g =>
    simp only [EverywhereAt.next] at hnext
    split at hnext <;> cases hnext <;> exact GateAt.elsewhere hv ‹_›
  | stop s =>
    simp only [EverywhereAt.next] at hnext
    split at hnext <;> cases hnext <;> exact StopAt.elsewhere ‹_›

theorem ForceLockWallet.keyStep {f f' : ForceLockWallet} (h : f.next me σ = some (f', σ')) :
    Step me ((Call.forceLockWallet f).keyPhase w) (σ.keyView w)
      ((Call.forceLockWallet f').keyPhase w) (σ'.keyView w) := by
  obtain ⟨v, pos⟩ := f
  unfold next at h
  cases pos with
  | everywhere e =>
    dsimp only at h
    split at h <;> cases h
    all_goals
      refine keyStep_on ?_ fun hv => EverywhereAt.elsewhere hv ‹_›
      rintro rfl
      exact EverywhereAt.keyStep (Or.inl rfl) ‹_›
  | returned => cases h

/-- `lock_wallet_everywhere` ends with its `stop_wallet_scans`. -/
theorem EverywhereAt.stop_of_next_inr {v : WalletName} {e : EverywhereAt}
    (h : e.next me v σ = some (.inr (), σ')) :
    ∃ s, e = .stop s ∧ s.next v σ = some (.inr (), σ') := by
  cases e with
  | remove => cases h
  | gate file g =>
    simp only [EverywhereAt.next] at h
    split at h <;> cases h
  | stop s =>
    simp only [EverywhereAt.next] at h
    split at h <;> cases h
    exact ⟨s, rfl, ‹_›⟩

/-- A count that reaches zero leaves the gate step owed. -/
theorem Shared.keyStep_releaseSession {zero : Bool}
    (h : σ.releaseSession me w = (zero, σ')) :
    Step me .out (σ.keyView w) (if zero then .owes else .out) (σ'.keyView w) := by
  obtain ⟨db, hone, rfl⟩ := Shared.releaseSession_eq h
  have hgen := DbState.releaseOne_generation hone w
  have hfresh := DbState.releaseOne_nextGeneration hone
  cases zero with
  | true =>
    have hview : Shared.keyView w { σ with
        db := db
        ledger := σ.note (σ.db.generation w) fun l => { l with locked := me :: l.locked } } =
        { σ.keyView w with entry := none } := by
      simp [Shared.keyView, hgen, hfresh]
    rw [hview]
    exact .release
  | false => exact keyStep_of_eq (by simp [Shared.keyView, hgen, hfresh])

theorem Shared.elsewhere_releaseOne {v : WalletName} (hv : v ≠ w) {zero : Bool} {db : DbState}
    {ledger : Nat → Ledger} (h : σ.db.releaseOne v = (zero, db)) :
    Elsewhere w σ { σ with db := db, ledger := ledger } := by
  have hfresh := DbState.releaseOne_nextGeneration h
  refine ⟨?_, Nat.le_of_eq hfresh.symm, rfl, rfl⟩
  simp [DbState.releaseOne_generation h w, hv.symm]

theorem LockWallet.keyStep {l l' : LockWallet} (h : l.next me σ = some (l', σ')) :
    Step me ((Call.lockWallet l).keyPhase w) (σ.keyView w)
      ((Call.lockWallet l').keyPhase w) (σ'.keyView w) := by
  obtain ⟨v, holder, pos⟩ := l
  unfold next at h
  cases pos with
  | release =>
    dsimp only at h
    have hoff {zero : Bool} {σ₁ : Shared} (hrel : σ.releaseSession me v = (zero, σ₁)) (hv : v ≠ w) :
        Elsewhere w σ σ₁ := by
      obtain ⟨db, hone, rfl⟩ := Shared.releaseSession_eq hrel
      exact Shared.elsewhere_releaseOne hv hone
    split at h <;> cases h
    · refine keyStep_on ?_ (hoff ‹_›)
      rintro rfl
      exact Shared.keyStep_releaseSession ‹_›
    · refine keyStep_on ?_ (hoff ‹_›)
      rintro rfl
      exact Shared.keyStep_releaseSession ‹_›
  | gate file g =>
    dsimp only at h
    split at h <;> cases h
    all_goals
      refine keyStep_on ?_ fun hv => GateAt.elsewhere hv ‹_›
      rintro rfl
      exact GateAt.keyStep ‹_›
  | stop s =>
    dsimp only at h
    split at h <;> cases h
    all_goals exact keyStep_on (fun _ => (StopAt.elsewhere ‹_›).step) fun _ => StopAt.elsewhere ‹_›
  | returned r => cases h

/-! ### `unlock_wallet` -/

/-- After `session::unlock` there is a session. -/
theorem KeySessions.isSome_of_unlock {keys keys' : KeySessions} {file : PathBuf}
    {db : WalletDatabase} {p : Passphrase} {foreign : Bool} {serial : Nat}
    (h : keys.unlock file db w p foreign serial = .ok keys') : (keys' w).isSome = true := by
  rcases KeySessions.unlock_ok h with ⟨hun, rfl⟩ | ⟨-, rfl, -⟩
  · cases hk : keys' w with
    | none => simp [KeySessions.isUnlocked_none hk] at hun
    | some k => rfl
  · simp

/-- It leaves every other wallet's session alone. -/
theorem KeySessions.unlock_ne {keys keys' : KeySessions} {file : PathBuf} {db : WalletDatabase}
    {p : Passphrase} {foreign : Bool} {serial : Nat} {v : WalletName} (hv : v ≠ w)
    (h : keys.unlock file db v p foreign serial = .ok keys') : keys' w = keys w := by
  rcases KeySessions.unlock_ok h with ⟨-, rfl⟩ | ⟨-, rfl, -⟩
  · rfl
  · exact Function.update_of_ne hv.symm _ _

theorem Shared.live_of_isUnlocked {file : PathBuf} (h : σ.isUnlocked file w ch = .ok true) :
    (σ.keys w).isSome = true := by
  unfold Shared.isUnlocked at h
  split at h
  · cases h
  · cases hk : σ.keys w with
    | none => simp [KeySessions.isUnlocked, hk] at h
    | some k => rfl

theorem Shared.keyStep_count {path : PathBuf} {g : Nat}
    (h : σ.count me path w ch = (.ok g, σ')) :
    Step me .out (σ.keyView w) (.counted g) (σ'.keyView w) := by
  obtain ⟨db, files, rfl, hacq, -⟩ := Shared.count_ok h
  have hgen := DbState.acquireSession_generation hacq w
  rw [if_pos rfl] at hgen
  rcases DbState.acquireSession_fresh hacq with ⟨hnone, rfl, hfresh⟩ | ⟨hsome, hle⟩
  · have hview : Shared.keyView w { σ with
        db := db
        files := files
        ledger := σ.note (some σ.db.nextGeneration) fun l => { l with counted := me :: l.counted } } =
        { σ.keyView w with
          entry := some (σ.keyView w).fresh, fresh := (σ.keyView w).fresh + 1 } := by
      simp only [Shared.keyView, hgen]
      rw [hfresh]
    rw [hview]
    exact .countNew hnone
  · have hview : Shared.keyView w { σ with
        db := db
        files := files
        ledger := σ.note (some g) fun l => { l with counted := me :: l.counted } } =
        { σ.keyView w with fresh := db.nextGeneration } := by
      simp only [Shared.keyView, hgen]
      rw [← hsome]
      rfl
    rw [hview]
    exact .countMore hsome hle

theorem Shared.elsewhere_count {v : WalletName} (hv : v ≠ w) {path : PathBuf}
    {r : Except BridgeError Nat} (h : σ.count me path v ch = (r, σ')) : Elsewhere w σ σ' := by
  cases r with
  | error e =>
    obtain ⟨db, rfl, rfl | ⟨rfl, -⟩⟩ := Shared.count_error h
    · exact .refl
    · exact ⟨rfl, Nat.le_refl _, rfl, rfl⟩
  | ok g =>
    obtain ⟨db, files, rfl, hacq, -⟩ := Shared.count_ok h
    refine ⟨?_, ?_, rfl, rfl⟩
    · rw [DbState.acquireSession_generation hacq w, if_neg hv.symm]
      rfl
    · rcases DbState.acquireSession_fresh hacq with ⟨-, -, hfresh⟩ | ⟨-, hle⟩
      · exact Nat.le_of_lt (by simp [hfresh])
      · exact hle

theorem Shared.keyStep_releaseFailed {g : Nat} {zero : Bool}
    (h : σ.releaseFailed me w g = (zero, σ')) :
    Step me (.checking g) (σ.keyView w) (if zero then .reading else .leaving) (σ'.keyView w) := by
  rcases Shared.releaseFailed_eq h with ⟨hgen, db, hone, rfl⟩ | ⟨-, rfl, rfl⟩
  · have hgen' := DbState.releaseOne_generation hone w
    have hfresh := DbState.releaseOne_nextGeneration hone
    cases zero with
    | true =>
      have hview : Shared.keyView w { σ with
          db := db
          ledger := σ.note (some g) fun l => { l with givenBack := me :: l.givenBack } } =
          { σ.keyView w with entry := none } := by
        simp [Shared.keyView, hgen', hfresh]
      rw [hview]
      exact .giveBackLast hgen
    | false =>
      have hview : Shared.keyView w { σ with
          db := db
          ledger := σ.note (some g) fun l => { l with givenBack := me :: l.givenBack } } =
          σ.keyView w := by
        simp [Shared.keyView, hgen', hfresh]
      rw [hview]
      exact .giveBack
  · exact .giveBack

theorem Shared.elsewhere_releaseFailed {v : WalletName} (hv : v ≠ w) {g : Nat} {zero : Bool}
    (h : σ.releaseFailed me v g = (zero, σ')) : Elsewhere w σ σ' := by
  rcases Shared.releaseFailed_eq h with ⟨-, db, hone, rfl⟩ | ⟨-, -, rfl⟩
  · exact Shared.elsewhere_releaseOne hv hone
  · exact .refl

theorem UnlockWallet.keyStep {u u' : UnlockWallet} (h : u.next me ch σ = some (u', σ')) :
    Step me ((Call.unlockWallet u).keyPhase w) (σ.keyView w)
      ((Call.unlockWallet u').keyPhase w) (σ'.keyView w) := by
  obtain ⟨path, v, passphrase, pos⟩ := u
  -- A step that only moves on.
  have stay {p p' : UnlockAt} (hp : p.keyPhase = p'.keyPhase) :
      Step me (if v = w then p.keyPhase else .out) (σ.keyView w)
        (if v = w then p'.keyPhase else .out) (σ.keyView w) := by
    rw [hp]
    exact keyStep_of_eq rfl
  unfold next at h
  cases pos with
  | count =>
    dsimp only at h
    split at h <;> cases h <;> refine keyStep_on ?_ fun hv => Shared.elsewhere_count hv ‹_›
    · rintro rfl
      obtain ⟨db, rfl, rfl | ⟨rfl, -⟩⟩ := Shared.count_error ‹_›
      · exact keyStep_of_eq rfl
      · exact keyStep_of_eq rfl
    · rintro rfl
      exact Shared.keyStep_count ‹_›
  | gate g =>
    obtain ⟨σ₁, hhold, h⟩ := Option.map_eq_some_iff.mp h
    cases h
    refine keyStep_on ?_ fun hv => Shared.elsewhere_holdGate hv hhold
    rintro rfl
    obtain ⟨hfree, hview⟩ := Shared.keyView_holdGate hhold
    rw [hview]
    exact .check hfree
  | isUnlocked g =>
    dsimp only at h
    (repeat' split at h) <;> cases h <;> exact stay rfl
  | verify g =>
    dsimp only at h
    (repeat' split at h) <;> cases h <;> exact stay rfl
  | isUnlockedAgain g =>
    dsimp only at h
    split at h <;> cases h
    · exact stay rfl
    · rename_i hun
      refine keyStep_on ?_ fun _ => .refl
      rintro rfl
      have hview : σ.keyView v = { σ.keyView v with live := true } := by
        simp [Shared.keyView, Shared.live_of_isUnlocked hun]
      rw [hview]
      exact .pass
    · exact stay rfl
  | unlock g =>
    dsimp only at h
    split at h
    · cases h
      exact stay rfl
    · split at h <;> cases h
      · exact stay rfl
      · rename_i keys hkeys
        refine keyStep_on ?_ fun hv => ⟨rfl, Nat.le_refl _, rfl, KeySessions.unlock_ne hv hkeys⟩
        rintro rfl
        have hview : Shared.keyView v { σ with keys := keys, nextSerial := σ.nextSerial + 1 } =
            { σ.keyView v with live := true } := by
          simp [Shared.keyView, KeySessions.isSome_of_unlock hkeys]
        rw [hview]
        exact .pass
  | failed g e =>
    dsimp only at h
    split at h <;> cases h <;> refine keyStep_on ?_ fun hv => Shared.elsewhere_releaseFailed hv ‹_›
    · rintro rfl
      exact Shared.keyStep_releaseFailed ‹_›
    · rintro rfl
      exact Shared.keyStep_releaseFailed ‹_›
  | confirm g =>
    dsimp only at h
    split at h <;> cases h <;> refine keyStep_on ?_ fun _ => .refl
    · rintro rfl
      exact .confirm (DbState.stillCounted_iff.mp ‹_›)
    · rintro rfl
      rename_i hnot
      exact .overtaken fun hg => hnot (DbState.stillCounted_iff.mpr hg)
  | lockHeld hh g e =>
    dsimp only at h
    split at h <;> cases h
    all_goals
      refine keyStep_on ?_ fun hv => GateHeldAt.elsewhere hv ‹_›
      rintro rfl
      exact GateHeldAt.keyStep ‹_›
  | leave g r =>
    cases h
    refine keyStep_on ?_ fun hv => Shared.elsewhere_dropGate hv σ
    rintro rfl
    rw [Shared.keyView_dropGate]
    cases r with
    | ok _ => exact .hold
    | error e => exact .leave
  | returned g r => cases h

/-! ### Maintenance -/

theorem Elsewhere.dropKeys {v : WalletName} (hv : v ≠ w) :
    Elsewhere w σ { σ with keys := σ.keys.lock v } :=
  ⟨rfl, Nat.le_refl _, rfl, KeySessions.lock_ne _ hv.symm⟩

theorem Shared.keyView_dropKeys (σ : Shared) :
    Shared.keyView w { σ with keys := σ.keys.lock w } = { σ.keyView w with live := false } := by
  simp [Shared.keyView]

theorem WithWalletLocked.keyStep {m m' : WithWalletLocked} (h : m.next me ch σ = some (m', σ')) :
    Step me ((Call.withWalletLocked m).keyPhase w) (σ.keyView w)
      ((Call.withWalletLocked m').keyPhase w) (σ'.keyView w) := by
  obtain ⟨v, change, pos⟩ := m
  unfold next at h
  cases pos with
  | «begin» =>
    dsimp only at h
    split at h
    · cases h
      exact keyStep_of_eq rfl
    · obtain ⟨σ₁, hbegin, h⟩ := Option.map_eq_some_iff.mp h
      obtain ⟨-, rfl⟩ := Shared.beginMaintenance_eq_some hbegin
      cases h
      exact keyStep_of_eq rfl
  | conn =>
    dsimp only at h
    split at h <;> cases h <;> exact keyStep_of_eq rfl
  | lockBefore file e =>
    dsimp only at h
    split at h <;> cases h
    · refine keyStep_on ?_ fun hv => EverywhereAt.elsewhere hv ‹_›
      rintro rfl
      exact EverywhereAt.keyStep (Or.inl rfl) ‹_›
    · rename_i hnext
      obtain ⟨s, rfl, hstop⟩ := EverywhereAt.stop_of_next_inr hnext
      refine keyStep_on (fun _ => ?_) fun _ => StopAt.elsewhere hstop
      obtain ⟨scans, tokens, rfl⟩ := StopAt.next_frame hstop
      exact .write
  | change file =>
    dsimp only at h
    split at h <;> cases h
    · refine keyStep_on ?_ .dropKeys
      rintro rfl
      rw [Shared.keyView_dropKeys]
      exact .drop
    · exact keyStep_of_eq rfl
  | settle file changed =>
    dsimp only at h
    split at h <;> cases h
    · refine keyStep_on ?_ .dropKeys
      rintro rfl
      rw [Shared.keyView_dropKeys]
      exact .drop
    · exact keyStep_on (fun _ => .wrote) fun _ => .refl
  | lockAfter e changed =>
    dsimp only at h
    split at h <;> cases h
    all_goals
      refine keyStep_on ?_ fun hv => EverywhereAt.elsewhere hv ‹_›
      rintro rfl
      exact EverywhereAt.keyStep (Or.inr rfl) ‹_›
  | leave r =>
    cases h
    exact keyStep_of_eq rfl
  | returned r => cases h

theorem ChangePassphrase.keyStep {p p' : ChangePassphrase} (h : p.next me ch σ = some (p', σ')) :
    Step me ((Call.changePassphrase p).keyPhase w) (σ.keyView w)
      ((Call.changePassphrase p').keyPhase w) (σ'.keyView w) := by
  obtain ⟨v, old, new, pos⟩ := p
  unfold next at h
  cases pos with
  | conn =>
    dsimp only at h
    split at h <;> cases h <;> exact keyStep_of_eq rfl
  | verify file =>
    dsimp only at h
    (repeat' split at h) <;> cases h <;> exact keyStep_of_eq rfl
  | «begin» =>
    obtain ⟨σ₁, hbegin, h⟩ := Option.map_eq_some_iff.mp h
    obtain ⟨-, rfl⟩ := Shared.beginMaintenance_eq_some hbegin
    cases h
    exact keyStep_of_eq rfl
  | stop s =>
    dsimp only at h
    split at h <;> cases h
    all_goals exact keyStep_on (fun _ => (StopAt.elsewhere ‹_›).step) fun _ => StopAt.elsewhere ‹_›
  | connAgain =>
    dsimp only at h
    split at h <;> cases h
    · exact keyStep_of_eq rfl
    · exact keyStep_on (fun _ => .rewrite) fun _ => .refl
  | write file =>
    dsimp only at h
    split at h
    · cases h
      refine keyStep_on ?_ .dropKeys
      rintro rfl
      rw [Shared.keyView_dropKeys]
      exact .rewriteDrop
    · split at h <;> cases h <;> exact keyStep_of_eq rfl
  | settle file r =>
    dsimp only at h
    split at h <;> cases h
    · refine keyStep_on ?_ .dropKeys
      rintro rfl
      rw [Shared.keyView_dropKeys]
      exact .rewriteDrop
    · exact keyStep_on (fun _ => .rewrote) fun _ => .refl
  | leave r =>
    cases h
    exact keyStep_of_eq rfl
  | returned r => cases h

/-! ## The refinement -/

theorem Call.keyStep {call call' : Call} (h : call.next me ch σ = some (call', σ')) :
    Step me (call.keyPhase w) (σ.keyView w) (call'.keyPhase w) (σ'.keyView w) := by
  cases call <;> obtain ⟨r, hr, h⟩ := Option.map_eq_some_iff.mp h <;> cases h
  case setDatabasePath p =>
    obtain ⟨path, hσ⟩ := SetDatabasePath.next_frame hr
    rw [hσ]
    exact keyStep_of_eq rfl
  case unlockWallet u => exact UnlockWallet.keyStep hr
  case lockWallet l => exact LockWallet.keyStep hr
  case forceLockWallet f => exact ForceLockWallet.keyStep hr
  case withWalletLocked m => exact WithWalletLocked.keyStep hr
  case changePassphrase p => exact ChangePassphrase.keyStep hr
  case abandonSend a =>
    obtain ⟨scans, tokens, maintenance, hσ⟩ := AbandonSend.next_frame hr
    rw [hσ]
    exact keyStep_of_eq rfl
  case scan s =>
    obtain ⟨files, scans, tokens, maintenance, hσ⟩ := Scan.next_frame hr
    rw [hσ]
    exact keyStep_of_eq rfl
  case stopScan s =>
    obtain ⟨scans, tokens, hσ, -⟩ := StopScan.next_frame hr
    rw [hσ]
    exact keyStep_of_eq rfl
  case createScanHandle s =>
    obtain ⟨issued, scanId, hσ⟩ := CreateScanHandle.next_frame hr
    rw [hσ]
    exact keyStep_of_eq rfl
  case sendTransaction s =>
    obtain ⟨files, network, hσ⟩ := SendTransaction.next_frame hr
    rw [hσ]
    exact keyStep_of_eq rfl
  case createWallet c =>
    obtain ⟨files, network, hσ⟩ := CreateWallet.next_frame hr
    rw [hσ]
    exact keyStep_of_eq rfl
  case getAddress c =>
    obtain ⟨files, network, hσ⟩ := GetAddress.next_frame hr
    rw [hσ]
    exact keyStep_of_eq rfl

theorem Call.keyPhase_of_starts {call : Call} (h : call.starts = true) :
    call.keyPhase w = .out := by
  cases call <;> simp only [Call.starts, decide_eq_true_eq] at h <;> simp only [Call.keyPhase]
  case unlockWallet u => simp [h, UnlockAt.keyPhase]
  case lockWallet l => simp [h, LockAt.keyPhase]
  case forceLockWallet f => simp [h, ForceAt.keyPhase, EverywhereAt.keyPhase]
  case withWalletLocked m => simp [h, WithLockedAt.keyPhase]
  case changePassphrase p => simp [h, ChangeAt.keyPhase]

/-- The bridge refines the key protocol of every wallet. -/
def keyHom (ok : Guard Shared Call) (w : WalletName) : System.Hom system ok KeyProtocol.protocol where
  shared := Shared.keyView w
  call := Call.keyPhase w
  init := by
    rintro σ ⟨files, tariCommon, rfl⟩
    rfl
  start h := Call.keyPhase_of_starts h
  step _ _ _ h := by
    obtain ⟨ch, h⟩ := h
    exact Call.keyStep h

end CwTariWallet
