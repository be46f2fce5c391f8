/-
# CwTariWallet.Bridge.Sessions -- a wallet is unlocked exactly while somebody counts it

What the counts, the gate and the key session of a wallet are worth to its callers, whatever the other
calls do in between: that a live session is a counted one (`session_agrees_with_count`), that an unlock
which succeeded had the right passphrase, and how long it lasts.
-/
import CwTariWallet.Bridge.Counts
import CwTariWallet.Bridge.KeySteps

namespace CwTariWallet

open Interleaving

variable {ok : Guard Shared Call} {s : World} {w : WalletName}

/-! ## Which calls a schedule holds -/

def Call.isChangePassphrase : Call → Bool
  | .changePassphrase _ => true
  | _ => false

/-- A step does not turn a call into another kind of call. -/
theorem Call.isChangePassphrase_next {me : CallId} {ch : Choice} {σ σ' : Shared}
    {call call' : Call} (h : call.next me ch σ = some (call', σ')) :
    call'.isChangePassphrase = call.isChangePassphrase := by
  cases call <;> obtain ⟨r, hr, h⟩ := Option.map_eq_some_iff.mp h <;> cases h <;> rfl

/-- Schedules without `change_passphrase`. -/
def noPassphraseChange : Guard Shared Call := only fun call => !call.isChangePassphrase

theorem isChangePassphrase_eq_false (h : system.Reach noPassphraseChange s) {c : CallId}
    {call : Call} (hc : s.calls c = some call) : call.isChangePassphrase = false := by
  refine h.outline (A := fun _ call _ => call.isChangePassphrase = false) ?_ ?_ ?_ hc
  · intro s c call _ hguard _
    simpa [noPassphraseChange, only, startsOnly] using hguard
  · rintro s c call call' σ' _ _ _ hA ⟨ch, hstep⟩
    rw [Call.isChangePassphrase_next hstep]
    exact hA
  · intro s c call call' σ' d m _ _ _ _ _ _ _ hB
    exact hB

/-! ## Where the phases of the key protocol come from -/

/-- A call with its gate step (`lock_session_unless_held`) of `w` still ahead. -/
def Call.gateStepAhead (w : WalletName) : Call → Bool
  | .lockWallet l => l.walletName = w && match l.pos with
    | .gate _ .wait => true
    | _ => false
  | .forceLockWallet f => f.walletName = w && match f.pos with
    | .everywhere (.gate _ .wait) => true
    | _ => false
  | .withWalletLocked m => m.walletName = w && match m.pos with
    | .lockBefore _ (.gate _ .wait) | .lockAfter (.gate _ .wait) _ => true
    | _ => false
  | _ => false

theorem GateAt.eq_wait_of_owes {g : GateAt} (h : g.keyPhase = .owes) : g = .wait := by
  cases g with
  | wait => rfl
  | held h' => cases h' <;> cases h
  | leave _ => cases h

theorem EverywhereAt.eq_wait_of_owes (before : KeyProtocol.Phase) (hbefore : before ≠ .owes)
    {e : EverywhereAt} (h : e.keyPhase before = .owes) : ∃ file, e = .gate file .wait := by
  cases e with
  | remove => exact absurd h hbefore
  | gate file g => exact ⟨file, by rw [GateAt.eq_wait_of_owes h]⟩
  | stop _ => cases h

theorem UnlockAt.keyPhase_ne_owes (p : UnlockAt) : p.keyPhase ≠ .owes := by
  cases p with
  | lockHeld h _ _ => cases h <;> exact nofun
  | leave _ r => cases r <;> exact nofun
  | returned g r => cases g <;> cases r <;> exact nofun
  | _ => exact nofun

theorem Call.gateStepAhead_of_owes {call : Call} (h : call.keyPhase w = .owes) :
    call.gateStepAhead w = true := by
  cases call <;> simp only [Call.keyPhase, ite_eq_iff, reduceCtorEq, and_false, or_false] at h
  case unlockWallet u => exact absurd h.2 u.pos.keyPhase_ne_owes
  case lockWallet l =>
    obtain ⟨v, holder, pos⟩ := l
    obtain ⟨rfl, h⟩ := h
    cases pos with
    | gate file g => simp [gateStepAhead, GateAt.eq_wait_of_owes h]
    | _ => cases h
  case forceLockWallet f =>
    obtain ⟨v, pos⟩ := f
    obtain ⟨rfl, h⟩ := h
    cases pos with
    | everywhere e =>
      obtain ⟨file, rfl⟩ := EverywhereAt.eq_wait_of_owes .out (by decide) h
      simp [gateStepAhead]
    | returned => cases h
  case withWalletLocked m =>
    obtain ⟨v, change, pos⟩ := m
    obtain ⟨rfl, h⟩ := h
    cases pos with
    | lockBefore file' e =>
      obtain ⟨file, rfl⟩ := EverywhereAt.eq_wait_of_owes .out (by decide) h
      simp [gateStepAhead]
    | lockAfter e r =>
      obtain ⟨file, rfl⟩ := EverywhereAt.eq_wait_of_owes .written (by decide) h
      simp [gateStepAhead]
    | _ => cases h
  case changePassphrase p =>
    obtain ⟨v, old, new, pos⟩ := p
    obtain ⟨rfl, h⟩ := h
    cases pos <;> cases h

/-- A call that has returned owes the wallet nothing. -/
theorem Call.keyPhase_of_returned {call : Call} (h : call.returned = true) :
    call.keyPhase w = .out ∨ ∃ g, call.keyPhase w = .holder g := by
  cases call <;> simp only [Call.keyPhase, true_or]
  case unlockWallet u =>
    obtain ⟨path, v, passphrase, pos⟩ := u
    cases pos with
    | returned g r =>
      by_cases hv : v = w
      · cases g <;> cases r <;> simp [hv, UnlockAt.keyPhase]
      · simp [hv]
    | _ => cases h
  case lockWallet l =>
    obtain ⟨v, holder, pos⟩ := l
    cases pos <;> simp [returned, LockAt.keyPhase] at h ⊢
  case forceLockWallet f =>
    obtain ⟨v, pos⟩ := f
    cases pos <;> simp [returned, ForceAt.keyPhase] at h ⊢
  case withWalletLocked m =>
    obtain ⟨v, change, pos⟩ := m
    cases pos <;> simp [returned, WithLockedAt.keyPhase] at h ⊢
  case changePassphrase p =>
    obtain ⟨v, old, new, pos⟩ := p
    cases pos <;> simp [returned, ChangeAt.keyPhase] at h ⊢

@[simp]
theorem GateAt.not_maintains (g : GateAt) : g.keyPhase.maintains = false := by
  cases g with
  | held h => cases h <;> rfl
  | _ => rfl

@[simp]
theorem UnlockAt.not_maintains (p : UnlockAt) : p.keyPhase.maintains = false := by
  cases p with
  | lockHeld h _ _ => cases h <;> rfl
  | leave _ r => cases r <;> rfl
  | returned g r => cases g <;> cases r <;> rfl
  | _ => rfl

@[simp]
theorem LockAt.not_maintains (p : LockAt) : p.keyPhase.maintains = false := by
  cases p <;> simp [keyPhase]

@[simp]
theorem ForceAt.not_maintains (p : ForceAt) : p.keyPhase.maintains = false := by
  cases p with
  | everywhere e => cases e <;> simp [keyPhase, EverywhereAt.keyPhase]
  | returned => rfl

/-- Only a delete or rename of the wallet, or a change of its passphrase, changes the account. -/
theorem Call.of_maintains {call : Call} (h : (call.keyPhase w).maintains = true) :
    (∃ m, call = .withWalletLocked m ∧ m.walletName = w) ∨ ∃ p, call = .changePassphrase p := by
  cases call <;>
    simp only [Call.keyPhase, apply_ite KeyProtocol.Phase.maintains, UnlockAt.not_maintains,
      LockAt.not_maintains, ForceAt.not_maintains, KeyProtocol.Phase.maintains_out, ite_self,
      Bool.false_eq_true] at h
  case withWalletLocked m =>
    refine Or.inl ⟨m, rfl, ?_⟩
    by_contra hw
    simp [hw] at h
  case changePassphrase p => exact Or.inr ⟨p, rfl⟩

/-- `change_passphrase` is the one that rewrites. -/
theorem Call.of_rewriting {call : Call} (h : call.keyPhase w = .rewriting) :
    ∃ p, call = .changePassphrase p := by
  have hmaintains : (call.keyPhase w).maintains = true := by
    rw [h]
    rfl
  rcases Call.of_maintains hmaintains with ⟨m, rfl, rfl⟩ | hp
  · obtain ⟨v, change, pos⟩ := m
    simp only [Call.keyPhase, if_true] at h
    cases pos with
    | lockBefore _ e | lockAfter e _ =>
      have hg (g : GateAt) : g.keyPhase ≠ .rewriting := fun hg => by
        simpa [hg, KeyProtocol.Phase.maintains] using g.not_maintains
      cases e <;> first | exact absurd h (hg _) | cases h
    | _ => cases h
  · exact hp

/-- Only a delete or rename of the wallet that is in progress may have dropped its session. -/
theorem Call.of_drops {call : Call} (h : (call.keyPhase w).drops = true) :
    ∃ m, call = .withWalletLocked m ∧ m.walletName = w ∧ call.returned = false := by
  rcases Call.of_maintains (KeyProtocol.Phase.maintains_of_drops h) with ⟨m, rfl, hw⟩ | ⟨p, rfl⟩
  · refine ⟨m, rfl, hw, ?_⟩
    rw [Bool.eq_false_iff]
    intro hret
    rcases Call.keyPhase_of_returned (w := w) hret with hout | ⟨g, hholder⟩
    · simp [hout, KeyProtocol.Phase.drops] at h
    · simp [hholder, KeyProtocol.Phase.drops] at h
  · obtain ⟨v, old, new, pos⟩ := p
    by_cases hv : v = w
    · cases pos <;> simp [Call.keyPhase, hv, ChangeAt.keyPhase, KeyProtocol.Phase.drops] at h
    · simp [Call.keyPhase, hv, KeyProtocol.Phase.drops] at h

/-! ## Session and count agree -/

/-- No delete or rename of `w` is in progress. -/
def World.NotDeleting (s : World) (w : WalletName) : Prop :=
  ∀ c m, s.calls c = some (.withWalletLocked m) → m.walletName = w →
    (Call.withWalletLocked m).returned = true

/-- A session nobody counts is the business of a call that is on its way to lock it. -/
theorem live_counted_or_owed (h : system.Reach ok s) (hlive : (s.shared.keys w).isSome = true) :
    (s.shared.db.sessions.lookup w).isSome = true ∨ ∃ c call, s.calls c = some call ∧
      call.returned = false ∧ (s.shared.gates w = some c ∨ call.gateStepAhead w = true) := by
  cases hentry : s.shared.db.sessions.lookup w with
  | some session => exact Or.inl rfl
  | none =>
    right
    have hT := (keyHom ok w).reach_any h
    obtain ⟨c, p, hc, hp⟩ := KeyProtocol.live_answered hT hlive
      (DbState.generation_eq_none.mpr hentry)
    obtain ⟨call, hcall, rfl⟩ := Option.map_eq_some_iff.mp hc
    have hreturned : call.returned = false := by
      rw [Bool.eq_false_iff]
      intro hret
      rcases Call.keyPhase_of_returned (w := w) hret with hout | ⟨g, hholder⟩
      · simp [keyHom, hout, KeyProtocol.Phase.answers] at hp
      · simp [keyHom, hholder, KeyProtocol.Phase.answers] at hp
    refine ⟨c, call, hcall, hreturned, ?_⟩
    by_cases howes : call.keyPhase w = .owes
    · exact Or.inr (Call.gateStepAhead_of_owes howes)
    · left
      refine KeyProtocol.gate_holder hT hc ?_
      revert hp howes
      simp only [keyHom]
      cases call.keyPhase w <;> simp [KeyProtocol.Phase.answers, KeyProtocol.Phase.holdsGate]

/-- The session of an unlock that returned `Ok` is live while the wallet's entry is of its
generation. -/
theorem holder_live (h : system.Reach noPassphraseChange s) {c : CallId} {u : UnlockWallet} {g : Nat}
    (hc : s.calls c = some (.unlockWallet u)) (hw : u.walletName = w)
    (hpos : u.pos = .returned (some g) (.ok ())) (hg : s.shared.db.generation w = some g)
    (hdelete : s.NotDeleting w) : (s.shared.keys w).isSome = true := by
  have hT : KeyProtocol.protocol.Reach (fun _ t => ∀ c, t.calls c ≠ some .rewriting)
      ((keyHom noPassphraseChange w).config s) := by
    refine (keyHom noPassphraseChange w).reach ?_ h
    intro e t ht _ d hd
    obtain ⟨call, hcall, hphase⟩ := Option.map_eq_some_iff.mp hd
    obtain ⟨p, rfl⟩ := Call.of_rewriting hphase
    cases isChangePassphrase_eq_false ht hcall
  have hholder : ((keyHom noPassphraseChange w).config s).calls c = some (.holder g) := by
    simp [System.Hom.config_calls, hc, keyHom, Call.keyPhase, hw, hpos, UnlockAt.keyPhase]
  rcases KeyProtocol.vouched_live hT (fun _ _ h => h) hholder rfl hg with hlive | ⟨d, q, hd, hq⟩
  · exact hlive
  · obtain ⟨call, hcall, rfl⟩ := Option.map_eq_some_iff.mp hd
    obtain ⟨m, rfl, hm, hret⟩ := Call.of_drops hq
    rw [hdelete d m hcall hm] at hret
    cases hret

/-- Key session and open count agree.  A live session is a counted one, or the business of a call that
holds the wallet's gate or has its gate step ahead; the session of an unlock that returned `Ok` into
the wallet's present entry is live, unless a delete or rename has the wallet; and when no call is in
flight a session is live exactly for the counted wallets. -/
theorem session_agrees_with_count (h : system.Reach noPassphraseChange s) (w : WalletName) :
    ((s.shared.keys w).isSome = true →
      (s.shared.db.sessions.lookup w).isSome = true ∨ ∃ c call, s.calls c = some call ∧
        call.returned = false ∧ (s.shared.gates w = some c ∨ call.gateStepAhead w = true)) ∧
    (∀ session c u, s.shared.db.sessions.lookup w = some session →
      s.calls c = some (.unlockWallet u) → u.walletName = w →
      u.pos = .returned (some session.generation) (.ok ()) → s.NotDeleting w →
      (s.shared.keys w).isSome = true) ∧
    (s.Quiet → ((s.shared.keys w).isSome = true ↔
      (s.shared.db.sessions.lookup w).isSome = true)) := by
  refine ⟨live_counted_or_owed h, ?_, fun hquiet => ⟨fun hlive => ?_, fun hentry => ?_⟩⟩
  · intro session c u hs hc hw hpos hdelete
    exact holder_live h hc hw hpos (generation_of_lookup hs) hdelete
  · rcases live_counted_or_owed h hlive with hentry | ⟨c, call, hc, hret, -⟩
    · exact hentry
    · rw [hquiet c call hc] at hret
      cases hret
  · -- Somebody stands behind the entry, and by now has returned `Ok`.
    obtain ⟨session, hs⟩ := Option.isSome_iff_exists.mp hentry
    obtain ⟨c, u, hc, hw, hg, hgave⟩ := exists_standing h hs
    have hret := hquiet c _ hc
    obtain ⟨path, v, passphrase, pos⟩ := u
    cases pos with
    | returned g r =>
      obtain rfl : g = some session.generation := hg
      cases r with
      | ok _ => exact holder_live h hc hw rfl (generation_of_lookup hs) fun d m hd _ => hquiet d _ hd
      | error e => exact absurd rfl hgave
    | _ => cases hret

/-- The lock has counted "main" down to nothing, and its gate step is ahead. -/
def lockAhead : Option World :=
  (replayOnly 4 fun call => !call.isChangePassphrase).exec fresh
    (unlocks 0 firstPath ++ .start 1 (.lockWallet ⟨"main", none, .release⟩) :: go 1 1)

/-- Meanwhile "main" was unlocked anew, and somebody with a wrong passphrase waits at its gate. -/
def unlockedMeanwhile (s : World) : Option World :=
  (replayOnly 4 fun call => !call.isChangePassphrase).exec s
    (unlocks 2 firstPath ++ go 2 1 ++ .start 3 (.unlockWallet ⟨firstPath, "main", "wrong", .count⟩) :: go 3 1)

/-- An unlock of "main" that returned `Ok` into this generation. -/
def Call.unlockedMain (generation : Nat) : Call → Bool
  | .unlockWallet ⟨_, walletName, _, .returned (some g) (.ok _)⟩ => walletName = "main" && g = generation
  | _ => false

theorem Call.of_unlockedMain {call : Call} {generation : Nat} (h : call.unlockedMain generation = true) :
    ∃ u, call = .unlockWallet u ∧ u.walletName = "main" ∧ u.pos = .returned (some generation) (.ok ()) := by
  unfold unlockedMain at h
  split at h
  · rw [Bool.and_eq_true, decide_eq_true_eq, decide_eq_true_eq] at h
    obtain ⟨rfl, rfl⟩ := h
    exact ⟨_, rfl, rfl, rfl⟩
  · cases h

def Call.locksOrUnlocks : Call → Bool
  | .unlockWallet _ | .lockWallet _ => true
  | _ => false

/-- First the session is the lock's business, then it is that of the unlock in between. -/
theorem session_agrees_with_count_unlockedMeanwhile :
    ∃ s t, lockAhead = some s ∧ unlockedMeanwhile s = some t ∧
      (∃ c call, s.calls c = some call ∧ call.returned = false ∧
        (s.shared.gates "main" = some c ∨ call.gateStepAhead "main" = true)) ∧
      (t.calls 1).any (Call.gateStepAhead "main") = true ∧ (t.shared.keys "main").isSome = true := by
  obtain ⟨s, hs⟩ := Option.isSome_iff_exists.mp (by decide : lockAhead.isSome = true)
  obtain ⟨t, ht⟩ := Option.isSome_iff_exists.mp (by decide : (lockAhead.bind unlockedMeanwhile).isSome = true)
  have before : lockAhead.map (fun s => ((s.shared.keys "main").isSome,
      (s.shared.db.sessions.lookup "main").isSome)) = some (true, false) := by decide
  have after : (lockAhead.bind unlockedMeanwhile).map (fun t =>
      ((t.shared.db.sessions.lookup "main").map (·.generation), (t.calls 1).any (Call.gateStepAhead "main"),
        (t.calls 2).any (Call.unlockedMain 1), t.allBelow 4 Call.locksOrUnlocks)) =
      some (some 1, true, true, true) := by decide
  rw [hs, Option.bind_some] at ht after
  simp only [hs, ht, Option.map_some, Option.some.injEq, Prod.mk.injEq] at before after
  obtain ⟨hlive, hnone⟩ := before
  obtain ⟨hlookup, hahead, hunlocked, hall⟩ := after
  obtain ⟨session, hsession, hgeneration⟩ := Option.map_eq_some_iff.mp hlookup
  obtain ⟨call, hcall, hmain⟩ := (Option.any_eq_true ..).mp hunlocked
  obtain ⟨u, rfl, hw, hpos⟩ := Call.of_unlockedMain hmain
  have hR : (replayOnly 4 fun call => !call.isChangePassphrase).Sound system noPassphraseChange :=
    replayOnly_sound
  obtain ⟨hwithin, -⟩ := hR.steps (fun _ _ => rfl) hs
  obtain ⟨hwithin', hsteps⟩ := hR.steps hwithin ht
  have hreach : system.Reach noPassphraseChange s := hR.reach fresh_init hs
  have hreach' : system.Reach noPassphraseChange t := hreach.steps (fun _ _ h => h) hsteps
  have hdeleting : t.NotDeleting "main" := by
    intro c m hc
    have hnot := hwithin'.of_allBelow hall hc
    cases hnot
  refine ⟨s, t, hs, ht, ?_, hahead, ?_⟩
  · rcases (session_agrees_with_count hreach "main").1 hlive with hentry | howed
    · rw [hnone] at hentry
      cases hentry
    · exact howed
  · rw [← hgeneration] at hpos
    exact (session_agrees_with_count hreach' "main").2.1 session 2 u hsession hcall hw hpos hdeleting

/-! ## No unlock without the passphrase -/

/-- Whether an `unlock_wallet` is on `path`. -/
def Call.unlocksOn (path : PathBuf) : Call → Bool
  | .unlockWallet u => u.path = path
  | _ => true

theorem unlock_path {path : PathBuf} (h : system.Reach (only (Call.unlocksOn path)) s) {c : CallId}
    {u : UnlockWallet} (hc : s.calls c = some (.unlockWallet u)) : u.path = path := by
  refine h.outline (A := fun _ call _ => ∀ u, call = .unlockWallet u → u.path = path)
    ?_ ?_ ?_ hc u rfl
  · rintro s c call _ hguard _ u rfl
    simpa [only, startsOnly, Call.unlocksOn] using hguard
  · rintro s c call call' σ' _ _ _ hA ⟨ch, hstep⟩ u' rfl
    obtain ⟨u, rfl, hnext⟩ := Call.of_next_unlockWallet hstep
    rw [(UnlockWallet.next_same hnext).1]
    exact hA u rfl
  · intro s c call call' σ' d m _ _ _ _ _ _ _ hB
    exact hB

/-- On one database file every session was made from that file. -/
theorem session_file {path : PathBuf} (h : system.Reach (only (Call.unlocksOn path)) s) :
    ∀ w k, s.shared.keys w = some k → k.file = path := by
  refine h.invariant (I := fun s => ∀ w k, s.shared.keys w = some k → k.file = path) ?_ ?_ ?_
  · rintro σ ⟨files, tariCommon, rfl⟩ w k hk
    cases hk
  · intro s c call _ ih _ _ _
    exact ih
  · rintro s c call call' σ' hs ih _ hc ⟨ch, hstep⟩ w k hk
    rcases (Call.keysStep hstep).origin hk with hold | ⟨u, g, _, _, rfl, -, -, rfl, -⟩
    · exact ih w k hold
    · exact unlock_path hs hc

/-- An unlock that comes to call `session::unlock` has just asked for a session in vain. -/
theorem UnlockWallet.unlocked_of_next {me : CallId} {ch : Choice} {σ σ' : Shared}
    {u u' : UnlockWallet} {g : Nat} (h : u.next me ch σ = some (u', σ'))
    (hpos : u'.pos = .unlock g) :
    σ.keys.isUnlocked u.path u.walletName ch.foreign = false ∧ u' = u.to (.unlock g) ∧ σ' = σ := by
  have seen {w : WalletName} {file : PathBuf} (hun : σ.isUnlocked file w ch = .ok false) :
      σ.keys.isUnlocked file w ch.foreign = false := by
    unfold Shared.isUnlocked at hun
    split at hun
    · cases hun
    · exact Except.ok.inj hun
  obtain ⟨path, v, passphrase, pos⟩ := u
  unfold next at h
  cases pos with
  | gate g' =>
    obtain ⟨σ₁, -, h⟩ := Option.map_eq_some_iff.mp h
    cases h
    cases hpos
  | _ =>
    dsimp only at h
    (repeat' split at h) <;> cases h <;> cases hpos <;> exact ⟨seen ‹_›, rfl, rfl⟩

/-- An unlock about to call `session::unlock` has just seen that there is no session, and keeps the
gate against everybody who could store one. -/
theorem no_session_at_unlock {path : PathBuf} (h : system.Reach (only (Call.unlocksOn path)) s)
    {c : CallId} {u : UnlockWallet} {g : Nat} (hc : s.calls c = some (.unlockWallet u))
    (hpos : u.pos = .unlock g) : s.shared.keys u.walletName = none := by
  refine h.outline (A := fun _ call σ => ∀ u g, call = .unlockWallet u → u.pos = .unlock g →
    σ.keys u.walletName = none) ?_ ?_ ?_ hc u g rfl hpos
  · rintro s c call _ _ hstart u g rfl hpos
    simp only [system, Call.starts, decide_eq_true_eq] at hstart
    rw [hpos] at hstart
    cases hstart
  · rintro s c call call' σ' hs _ hc hA ⟨ch, hstep⟩ u' g rfl hpos
    obtain ⟨u, rfl, hnext⟩ := Call.of_next_unlockWallet hstep
    obtain ⟨hseen, rfl, rfl⟩ := UnlockWallet.unlocked_of_next hnext hpos
    cases hk : s.shared.keys u.walletName with
    | none => exact hk
    | some k =>
      -- A session would be of this file, and minotari would have seen it.
      have hfile : k.file = u.path := (session_file hs _ k hk).trans (unlock_path hs hc).symm
      rw [KeySessions.isUnlocked_own hk hfile] at hseen
      cases hseen
  · rintro s c call call' σ' d m hs _ hc _ ⟨ch, hstep⟩ hne hd hB u g rfl hpos
    exact no_session_kept hs hd (by simp [Call.keyPhase, hpos, UnlockAt.keyPhase,
      KeyProtocol.Phase.holdsGate]) hc hstep hne (hB u g rfl hpos)

/-- Where an `unlock_wallet` has its passphrase verified. -/
def UnlockAt.verified : UnlockAt → Bool
  | .isUnlockedAgain _ | .confirm _ | .leave _ (.ok _) | .returned _ (.ok _) => true
  | _ => false

/-- The account `u` names exists in its file and opens with `u`'s passphrase. -/
def Shared.Opens (σ : Shared) (u : UnlockWallet) : Prop :=
  ∃ account, (σ.files u.path).getAccountByName u.walletName = some account ∧
    account.passphrase = u.passphrase

/-- An unlock whose passphrase is verified had it verified before, has it verified now, or finds a
session at `session::unlock`. -/
theorem UnlockWallet.next_verified {me : CallId} {ch : Choice} {σ σ' : Shared}
    {u u' : UnlockWallet} (h : u.next me ch σ = some (u', σ')) (hv : u'.pos.verified = true) :
    u.pos.verified = true ∨ σ.Opens u ∨ ∃ g, u.pos = .unlock g ∧
      σ.keys.isUnlocked u.path u.walletName ch.foreign = true := by
  obtain ⟨path, v, passphrase, pos⟩ := u
  unfold next at h
  cases pos with
  | gate g =>
    obtain ⟨σ₁, -, h⟩ := Option.map_eq_some_iff.mp h
    cases h
    cases hv
  | verify g =>
    dsimp only at h
    (repeat' split at h) <;> cases h
    · cases hv
    · cases hv
    · cases hv
    · exact Or.inr (Or.inl ⟨_, ‹_›, AccountRow.verifyPassphrase_eq_ok.mp ‹_›⟩)
  | unlock g =>
    dsimp only at h
    split at h
    · cases h
      cases hv
    · split at h <;> cases h
      · cases hv
      · rename_i keys hkeys
        rcases KeySessions.unlock_ok hkeys with ⟨hun, -⟩ | ⟨-, -, hopens⟩
        · exact Or.inr (Or.inr ⟨g, rfl, hun⟩)
        · exact Or.inr (Or.inl hopens)
  | leave g r =>
    cases h
    cases r with
    | ok _ => exact Or.inl rfl
    | error e => cases hv
  | confirm g => exact Or.inl rfl
  | isUnlockedAgain g => exact Or.inl rfl
  | _ =>
    dsimp only at h
    (repeat' split at h) <;> cases h <;> cases hv

/-- In some configuration of `past` call `c` was in progress and its passphrase was the stored one. -/
def OpenedDuring (past : List World) (c : CallId) (u : UnlockWallet) : Prop :=
  ∃ t ∈ past, (∃ u', t.calls c = some (.unlockWallet u') ∧
    (Call.unlockWallet u').returned = false) ∧ t.shared.Opens u

theorem verified_opened {path : PathBuf} {past : List World}
    (h : system.Run (only (Call.unlocksOn path)) (s :: past)) {c : CallId} {u : UnlockWallet}
    (hc : s.calls c = some (.unlockWallet u)) (hv : u.pos.verified = true) :
    OpenedDuring past c u := by
  generalize hrun : s :: past = run at h
  induction h generalizing s past u with
  | init hσ =>
    obtain ⟨rfl, -⟩ := List.cons.inj hrun
    cases hc
  | @move e t t' past' ht hguard hmove ih =>
    obtain ⟨rfl, rfl⟩ := List.cons.inj hrun
    have hreach := ht.reach
    have before {u : UnlockWallet} (hc : t.calls c = some (.unlockWallet u))
        (hv : u.pos.verified = true) : OpenedDuring (t :: past') c u := by
      obtain ⟨r, hr, hopened⟩ := ih hc hv rfl
      exact ⟨r, List.mem_cons_of_mem _ hr, hopened⟩
    cases hmove with
    | start hfree hstart =>
      rcases Config.put_calls_eq_some hc with ⟨rfl, rfl⟩ | ⟨-, hc⟩
      · simp only [system, Call.starts, decide_eq_true_eq] at hstart
        rw [hstart] at hv
        cases hv
      · exact before hc hv
    | step hm hst =>
      obtain ⟨ch, hstep⟩ := hst
      rcases Config.put_calls_eq_some hc with ⟨rfl, rfl⟩ | ⟨-, hc⟩
      · obtain ⟨u₀, rfl, hnext⟩ := Call.of_next_unlockWallet hstep
        obtain ⟨hpath, hname, hpass, -⟩ := UnlockWallet.next_same hnext
        have hsame (σ : Shared) : σ.Opens u₀ → σ.Opens u := by
          simp only [Shared.Opens, hpath, hname, hpass, imp_self]
        have hflying : (Call.unlockWallet u₀).returned = false := by
          rw [Bool.eq_false_iff]
          intro hret
          rw [Call.next_of_returned hret] at hstep
          cases hstep
        rcases UnlockWallet.next_verified hnext hv with hv₀ | hopens | ⟨g, hpos, hseen⟩
        · obtain ⟨r, hr, hprogress, hopens⟩ := before hm hv₀
          exact ⟨r, hr, hprogress, hsame _ hopens⟩
        · exact ⟨t, List.mem_cons_self, ⟨u₀, hm, hflying⟩, hsame _ hopens⟩
        · rw [KeySessions.isUnlocked_none (no_session_at_unlock hreach hm hpos)] at hseen
          cases hseen
      · exact before hc hv

/-- An `unlock_wallet` on the one database file returns `Ok` only if its passphrase was the stored one
of the account it names at some instant of the call. -/
theorem unlock_needs_passphrase {path : PathBuf} {past : List World}
    (h : system.Run (only (Call.unlocksOn path)) (s :: past)) {c : CallId} {u : UnlockWallet}
    {g : Option Nat} (hc : s.calls c = some (.unlockWallet u)) (hpos : u.pos = .returned g (.ok ())) :
    ∃ t ∈ past, (∃ u', t.calls c = some (.unlockWallet u') ∧
        (Call.unlockWallet u').returned = false) ∧
      ∃ account, (t.shared.files u.path).getAccountByName u.walletName = some account ∧
        account.passphrase = u.passphrase :=
  verified_opened h hc (by rw [hpos]; rfl)

/-- A second unlock that shares the session of the first. -/
def unlockedTwice : Option World :=
  (replayOnly 2 (Call.unlocksOn firstPath)).exec fresh (unlocks 0 firstPath ++
    .start 1 (.unlockWallet ⟨firstPath, "main", "secret", .count⟩) :: go 1 7)

theorem unlock_needs_passphrase_unlockedTwice :
    ∃ (s : World) (past : List World), unlockedTwice = some s ∧ ∃ t ∈ past, (∃ u',
        t.calls 1 = some (.unlockWallet u') ∧ (Call.unlockWallet u').returned = false) ∧
      ∃ account, (t.shared.files firstPath).getAccountByName "main" = some account ∧
        account.passphrase = "secret" := by
  obtain ⟨s, hs⟩ := Option.isSome_iff_exists.mp (by decide : unlockedTwice.isSome = true)
  have hc : s.calls 1 =
      some (.unlockWallet ⟨firstPath, "main", "secret", .returned (some 0) (.ok ())⟩) := by
    have h : (unlockedTwice.map fun s => s.calls 1) =
        some (some (.unlockWallet ⟨firstPath, "main", "secret", .returned (some 0) (.ok ())⟩)) := by
      decide
    simpa [hs] using h
  obtain ⟨past, hrun⟩ := (replayOnly_sound.reach fresh_init hs).run
  exact ⟨s, past, hs, unlock_needs_passphrase hrun hc rfl⟩

end CwTariWallet
