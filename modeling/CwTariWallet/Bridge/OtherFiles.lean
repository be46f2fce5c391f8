/-
# CwTariWallet.Bridge.OtherFiles -- a lock, and another file with a wallet of that name

The pool closes as soon as the last count is gone, and the gate step that locks the session comes later.  In
between another file can be opened and a wallet of the same name counted there; the gate step then looks for
a holder by name, finds that one, and leaves the old file's session and scans to it (`not_locked_elsewhere`).
As long as no gate step is answered so, and no unlock overtakes one, whatever was made from a file is gone
from every other file's unlocks (`locked_elsewhere`).
-/
import CwTariWallet.Bridge.Ledger
import CwTariWallet.Bridge.LockedScans

namespace CwTariWallet

open Interleaving

variable {ok : Guard Shared Call} {s : World} {w : WalletName} {F : PathBuf} {c : CallId}
variable {me : CallId} {ch : Choice} {σ σ' : Shared} {call call' : Call}

/-! ## The file a wallet is counted on -/

theorem Shared.entryFile_eq_some : σ.entryFile w = some F ↔
    (σ.db.sessions.lookup w).isSome = true ∧ σ.db.openDatabase = some ⟨F⟩ := by
  unfold entryFile
  split
  · rename_i hentry
    simp only [hentry, true_and, Option.map_eq_some_iff]
    constructor
    · rintro ⟨⟨path⟩, hopen, rfl⟩
      exact hopen
    · intro hopen
      exact ⟨_, hopen, rfl⟩
  · rename_i hentry
    simp [hentry]

/-- A wallet that is counted before a step and after it is counted on the same file. -/
theorem DbStep.entryFile_eq (h : DbStep me call σ call' σ') (hdb : σ.db.Coherent)
    (hbefore : σ.entryFile w = some F) (hafter : (σ'.db.sessions.lookup w).isSome = true) :
    σ'.entryFile w = some F := by
  obtain ⟨hentry, hopen⟩ := Shared.entryFile_eq_some.mp hbefore
  have nonempty {db : DbState} (hw : (db.sessions.lookup w).isSome = true) :
      Table.isEmpty db.sessions = false := by
    obtain ⟨session, hs⟩ := Option.isSome_iff_exists.mp hw
    exact (Table.isEmpty_eq_false_iff _).mpr ⟨w, session, hs⟩
  have hsame := h.openDatabase_eq hdb (nonempty hentry) (nonempty hafter)
  exact Shared.entryFile_eq_some.mpr ⟨hafter, hsame.trans hopen⟩

/-- An unlock that is still counted is counted on its own file. -/
theorem counted_file (h : system.Reach ok s) {u : UnlockWallet} {g : Nat}
    (hc : s.calls c = some (.unlockWallet u)) (hpos : u.pos.generation = some g)
    (hg : s.shared.db.generation u.walletName = some g) :
    s.shared.entryFile u.walletName = some u.path := by
  have entry {db : DbState} {w : WalletName} {g : Nat} (hg : db.generation w = some g) :
      (db.sessions.lookup w).isSome = true := by
    obtain ⟨session, hs, -⟩ := Option.map_eq_some_iff.mp hg
    rw [hs]
    rfl
  -- an entry of the unlock's generation was there before the step, so it is on the file it was on
  have kept {s : World} {m c : CallId} {l l' : Call} {σ' : Shared} {u : UnlockWallet} {g : Nat}
      (hs : system.Reach ok s) (hc : s.calls c = some (.unlockWallet u)) (hpos : u.pos.generation = some g)
      (hdb : DbStep m l s.shared l' σ') (hg : σ'.db.generation u.walletName = some g)
      (hA : s.shared.db.generation u.walletName = some g →
        s.shared.entryFile u.walletName = some u.path) : σ'.entryFile u.walletName = some u.path := by
    rcases hdb.generation_origin hg with hold | ⟨-, rfl, -⟩
    · exact hdb.entryFile_eq (db_coherent hs) (hA hold) (entry hg)
    · exact absurd (unlock_generation_lt hs hc hpos) (Nat.lt_irrefl _)
  refine h.outline (A := fun _ call σ => ∀ u g, call = .unlockWallet u → u.pos.generation = some g →
    σ.db.generation u.walletName = some g → σ.entryFile u.walletName = some u.path) ?_ ?_ ?_ hc u g rfl hpos hg
  · rintro s c call _ _ hstart u g rfl hpos
    simp only [system, Call.starts, decide_eq_true_eq] at hstart
    rw [hstart] at hpos
    cases hpos
  · rintro s c call call' σ' hs _ hc hA ⟨ch, hstep⟩ u' g rfl hpos hg
    obtain ⟨u, rfl, hnext⟩ := Call.of_next_unlockWallet hstep
    obtain ⟨hpath, hname, -, -⟩ := UnlockWallet.next_same hnext
    rw [hname] at hg ⊢
    rw [hpath]
    rcases UnlockWallet.next_generation hnext hpos with hold | ⟨-, -, hcount⟩
    · exact kept hs hc hold (Call.dbStep hstep) hg (hA u g rfl hold)
    · have hentry := entry hg
      obtain ⟨db, files, rfl, hacq, -⟩ := Shared.count_ok hcount
      obtain ⟨-, rfl⟩ := Prod.mk.inj hacq
      exact Shared.entryFile_eq_some.mpr ⟨hentry, rfl⟩
  · rintro s c call call' σ' d m hs _ _ _ ⟨ch, hstep⟩ _ hd hA u g rfl hpos hg
    exact kept hs hd hpos (Call.dbStep hstep) hg (hA u g rfl hpos)

/-! ## The gate step of a file -/

/-- The gate step of `w` a call is in, with the file its step in `DB_STATE` was on. -/
def Call.gateStep (w : WalletName) : Call → Option (Option PathBuf × GateAt)
  | .lockWallet l =>
    if l.walletName = w then
      match l.pos with
      | .gate file g => some (file, g)
      | _ => none
    else none
  | .forceLockWallet f =>
    if f.walletName = w then
      match f.pos with
      | .everywhere (.gate file g) => some (file, g)
      | _ => none
    else none
  | .withWalletLocked m =>
    if m.walletName = w then
      match m.pos with
      | .lockBefore _ (.gate file g) | .lockAfter (.gate file g) _ => some (file, g)
      | _ => none
    else none
  | .unlockWallet u =>
    if u.walletName = w then
      match u.pos with
      | .lockHeld h _ _ => some (some u.path, .held h)
      | _ => none
    else none
  | _ => none

/-- A gate step that has not answered. -/
def GateAt.undecided : GateAt → Bool
  | .leave _ => false
  | _ => true

/-- What a gate step does next. -/
inductive GateNext (w : WalletName) (σ σ' : Shared) : GateAt → GateAt → Prop
  | entered : GateNext w σ σ' .wait (.held .readState)
  /-- There is a holder: the session stays. -/
  | found {locked} : (σ.db.sessions.lookup w).isSome = true → σ' = σ →
      GateNext w σ σ' (.held .readState) (.leave locked)
  | free : GateNext w σ σ' (.held .readState) (.held .lockSession)
  | locked : GateNext w σ σ' (.held .lockSession) (.held .cancelScans)
  | cancelled {locked} : SameScans (σ.cancelWalletScans w).2 σ' → σ'.keys = σ.keys →
      GateNext w σ σ' (.held .cancelScans) (.leave locked)

theorem GateHeldAt.gateNext {h h' : GateHeldAt} (hnext : h.next w σ = (.inl h', σ')) :
    GateNext w σ σ' (.held h) (.held h') := by
  cases h with
  | readState =>
    simp only [next] at hnext
    split at hnext <;> cases hnext
    exact .free
  | lockSession =>
    cases hnext
    exact .locked
  | cancelScans => cases hnext

theorem GateHeldAt.gateNext_leave {h : GateHeldAt} {locked : Bool} (hnext : h.next w σ = (.inr locked, σ')) :
    GateNext w σ σ' (.held h) (.leave locked) := by
  cases h with
  | readState =>
    simp only [next] at hnext
    split at hnext <;> cases hnext
    exact .found ‹_› rfl
  | lockSession => cases hnext
  | cancelScans =>
    cases hnext
    refine .cancelled (.refl _) ?_
    rw [Shared.cancelWalletScans_eq]

theorem GateAt.gateNext {g : GateAt} {r : GateAt ⊕ Bool} (hg : g.undecided = true)
    (hnext : g.next me w σ = some (r, σ')) : ∃ g', r = .inl g' ∧ GateNext w σ σ' g g' := by
  cases g with
  | wait =>
    obtain ⟨σ₁, -, h⟩ := Option.map_eq_some_iff.mp hnext
    cases h
    exact ⟨_, rfl, .entered⟩
  | held h =>
    simp only [next] at hnext
    split at hnext <;> cases hnext
    · exact ⟨_, rfl, GateHeldAt.gateNext ‹_›⟩
    · exact ⟨_, rfl, GateHeldAt.gateNext_leave ‹_›⟩
  | leave locked => cases hg

/-- `gateStep` once the call has taken its step: the step goes on, or has answered. -/
def Call.GateGoesOn (w : WalletName) (file : Option PathBuf) (σ : Shared) (g : GateAt) (call' : Call)
    (σ' : Shared) : Prop :=
  ∃ g', GateNext w σ σ' g g' ∧ (g'.undecided = true → call'.gateStep w = some (file, g'))

theorem EverywhereAt.gateNext {file : Option PathBuf} {g : GateAt} {r : EverywhereAt ⊕ Unit}
    (hg : g.undecided = true) (h : EverywhereAt.next me w σ (.gate file g) = some (r, σ')) :
    ∃ g', r = .inl (.gate file g') ∧ GateNext w σ σ' g g' := by
  simp only [next] at h
  split at h <;> cases h <;> obtain ⟨g', hr, hnext⟩ := GateAt.gateNext hg ‹_› <;> cases hr
  exact ⟨_, rfl, hnext⟩

theorem Call.gateNext (h : call.next me ch σ = some (call', σ')) {file : Option PathBuf} {g : GateAt}
    (hstep : call.gateStep w = some (file, g)) (hg : g.undecided = true) :
    Call.GateGoesOn w file σ g call' σ' := by
  cases call <;> simp only [gateStep, reduceCtorEq] at hstep <;>
    obtain ⟨r, hr, heq⟩ := Option.map_eq_some_iff.mp h <;> cases heq
  case unlockWallet u =>
    obtain ⟨path, v, passphrase, pos⟩ := u
    split at hstep
    · rename_i hv
      dsimp only at hv
      subst hv
      cases pos <;> cases hstep
      simp only [UnlockWallet.next] at hr
      split at hr <;> cases hr
      · exact ⟨_, GateHeldAt.gateNext ‹_›, fun _ => by simp [gateStep, UnlockWallet.to]⟩
      · exact ⟨_, GateHeldAt.gateNext_leave ‹_›, fun hnot => (by cases hnot)⟩
    · cases hstep
  case lockWallet l =>
    obtain ⟨v, holder, pos⟩ := l
    split at hstep
    · rename_i hv
      dsimp only at hv
      subst hv
      cases pos <;> cases hstep
      simp only [LockWallet.next] at hr
      split at hr <;> cases hr <;> obtain ⟨g', hr', hnext⟩ := GateAt.gateNext hg ‹_› <;> cases hr'
      exact ⟨_, hnext, fun _ => by simp [gateStep]⟩
    · cases hstep
  case forceLockWallet f =>
    obtain ⟨v, pos⟩ := f
    split at hstep
    · rename_i hv
      dsimp only at hv
      subst hv
      cases pos with
      | everywhere e =>
        cases e <;> cases hstep
        simp only [ForceLockWallet.next] at hr
        split at hr <;> cases hr <;> obtain ⟨g', hr', hnext⟩ := EverywhereAt.gateNext hg ‹_› <;> cases hr'
        exact ⟨g', hnext, fun _ => by simp [gateStep]⟩
      | returned => cases hstep
    · cases hstep
  case withWalletLocked m =>
    obtain ⟨v, change, pos⟩ := m
    split at hstep
    · rename_i hv
      dsimp only at hv
      subst hv
      cases pos with
      | lockBefore file' e =>
        cases e <;> cases hstep
        simp only [WithWalletLocked.next] at hr
        split at hr <;> cases hr <;> obtain ⟨g', hr', hnext⟩ := EverywhereAt.gateNext hg ‹_› <;> cases hr'
        exact ⟨g', hnext, fun _ => by simp [gateStep, WithWalletLocked.to]⟩
      | lockAfter e changed =>
        cases e <;> cases hstep
        simp only [WithWalletLocked.next] at hr
        split at hr <;> cases hr <;> obtain ⟨g', hr', hnext⟩ := EverywhereAt.gateNext hg ‹_› <;> cases hr'
        exact ⟨g', hnext, fun _ => by simp [gateStep, WithWalletLocked.to]⟩
      | _ => cases hstep
    · cases hstep

/-- The phase of a call in a gate step. -/
theorem Call.keyPhase_of_gateStep {file : Option PathBuf} {g : GateAt}
    (h : call.gateStep w = some (file, g)) : call.keyPhase w = g.keyPhase := by
  cases call <;> simp only [gateStep, reduceCtorEq] at h <;> split at h <;> try cases h
  case unlockWallet.isTrue u hw =>
    obtain ⟨path, v, passphrase, pos⟩ := u
    cases pos <;> cases h
    exact if_pos hw
  case lockWallet.isTrue l hw =>
    obtain ⟨v, holder, pos⟩ := l
    cases pos <;> cases h
    exact if_pos hw
  case forceLockWallet.isTrue f hw =>
    obtain ⟨v, pos⟩ := f
    cases pos with
    | everywhere e =>
      cases e <;> cases h
      exact if_pos hw
    | returned => cases h
  case withWalletLocked.isTrue m hw =>
    obtain ⟨v, change, pos⟩ := m
    cases pos with
    | lockBefore _ e | lockAfter e _ =>
      cases e <;> cases h
      exact if_pos hw
    | _ => cases h

/-! ## What was made from a file -/

/-- A key session of `w` made from `F` is live, or a wanted scan of `w` was let in by one. -/
def World.Alive (s : World) (w : WalletName) (F : PathBuf) : Prop :=
  (∃ k, s.shared.keys w = some k ∧ k.file = F) ∨ ∃ c x file k, s.calls c = some (.scan x) ∧
    x.walletName = w ∧ s.Armed c x ∧ x.checked = some (file, k) ∧ k.file = F

/-- A call that will see to it: it is in a gate step for that file, or has stored the session and still has
to confirm its count. -/
def Call.answersFor (w : WalletName) (F : PathBuf) (call : Call) : Prop :=
  (∃ g, call.gateStep w = some (some F, g) ∧ g.undecided = true) ∨
    ∃ u g, call = .unlockWallet u ∧ u.walletName = w ∧ u.path = F ∧ u.pos = .confirm g

/-- No gate step is answered by a holder on another file than its own, and no unlock confirms its count
while a gate step of another file waits. -/
def rechecksInTime (e : Event Call) (s : World) : Prop :=
  ∀ c call, e = .step c → s.calls c = some call →
    (∀ w file F, call.gateStep w = some (some file, .held .readState) → s.shared.entryFile w = some F →
      F = file) ∧
    ∀ u g, call = .unlockWallet u → u.pos = .confirm g →
      s.shared.db.stillCounted u.walletName g = true → ∀ d other file, s.calls d = some other →
        other.gateStep u.walletName = some (some file, .wait) → file = u.path

/-- What is alive after a step was alive before, or an unlock stored it. -/
theorem alive_origin (h : system.Reach ok s) {m : CallId} {l l' : Call} (hm : s.calls m = some l)
    (hstep : l.next m ch s.shared = some (l', σ')) (halive : World.Alive (s.put m l' σ') w F) :
    s.Alive w F ∨ ∃ u g, l = .unlockWallet u ∧ l' = .unlockWallet (u.to (.confirm g)) ∧
      u.walletName = w ∧ u.path = F ∧ u.pos = .unlock g := by
  rcases halive with ⟨k, hk, rfl⟩ | ⟨c, x, file, k, hc, rfl, harmed, hchecked, rfl⟩
  · have hlock {v : WalletName} (hk : s.shared.keys.lock v w = some k) : s.shared.keys w = some k := by
      by_cases hv : w = v
      · subst hv
        rw [KeySessions.lock_self] at hk
        cases hk
      · rwa [KeySessions.lock_ne _ hv] at hk
    cases Call.keysStep hstep with
    | same hkeys _ => exact Or.inl (Or.inl ⟨k, hkeys ▸ hk, rfl⟩)
    | @stored u g keys foreign _ hpos hunlock =>
      rcases KeySessions.unlock_ok hunlock with ⟨-, rfl⟩ | ⟨-, rfl, -⟩
      · exact Or.inl (Or.inl ⟨k, hk, rfl⟩)
      · by_cases hw : w = u.walletName
        · subst hw
          have hnew : some (KeySession.mk u.path s.shared.nextSerial) = some k :=
            (Function.update_self u.walletName _ s.shared.keys).symm.trans hk
          obtain rfl := Option.some.inj hnew
          exact Or.inr ⟨u, g, rfl, rfl, rfl, rfl, hpos⟩
        · exact Or.inl (Or.inl ⟨k, (Function.update_of_ne hw _ _).symm.trans hk, rfl⟩)
    | locked _ _ => exact Or.inl (Or.inl ⟨k, hlock hk, rfl⟩)
    | dropped _ => exact Or.inl (Or.inl ⟨k, hlock hk, rfl⟩)
  · rcases armed_origin h hm hstep hc harmed with ⟨rfl, file', k', hfile, hk⟩ |
      ⟨x₀, hx₀, harmed₀, hsame, hname⟩
    · obtain ⟨-, rfl⟩ := Prod.mk.inj (Option.some.inj (hchecked.symm.trans hfile))
      exact Or.inl (Or.inl ⟨k, hk, rfl⟩)
    · exact Or.inl (Or.inr ⟨c, x₀, file, k, hx₀, hname.symm, harmed₀, hsame.symm.trans hchecked, rfl⟩)

/-- The last count of a wallet goes when its own count reaches zero. -/
theorem zero_of_releaseOne {db db' : DbState} {v : WalletName} {zero : Bool}
    (h : db.releaseOne v = (zero, db')) (hbefore : db.generation w ≠ none)
    (hafter : db'.generation w = none) : w = v ∧ zero = true := by
  by_contra hnot
  have hsame := DbState.releaseOne_generation h w
  rw [if_neg hnot] at hsame
  exact hbefore (hsame.symm.trans hafter)

/-- A call that removes a wallet's entry goes on with the gate step for the entry's file. -/
theorem Call.gateStep_of_removes (h : call.next me ch σ = some (call', σ')) (hw : call.removes = some w) :
    call'.gateStep w = some (σ.entryFile w, .wait) := by
  cases call <;> simp only [removes, reduceCtorEq] at hw <;>
    obtain ⟨r, hr, heq⟩ := Option.map_eq_some_iff.mp h <;> cases heq
  case forceLockWallet f =>
    obtain ⟨v, pos⟩ := f
    split at hw <;> cases hw
    rename_i hpos
    dsimp only at hpos
    subst hpos
    cases hr
    simp [gateStep]
  case withWalletLocked m =>
    obtain ⟨v, change, pos⟩ := m
    dsimp only at hw
    split at hw <;> cases hw <;> cases hr <;> simp [gateStep, WithWalletLocked.to]

/-- A wallet's entry goes with a call that is in a gate step for its file from then on. -/
theorem entryFile_next (h : system.Reach ok s) {m : CallId} {l l' : Call} (hm : s.calls m = some l)
    (hstep : l.next m ch s.shared = some (l', σ')) (hentry : s.shared.entryFile w = some F) :
    σ'.entryFile w = some F ∨ l'.answersFor w F := by
  by_cases hafter : (σ'.db.sessions.lookup w).isSome = true
  · exact Or.inl ((Call.dbStep hstep).entryFile_eq (db_coherent h) hentry hafter)
  right
  obtain ⟨session, hs⟩ := Option.isSome_iff_exists.mp (Shared.entryFile_eq_some.mp hentry).1
  have hend : σ'.db.sessions.lookup w = none := Option.not_isSome_iff_eq_none.mp hafter
  have hgen : s.shared.db.generation w ≠ none := by
    rw [generation_of_lookup hs]
    exact Option.some_ne_none _
  have kept (hsame : σ'.db.sessions = s.shared.db.sessions) : False := by
    rw [hsame, hs] at hend
    cases hend
  cases Call.dbStep hstep with
  | same hdb _ => exact (kept (by rw [hdb])).elim
  | setPath _ hset =>
    unfold DbState.setDatabasePath at hset
    split at hset <;> cases hset
    exact (kept rfl).elim
  | countError _ hcount =>
    obtain ⟨db, rfl, rfl | ⟨rfl, -⟩⟩ := Shared.count_error hcount <;> exact (kept rfl).elim
  | count _ hcount =>
    obtain ⟨db, files, rfl, hacq, -⟩ := Shared.count_ok hcount
    rw [DbState.acquireSession_lookup hacq] at hend
    split at hend
    · cases hend
    · cases hs.symm.trans hend
  | @release l _ zero _ _ hpos hrel hl =>
    obtain ⟨db, hone, rfl⟩ := Shared.releaseSession_eq hrel
    obtain ⟨rfl, rfl⟩ := zero_of_releaseOne hone hgen (DbState.generation_eq_none.mpr hend)
    subst hl
    exact Or.inl ⟨.wait, by simp [Call.gateStep, LockWallet.afterRelease, hentry], rfl⟩
  | @giveBack u _ g e zero _ _ hpos hgive hu =>
    rcases Shared.releaseFailed_eq hgive with ⟨hg, db, hone, rfl⟩ | ⟨-, -, rfl⟩
    · obtain ⟨rfl, rfl⟩ := zero_of_releaseOne hone hgen (DbState.generation_eq_none.mpr hend)
      have hfile := counted_file h hm (by rw [hpos]; rfl) hg
      obtain rfl := Option.some.inj (hfile.symm.trans hentry)
      subst hu
      exact Or.inl ⟨.held .readState,
        by simp [Call.gateStep, UnlockWallet.to, UnlockAt.afterGiveBack], rfl⟩
    · exact (kept rfl).elim
  | @remove _ _ v _ hremoves =>
    have hv : w = v := by
      by_contra hne
      rw [show (s.shared.removeSession m v).db.sessions.lookup w = s.shared.db.sessions.lookup w from
        (DbState.removeSession_lookup _ _ _).trans (if_neg hne), hs] at hend
      cases hend
    subst hv
    exact Or.inl ⟨.wait, hentry ▸ Call.gateStep_of_removes hstep hremoves, rfl⟩

/-- A call that answers for a file goes on answering, or finds a holder, or has cancelled what was left, or
confirms its count. -/
theorem answersFor_next (h : call.next me ch σ = some (call', σ')) (ha : call.answersFor w F) :
    call'.answersFor w F ∨
      (call.gateStep w = some (some F, .held .readState) ∧ (σ.db.sessions.lookup w).isSome = true ∧ σ' = σ) ∨
      (call.gateStep w = some (some F, .held .cancelScans) ∧ SameScans (σ.cancelWalletScans w).2 σ' ∧
        σ'.keys = σ.keys) ∨
      ∃ u g, call = .unlockWallet u ∧ u.walletName = w ∧ u.path = F ∧ u.pos = .confirm g ∧
        σ.db.stillCounted w g = true ∧ σ' = σ := by
  rcases ha with ⟨g, hg, hundecided⟩ | ⟨u, g, rfl, rfl, rfl, hpos⟩
  · obtain ⟨g', hnext, hon⟩ := Call.gateNext h hg hundecided
    cases hnext with
    | entered | free | locked => exact Or.inl (Or.inl ⟨_, hon rfl, rfl⟩)
    | found hentry hsame => exact Or.inr (Or.inl ⟨hg, hentry, hsame⟩)
    | cancelled hscans hkeys => exact Or.inr (Or.inr (Or.inl ⟨hg, hscans, hkeys⟩))
  · obtain ⟨u', rfl, hnext⟩ := Call.next_unlockWallet h
    simp only [UnlockWallet.next, hpos] at hnext
    split at hnext <;> cases hnext
    · exact Or.inr (Or.inr (Or.inr ⟨u, g, rfl, rfl, rfl, hpos, ‹_›, rfl⟩))
    · exact Or.inl (Or.inl ⟨.held .readState, by simp [Call.gateStep, UnlockWallet.to], rfl⟩)

/-- After `cancel_wallet_scans` nothing of the wallet is alive: `session::lock` came before it. -/
theorem not_alive_of_cancel (h : system.Reach ok s) {m : CallId} {l l' : Call} (hm : s.calls m = some l)
    {file : Option PathBuf} (hg : l.gateStep w = some (file, .held .cancelScans))
    (hscans : SameScans (s.shared.cancelWalletScans w).2 σ') (hkeys : σ'.keys = s.shared.keys) :
    ¬ World.Alive (s.put m l' σ') w F := by
  have hphase : ((keyHom ok w).config s).calls m = some .cancelling := by
    simp [keyHom, hm, Call.keyPhase_of_gateStep hg, GateAt.keyPhase, GateHeldAt.keyPhase]
  have hdead : (s.shared.keys w).isSome = false :=
    KeyProtocol.not_live_of_cancelling ((keyHom ok w).reach_any h) hphase
  rintro (⟨k, hk, -⟩ | ⟨c, x, file, k, -, hw, harmed, -⟩)
  · rw [Config.put_shared, hkeys] at hk
    rw [hk] at hdead
    cases hdead
  · exact not_armed_of_cancel hscans hw harmed

/-- Whatever is alive from a file, the wallet is counted there, or some call answers for it. -/
theorem alive_answered (h : system.Reach rechecksInTime s) : ∀ w F, s.Alive w F →
    s.shared.entryFile w = some F ∨ ∃ c call, s.calls c = some call ∧ call.answersFor w F := by
  refine h.invariant (I := fun s : World => ∀ w F, s.Alive w F →
    s.shared.entryFile w = some F ∨ ∃ c call, s.calls c = some call ∧ call.answersFor w F) ?_ ?_ ?_
  · rintro σ ⟨files, tariCommon, rfl⟩ w F (⟨k, hk, -⟩ | ⟨c, x, file, k, hc, -⟩)
    · cases hk
    · cases hc
  · rintro (s : World) m call hs ih _ hfree hstart w F halive
    have hbefore : s.Alive w F := by
      rcases halive with hk | ⟨c, x, file, k, hc, hw, harmed, hchecked, hfile⟩
      · exact Or.inl hk
      · exact Or.inr ⟨c, x, file, k, armed_of_start hs hfree hstart hc harmed, hw, harmed, hchecked, hfile⟩
    rcases ih w F hbefore with hentry | ⟨c, other, hc, hanswers⟩
    · exact Or.inl hentry
    · exact Or.inr ⟨c, other, Config.put_calls_of_free hfree hc, hanswers⟩
  · rintro (s : World) m l l' σ' hs ih hok hm ⟨ch, hstep⟩ w F halive
    -- the mover answers now, or it was alive before
    have byMover (hanswers : l'.answersFor w F) : ∃ c call, (s.put m l' σ').calls c = some call ∧
        call.answersFor w F := ⟨m, l', Config.put_calls_self _ _ _ _, hanswers⟩
    rcases alive_origin hs hm hstep halive with hbefore | ⟨u, g, rfl, rfl, hw, hpath, -⟩
    · rcases ih w F hbefore with hentry | ⟨c, other, hc, hanswers⟩
      · exact (entryFile_next hs hm hstep hentry).imp_right byMover
      · by_cases hcm : c = m
        · subst hcm
          obtain rfl := Option.some.inj (hm.symm.trans hc)
          rcases answersFor_next hstep hanswers with hgoes | ⟨hg, hentry, rfl⟩ | ⟨hg, hscans, hkeys⟩ |
            ⟨u, g, rfl, rfl, rfl, hpos, hstill, rfl⟩
          · exact Or.inr (byMover hgoes)
          · -- it finds a holder, which is on its own file
            have hpool := (db_coherent hs).pool ((Table.isEmpty_eq_false_iff _).mpr
              ⟨w, Option.isSome_iff_exists.mp hentry⟩)
            obtain ⟨⟨path⟩, hopen⟩ := Option.isSome_iff_exists.mp hpool
            have hfile := Shared.entryFile_eq_some.mpr ⟨hentry, hopen⟩
            obtain rfl := (hok c l rfl hm).1 w F path hg hfile
            exact Or.inl hfile
          · exact absurd halive (not_alive_of_cancel hs hm hg hscans hkeys)
          · exact Or.inl (counted_file hs hm (by rw [hpos]; rfl) (DbState.stillCounted_iff.mp hstill))
        · exact Or.inr ⟨c, other, by rw [Config.put_calls_ne _ _ _ hcm]; exact hc, hanswers⟩
    · exact Or.inr (byMover (Or.inr ⟨u.to (.confirm g), g, rfl, hw, hpath, rfl⟩))

/-! ## Nothing of another file -/

/-- A gate step that goes on with the gate held. -/
theorem holdsGate_of_held {file : Option PathBuf} {h' : GateHeldAt}
    (hg : call.gateStep w = some (file, .held h')) : (call.keyPhase w).holdsGate = true := by
  rw [Call.keyPhase_of_gateStep hg]
  cases h' <;> rfl

theorem holdsGate_of_pos {u : UnlockWallet} (hw : u.walletName = w)
    (hpos : u.pos.keyPhase.holdsGate = true) : ((Call.unlockWallet u).keyPhase w).holdsGate = true := by
  simpa [Call.keyPhase, hw] using hpos

/-- An unlock is about to return `Ok` only once it has confirmed its count. -/
theorem UnlockWallet.next_confirmed {u u' : UnlockWallet} {g : Nat}
    (h : u.next me ch σ = some (u', σ')) (hpos : u'.pos = .leave g (.ok ())) :
    u.pos = .confirm g ∧ u' = u.to (.leave g (.ok ())) ∧
      σ.db.stillCounted u.walletName g = true ∧ σ' = σ := by
  obtain ⟨path, v, passphrase, pos⟩ := u
  unfold next at h
  cases pos with
  | gate g' =>
    obtain ⟨σ₁, -, h⟩ := Option.map_eq_some_iff.mp h
    cases h
    cases hpos
  | confirm g' =>
    dsimp only at h
    split at h <;> cases h <;> cases hpos
    exact ⟨rfl, rfl, ‹_›, rfl⟩
  | _ =>
    dsimp only at h
    (repeat' split at h) <;> cases h <;> cases hpos

/-- When an unlock has confirmed its count, nothing of its wallet is alive that was made from another
file. -/
theorem locked_elsewhere (h : system.Reach rechecksInTime s) : ∀ c u g F, s.calls c = some (.unlockWallet u) →
    u.pos = .leave g (.ok ()) → F ≠ u.path → ¬ s.Alive u.walletName F := by
  refine h.invariant (I := fun s : World => ∀ c u g F, s.calls c = some (.unlockWallet u) →
    u.pos = .leave g (.ok ()) → F ≠ u.path → ¬ s.Alive u.walletName F) ?_ ?_ ?_
  · intro σ _ c u g F hc
    cases hc
  · rintro (s : World) m call hs ih _ hfree hstart c u g F hc hpos hF halive
    have hold : s.calls c = some (.unlockWallet u) := by
      rcases Config.put_calls_eq_some hc with ⟨rfl, rfl⟩ | ⟨-, hold⟩
      · simp only [system, Call.starts, decide_eq_true_eq] at hstart
        rw [hstart] at hpos
        cases hpos
      · exact hold
    apply ih c u g F hold hpos hF
    rcases halive with hk | ⟨d, x, file, k, hd, hw, harmed, hchecked, hfile⟩
    · exact Or.inl hk
    · exact Or.inr ⟨d, x, file, k, armed_of_start hs hfree hstart hd harmed, hw, harmed, hchecked, hfile⟩
  · rintro (s : World) m l l' σ' hs ih hok hm ⟨ch, hstep⟩ c u g F hc hpos hF halive
    have hbefore := alive_origin hs hm hstep halive
    rcases Config.put_calls_eq_some hc with ⟨rfl, rfl⟩ | ⟨hne, hold⟩
    · -- it confirms its count now: what is alive of another file is answered for, by nobody
      obtain ⟨u₀, rfl, hnext⟩ := Call.of_next_unlockWallet hstep
      obtain ⟨hconfirm, rfl, hstill, rfl⟩ := UnlockWallet.next_confirmed hnext hpos
      have hgate := holdsGate_of_pos (w := u₀.walletName) rfl (by rw [hconfirm]; rfl)
      rcases hbefore with hbefore | ⟨v, g', hv, -, -, -, hpos'⟩
      · rcases alive_answered hs _ F hbefore with hentry | ⟨d, other, hd, ⟨gs, hg, hundecided⟩ |
          ⟨v, g', rfl, hv, rfl, hpos'⟩⟩
        · have hfile := counted_file hs hm (by rw [hconfirm]; rfl) (DbState.stillCounted_iff.mp hstill)
          exact hF (Option.some.inj (hentry.symm.trans hfile))
        · cases gs with
          | wait => exact hF ((hok c _ rfl hm).2 u₀ g rfl hconfirm hstill d other F hd hg)
          | held h' =>
            obtain rfl := gate_holder_unique hs hm hgate hd (holdsGate_of_held hg)
            obtain rfl := Option.some.inj (hm.symm.trans hd)
            simp [Call.gateStep, hconfirm] at hg
          | leave locked => cases hundecided
        · obtain rfl := gate_holder_unique hs hm hgate hd (holdsGate_of_pos hv (by rw [hpos']; rfl))
          obtain rfl := Call.unlockWallet.inj (Option.some.inj (hm.symm.trans hd))
          exact hF rfl
      · obtain rfl := Call.unlockWallet.inj hv
        rw [hconfirm] at hpos'
        cases hpos'
    · rcases hbefore with hbefore | ⟨v, g', rfl, -, hv, -, hpos'⟩
      · exact ih c u g F hold hpos hF hbefore
      · apply hne
        exact gate_holder_unique hs hold (holdsGate_of_pos rfl (by rw [hpos]; rfl)) hm
          (holdsGate_of_pos hv (by rw [hpos']; rfl))

/-! ## A schedule of each kind -/

/-- The wallet whose gate steps a call takes. -/
def Call.gateWallet : Call → WalletName
  | .lockWallet l => l.walletName
  | .forceLockWallet f => f.walletName
  | .withWalletLocked m => m.walletName
  | .unlockWallet u => u.walletName
  | _ => ""

theorem Call.gateWallet_eq {r : Option PathBuf × GateAt} (h : call.gateStep w = some r) :
    call.gateWallet = w := by
  cases call <;> simp only [gateStep, reduceCtorEq] at h <;> split at h <;> first | assumption | cases h

/-- Whether the gate step `r` is of `file`, unless it is elsewhere than at `g`. -/
def ofFile (g : GateAt) (file : PathBuf) : Option (Option PathBuf × GateAt) → Bool
  | some (some F, g') => decide (g' ≠ g) || decide (F = file)
  | _ => true

/-- `rechecksInTime`, decided. -/
def checksInTime (bound : Nat) (e : Event Call) (s : World) : Bool :=
  match e with
  | .start _ _ => true
  | .step c => (s.calls c).all fun call =>
    ((s.shared.entryFile call.gateWallet).all fun file =>
      ofFile (.held .readState) file (call.gateStep call.gateWallet)) &&
    match call with
    | .unlockWallet u =>
      match u.pos with
      | .confirm _ => s.allBelow bound fun other => ofFile .wait u.path (other.gateStep u.walletName)
      | _ => true
    | _ => true

theorem checksInTime_sound {bound : Nat} {e : Event Call} (hs : s.Within bound)
    (h : checksInTime bound e s = true) : rechecksInTime e s := by
  rintro c call rfl hc
  simp only [checksInTime, hc, Option.all_some, Bool.and_eq_true] at h
  obtain ⟨hfound, hwaits⟩ := h
  constructor
  · intro w file F hg hfile
    obtain rfl := Call.gateWallet_eq hg
    rw [hfile, Option.all_some, hg] at hfound
    simpa [ofFile, eq_comm] using hfound
  · rintro u g rfl hpos - d other file hd hg
    simp only [hpos] at hwaits
    have hother := hs.of_allBelow hwaits hd
    rw [hg] at hother
    simpa [ofFile] using hother

/-- Call `c` is an unlock of "main" on the second file that is about to return `Ok`. -/
def aboutToReturn (c : CallId) (s : World) : Bool :=
  match s.calls c with
  | some (.unlockWallet u) =>
    match u.pos with
    | .leave _ (.ok ()) => decide (u.path = secondPath) && decide (u.walletName = "main")
    | _ => false
  | _ => false

theorem aboutToReturn_sound (h : aboutToReturn c s = true) : ∃ u g, s.calls c = some (.unlockWallet u) ∧
    u.pos = .leave g (.ok ()) ∧ u.path = secondPath ∧ u.walletName = "main" := by
  unfold aboutToReturn at h
  split at h
  · rename_i u hc
    split at h
    · rename_i g hpos
      simp only [Bool.and_eq_true, decide_eq_true_eq] at h
      exact ⟨u, g, hc, hpos, h⟩
    · cases h
  · cases h

/-- Call `c` is a scan of "main" in its slot, not cancelled, that a session of the first file let in. -/
def scansFirst (c : CallId) (s : World) : Bool :=
  match s.calls c with
  | some (.scan x) =>
    decide (x.walletName = "main") && (x.checked.any fun found => decide (found.2.file = firstPath)) &&
      (s.shared.scans.running.lookup x.walletName).any fun k =>
        decide (k.scan = c) && !(s.shared.tokens c).cancelled
  | _ => false

theorem alive_of_scansFirst (h : scansFirst c s = true) : s.Alive "main" firstPath := by
  unfold scansFirst at h
  split at h
  · rename_i x hc
    simp only [Bool.and_eq_true, decide_eq_true_eq, Option.any_eq_true, Bool.not_eq_true'] at h
    obtain ⟨⟨hw, ⟨file, key⟩, hchecked, hfile⟩, k, hk, hscan, htoken⟩ := h
    exact Or.inr ⟨c, x, file, key, hc, hw, Or.inr ⟨k, hk, hscan, htoken⟩, hchecked, hfile⟩
  · cases h

/-- A lock takes the wallet's last count and has `n` more steps, and the second file is unlocked. -/
def releasedAndUnlocked (n : Nat) : List (Act Call Choice) :=
  .start 3 (.lockWallet ⟨"main", some 0, .release⟩) :: go 3 1 ++ go 3 n ++
    .start 4 (.unlockWallet ⟨secondPath, "main", "secret", .count⟩) :: go 4 5

/-- The lock has had its gate step. -/
theorem locked_elsewhere_released : ∃ s : World, system.Reach rechecksInTime s ∧ ∃ c u g,
    s.calls c = some (.unlockWallet u) ∧ u.pos = .leave g (.ok ()) ∧ u.path = secondPath ∧
      ¬ s.Alive "main" firstPath := by
  have hrun : ((replay 5 (checksInTime 5)).exec fresh
      (unlocks 0 firstPath ++ startsScan 1 2 0 ++ releasedAndUnlocked 5)).map (aboutToReturn 4) =
        some true := by decide +kernel
  obtain ⟨s, hs, hreturns⟩ := Option.map_eq_some_iff.mp hrun
  obtain ⟨u, g, hc, hpos, hpath, hname⟩ := aboutToReturn_sound hreturns
  have hreach : system.Reach rechecksInTime s :=
    (replay_sound fun _ _ hs h => checksInTime_sound hs h).reach fresh_init hs
  have hne : firstPath ≠ u.path := by
    rw [hpath]
    decide
  have hdead := locked_elsewhere hreach 4 u g firstPath hc hpos hne
  rw [hname] at hdead
  exact ⟨s, hreach, 4, u, g, hc, hpos, hpath, hdead⟩

/-- The gate step is still to come: the scan of the first file goes on. -/
theorem not_locked_elsewhere : ¬ ∀ (t s : World) c u g F, system.Reach (fun _ _ => True) t →
    t.shared.entryFile u.walletName = some F → system.Steps (fun _ _ => True) t s →
    s.shared.entryFile u.walletName ≠ some F → s.calls c = some (.unlockWallet u) →
    u.pos = .leave g (.ok ()) → F ≠ u.path → ¬ s.Alive u.walletName F := by
  intro hall
  have hR : (replay 5 fun _ _ => true).Sound system fun _ _ => True := replay_sound fun _ _ _ _ => trivial
  have hrun : ((replay 5 fun _ _ => true).exec fresh (unlocks 0 firstPath ++ startsScan 1 2 0)).bind (fun t =>
      ((replay 5 fun _ _ => true).exec t (releasedAndUnlocked 0)).map fun s =>
        (t.shared.entryFile "main", s.shared.entryFile "main", aboutToReturn 4 s, scansFirst 2 s)) =
      some (some firstPath, some secondPath, true, true) := by decide +kernel
  obtain ⟨t, ht, hrest⟩ := Option.bind_eq_some_iff.mp hrun
  obtain ⟨s, hs, hfacts⟩ := Option.map_eq_some_iff.mp hrest
  simp only [Prod.mk.injEq] at hfacts
  obtain ⟨hbefore, hafter, hreturns, hscans⟩ := hfacts
  obtain ⟨u, g, hc, hpos, hpath, hname⟩ := aboutToReturn_sound hreturns
  obtain ⟨hwithin, -⟩ := hR.steps (fun _ _ => rfl) ht
  have hne : firstPath ≠ u.path := by
    rw [hpath]
    decide
  have hdead := hall t s 4 u g firstPath (hR.reach fresh_init ht) (by rw [hname]; exact hbefore)
    (hR.steps hwithin hs).2 (by rw [hname, hafter]; decide) hc hpos hne
  rw [hname] at hdead
  exact hdead (alive_of_scansFirst hscans)

end CwTariWallet
