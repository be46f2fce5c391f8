/-
# CwTariWallet.Bridge.Counts -- who is behind an open count

`DB_STATE` counts unlocks without remembering whose they are.  The ledger remembers: every unlock of
an entry's generation, the failed ones that gave their count back, and the locks that took one off.
The count never exceeds what the ledger leaves (`count_le`), so behind an entry there is always an
unlock that has not given up (`exists_standing`).
-/
import CwTariWallet.Bridge.DbSteps
import Mathlib.Data.List.Perm.Subperm

namespace CwTariWallet

open Interleaving

/-! ## An unlock's generation -/

/-- The generation an `unlock_wallet` was counted into. -/
def UnlockAt.generation : UnlockAt → Option Nat
  | .count => none
  | .gate g | .isUnlocked g | .verify g | .isUnlockedAgain g | .unlock g | .failed g _ | .confirm g
  | .lockHeld _ g _ | .leave g _ => some g
  | .returned g _ => g

/-- The generation of an `unlock_wallet` that will fail and has nothing left to give back. -/
def UnlockAt.gaveUp : UnlockAt → Option Nat
  | .lockHeld _ g _ | .leave g (.error _) => some g
  | .returned g (.error _) => g
  | _ => none

variable {ok : Guard Shared Call} {s : World}
variable {w : WalletName} {me : CallId} {ch : Choice} {σ σ' : Shared}

/-- An `unlock_wallet` stays the call it is, and keeps its generation. -/
theorem UnlockWallet.next_same {u u' : UnlockWallet} (h : u.next me ch σ = some (u', σ')) :
    u'.path = u.path ∧ u'.walletName = u.walletName ∧ u'.passphrase = u.passphrase ∧
      ∀ g, u.pos.generation = some g → u'.pos.generation = some g := by
  obtain ⟨path, v, passphrase, pos⟩ := u
  unfold next at h
  cases pos with
  | gate g =>
    obtain ⟨σ₁, -, h⟩ := Option.map_eq_some_iff.mp h
    cases h
    exact ⟨rfl, rfl, rfl, fun _ hg => hg⟩
  | count =>
    dsimp only at h
    split at h <;> cases h <;> exact ⟨rfl, rfl, rfl, nofun⟩
  | _ =>
    dsimp only at h
    (repeat' split at h) <;> cases h <;> exact ⟨rfl, rfl, rfl, fun _ hg => hg⟩

/-- An `unlock_wallet` that gives up now gave up before, gives its count back, or found it gone. -/
theorem UnlockWallet.next_gaveUp {u u' : UnlockWallet} {g : Nat}
    (h : u.next me ch σ = some (u', σ')) (hg : u'.pos.gaveUp = some g) :
    u.pos.gaveUp = some g ∨ (∃ zero, σ.releaseFailed me u.walletName g = (zero, σ')) ∨
      (u.pos = .confirm g ∧ σ.db.generation u.walletName ≠ some g ∧ σ'.db = σ.db) := by
  obtain ⟨path, v, passphrase, pos⟩ := u
  unfold next at h
  cases pos with
  | gate g' =>
    obtain ⟨σ₁, -, h⟩ := Option.map_eq_some_iff.mp h
    cases h
    cases hg
  | failed g' e =>
    dsimp only at h
    split at h <;> cases h <;> obtain rfl := Option.some.inj hg <;>
      exact Or.inr (Or.inl ⟨_, ‹_›⟩)
  | confirm g' =>
    dsimp only at h
    split at h <;> cases h
    · cases hg
    · rename_i hnot
      obtain rfl := Option.some.inj hg
      exact Or.inr (Or.inr ⟨rfl, fun hgen => hnot (DbState.stillCounted_iff.mpr hgen), rfl⟩)
  | lockHeld hh g' e =>
    dsimp only at h
    split at h <;> cases h <;> exact Or.inl hg
  | leave g' r =>
    cases h
    cases r with
    | ok _ => cases hg
    | error e => exact Or.inl hg
  | _ =>
    dsimp only at h
    (repeat' split at h) <;> cases h <;> cases hg

theorem Call.next_unlockWallet {u : UnlockWallet} {call' : Call}
    (h : (Call.unlockWallet u).next me ch σ = some (call', σ')) :
    ∃ u', call' = .unlockWallet u' ∧ u.next me ch σ = some (u', σ') := by
  obtain ⟨r, hr, h⟩ := Option.map_eq_some_iff.mp h
  cases h
  exact ⟨r.1, rfl, hr⟩

theorem Call.of_next_unlockWallet {call : Call} {u' : UnlockWallet}
    (h : call.next me ch σ = some (.unlockWallet u', σ')) :
    ∃ u, call = .unlockWallet u ∧ u.next me ch σ = some (u', σ') := by
  cases call <;> obtain ⟨r, hr, h⟩ := Option.map_eq_some_iff.mp h <;> cases h
  exact ⟨_, rfl, hr⟩

/-- An `unlock_wallet` has the generation it had, or is counted into it now. -/
theorem UnlockWallet.next_generation {u u' : UnlockWallet} {g : Nat}
    (h : u.next me ch σ = some (u', σ')) (hg : u'.pos.generation = some g) :
    u.pos.generation = some g ∨
      (u.pos = .count ∧ u' = u.to (.gate g) ∧ σ.count me u.path u.walletName ch = (.ok g, σ')) := by
  obtain ⟨path, v, passphrase, pos⟩ := u
  unfold next at h
  cases pos with
  | gate g' =>
    obtain ⟨σ₁, -, h⟩ := Option.map_eq_some_iff.mp h
    cases h
    exact Or.inl hg
  | count =>
    dsimp only at h
    split at h <;> cases h
    · cases hg
    · obtain rfl := Option.some.inj hg
      exact Or.inr ⟨rfl, rfl, ‹_›⟩
  | _ =>
    dsimp only at h
    (repeat' split at h) <;> cases h <;> exact Or.inl hg

/-! ## Generations -/

theorem generation_lt (h : system.Reach ok s) {g : Nat} (hg : s.shared.db.generation w = some g) :
    g < s.shared.db.nextGeneration :=
  KeyProtocol.entry_lt_fresh ((keyHom ok w).reach_any h) g hg

/-- An entry's generation is the one it had, or the next one, and then an unlock opened the entry. -/
theorem DbStep.generation_origin {call call' : Call} (h : DbStep me call σ call' σ') {g : Nat}
    (hg : σ'.db.generation w = some g) :
    σ.db.generation w = some g ∨ (σ.db.generation w = none ∧ g = σ.db.nextGeneration ∧
      ∃ u, call = .unlockWallet u ∧ u.walletName = w ∧ u.pos = .count) := by
  cases h with
  | same hdb _ => exact Or.inl (hdb ▸ hg)
  | setPath _ hset =>
    unfold DbState.setDatabasePath at hset
    split at hset <;> cases hset
    exact Or.inl hg
  | countError _ hcount =>
    obtain ⟨db, rfl, rfl | ⟨rfl, -⟩⟩ := Shared.count_error hcount <;> exact Or.inl hg
  | @count u _ _ _ _ hpos hcount =>
    obtain ⟨db, files, rfl, hacq, -⟩ := Shared.count_ok hcount
    have hgen := DbState.acquireSession_generation hacq w
    by_cases hw : w = u.walletName
    · rw [if_pos hw] at hgen
      obtain rfl := Option.some.inj (hgen.symm.trans hg)
      rcases DbState.acquireSession_fresh hacq with ⟨hnone, hnext, -⟩ | ⟨hsome, -⟩
      · exact Or.inr ⟨hw ▸ hnone, hnext, u, rfl, hw.symm, hpos⟩
      · exact Or.inl (hw ▸ hsome)
    · rw [if_neg hw] at hgen
      exact Or.inl (hgen.symm.trans hg)
  | release _ hrel _ =>
    obtain ⟨db, hone, rfl⟩ := Shared.releaseSession_eq hrel
    have hgen := DbState.releaseOne_generation hone w
    split at hgen
    · cases hgen.symm.trans hg
    · exact Or.inl (hgen.symm.trans hg)
  | giveBack _ hgive _ =>
    rcases Shared.releaseFailed_eq hgive with ⟨-, db, hone, rfl⟩ | ⟨-, -, rfl⟩
    · have hgen := DbState.releaseOne_generation hone w
      split at hgen
      · cases hgen.symm.trans hg
      · exact Or.inl (hgen.symm.trans hg)
    · exact Or.inl hg
  | @remove _ _ v _ _ =>
    have hgen := DbState.removeSession_generation σ.db v w
    split at hgen
    · cases hgen.symm.trans hg
    · exact Or.inl (hgen.symm.trans hg)

/-- No two wallets' entries have the same generation. -/
theorem generation_unique (h : system.Reach ok s) :
    ∀ v w g, s.shared.db.generation v = some g → s.shared.db.generation w = some g → v = w := by
  refine h.invariant (I := fun s => ∀ v w g, s.shared.db.generation v = some g →
    s.shared.db.generation w = some g → v = w) ?_ ?_ ?_
  · rintro σ ⟨files, tariCommon, rfl⟩ v w g hv
    cases hv
  · intro s c l _ ih _ _ _
    exact ih
  · rintro s c l l' σ' hs ih _ _ ⟨ch, hstep⟩ v w g hv hw
    have hdb := Call.dbStep hstep
    rcases hdb.generation_origin hv with hv | ⟨-, hgv, u, hu, huv, -⟩ <;>
      rcases hdb.generation_origin hw with hw | ⟨-, hgw, u', hu', huw, -⟩
    · exact ih v w g hv hw
    · exact absurd (generation_lt hs hv) (by omega)
    · exact absurd (generation_lt hs hw) (by omega)
    · obtain rfl := Call.unlockWallet.inj (hu.symm.trans hu')
      exact huv.symm.trans huw

/-! ## The ledger of an entry -/

/-- Where an entry and its ledger come from. -/
inductive EntryStep (me : CallId) (w : WalletName) : Call → Shared → Call → Shared → Session → Prop
  /-- It was there. -/
  | kept {call call' σ σ' session} : σ.db.sessions.lookup w = some session →
      σ'.ledger session.generation = σ.ledger session.generation →
      EntryStep me w call σ call' σ' session
  /-- An unlock counted. -/
  | counted {u ch g σ σ' session} : u.pos = .count → u.walletName = w →
      σ.count me u.path w ch = (.ok g, σ') → session.generation = g →
      session = DbState.acquired (σ.db.sessions.lookup w) σ.db.nextGeneration →
      σ'.ledger g = { σ.ledger g with counted := me :: (σ.ledger g).counted } →
      EntryStep me w (.unlockWallet u) σ (.unlockWallet (u.to (.gate g))) σ' session
  /-- A lock took one off. -/
  | lowered {l call' σ σ' old session} : l.pos = .release → l.walletName = w →
      σ.db.sessions.lookup w = some old → session.count + 1 = old.count →
      session.generation = old.generation →
      σ'.ledger old.generation =
        { σ.ledger old.generation with locked := me :: (σ.ledger old.generation).locked } →
      EntryStep me w (.lockWallet l) σ call' σ' session
  /-- A failed unlock gave one back. -/
  | givenBack {u e call' σ σ' old session} : u.pos = .failed old.generation e → u.walletName = w →
      σ.db.sessions.lookup w = some old → session.count + 1 = old.count →
      session.generation = old.generation →
      σ'.ledger old.generation =
        { σ.ledger old.generation with givenBack := me :: (σ.ledger old.generation).givenBack } →
      EntryStep me w (.unlockWallet u) σ call' σ' session

theorem generation_of_lookup {db : DbState} {session : Session}
    (h : db.sessions.lookup w = some session) : db.generation w = some session.generation := by
  simp [DbState.generation, h]

theorem Shared.note_ne {σ : Shared} {g : Option Nat} {g' : Nat} {f : Ledger → Ledger}
    (h : g ≠ some g') : σ.note g f g' = σ.ledger g' := by
  cases g with
  | none => rfl
  | some g => exact Function.update_of_ne (fun heq => h (congrArg some heq.symm)) _ _

@[simp]
theorem Shared.note_self (σ : Shared) (g : Nat) (f : Ledger → Ledger) :
    σ.note (some g) f g = f (σ.ledger g) :=
  Function.update_self _ _ _

/-- Taking one off another wallet's count leaves an entry where it was. -/
theorem lookup_of_releaseOne {db db' : DbState} {v : WalletName} {zero : Bool}
    (h : db.releaseOne v = (zero, db')) (hw : w ≠ v) {session : Session}
    (hs : db'.sessions.lookup w = some session) : db.sessions.lookup w = some session := by
  rcases DbState.releaseOne_cases h with ⟨-, -, rfl⟩ | ⟨old, rest, -, -, -, -, rfl⟩ |
    ⟨old, -, -, -, rfl⟩
  · exact hs
  · rwa [AList.lookup_insert_ne hw] at hs
  · rwa [DbState.removeSession_lookup, if_neg hw] at hs

/-- What is noted of another wallet's entry is not noted of this one. -/
theorem note_elsewhere {v : WalletName}
    (huniq : ∀ v g, σ.db.generation v = some g → σ.db.generation w = some g → v = w) (hw : w ≠ v)
    {session : Session} (hs : σ.db.sessions.lookup w = some session) {f : Ledger → Ledger} :
    σ.note (σ.db.generation v) f session.generation = σ.ledger session.generation :=
  Shared.note_ne fun hg => hw (huniq v _ hg (generation_of_lookup hs)).symm

/-- An entry that is there after a step. -/
theorem DbStep.entryStep {call call' : Call} (h : DbStep me call σ call' σ')
    (huniq : ∀ v g, σ.db.generation v = some g → σ.db.generation w = some g → v = w)
    (hfresh : ∀ v g, σ.db.generation v = some g → g < σ.db.nextGeneration) {session : Session}
    (hs : σ'.db.sessions.lookup w = some session) : EntryStep me w call σ call' σ' session := by
  cases h with
  | same hdb hledger => exact .kept (hdb ▸ hs) (by rw [hledger])
  | setPath _ hset =>
    unfold DbState.setDatabasePath at hset
    split at hset <;> cases hset
    exact .kept hs rfl
  | countError _ hcount =>
    obtain ⟨db, rfl, rfl | ⟨rfl, -⟩⟩ := Shared.count_error hcount <;> exact .kept hs rfl
  | @count u _ g _ _ hpos hcount =>
    have hcount' := hcount
    obtain ⟨db, files, rfl, hacq, -⟩ := Shared.count_ok hcount
    have hlookup := DbState.acquireSession_lookup hacq w
    rw [hs] at hlookup
    by_cases hw : w = u.walletName
    · subst hw
      rw [if_pos rfl] at hlookup
      obtain rfl := Option.some.inj hlookup
      exact .counted hpos rfl hcount' (Prod.mk.inj hacq).1 rfl (by simp)
    · rw [if_neg hw] at hlookup
      refine .kept hlookup.symm ?_
      dsimp only
      refine Shared.note_ne fun hg => ?_
      obtain rfl := Option.some.inj hg
      have hold := generation_of_lookup hlookup.symm
      rcases DbState.acquireSession_fresh hacq with ⟨-, hnext, -⟩ | ⟨hsome, -⟩
      · exact absurd (hfresh w _ hold) (by simp [hnext])
      · exact hw (huniq _ _ hsome hold).symm
  | @release l _ _ _ _ hpos hrel _ =>
    obtain ⟨db, hone, rfl⟩ := Shared.releaseSession_eq hrel
    by_cases hw : w = l.walletName
    · subst hw
      rcases DbState.releaseOne_cases hone with ⟨hnone, -, rfl⟩ | ⟨old, rest, hold, -, hc, hg, rfl⟩ |
        ⟨old, -, -, -, rfl⟩
      · rw [hs] at hnone
        cases hnone
      · simp only [AList.lookup_insert, Option.some.injEq] at hs
        subst hs
        refine .lowered hpos rfl hold hc hg ?_
        rw [generation_of_lookup hold]
        simp
      · simp [DbState.removeSession_lookup] at hs
    · have hold := lookup_of_releaseOne hone hw hs
      exact .kept hold (by simpa using note_elsewhere huniq hw hold)
  | @giveBack u _ g e _ _ _ hpos hgive _ =>
    rcases Shared.releaseFailed_eq hgive with ⟨hgen, db, hone, rfl⟩ | ⟨-, -, rfl⟩
    · by_cases hw : w = u.walletName
      · subst hw
        rcases DbState.releaseOne_cases hone with ⟨hnone, -, rfl⟩ |
          ⟨old, rest, hold, -, hc, hg, rfl⟩ | ⟨old, -, -, -, rfl⟩
        · rw [hs] at hnone
          cases hnone
        · simp only [AList.lookup_insert, Option.some.injEq] at hs
          subst hs
          obtain rfl := Option.some.inj (hgen.symm.trans (generation_of_lookup hold))
          exact .givenBack hpos rfl hold hc hg (by simp)
        · simp [DbState.removeSession_lookup] at hs
      · have hold := lookup_of_releaseOne hone hw hs
        refine .kept hold ?_
        rw [← hgen]
        simpa using note_elsewhere huniq hw hold
    · exact .kept hs rfl
  | @remove _ _ v _ _ =>
    have hlookup := DbState.removeSession_lookup σ.db v w
    rw [show (σ.db.removeSession v).sessions.lookup w = some session from hs] at hlookup
    by_cases hw : w = v
    · rw [if_pos hw] at hlookup
      cases hlookup
    · rw [if_neg hw] at hlookup
      exact .kept hlookup.symm (by
        simpa [Shared.removeSession] using note_elsewhere huniq hw hlookup.symm)

/-! ## Behind every count -/

/-- The ledger of `w`'s entry accounts for its count. -/
structure EntrySound (s : World) (w : WalletName) (session : Session) : Prop where
  counted : ∀ c ∈ (s.shared.ledger session.generation).counted, ∃ u,
    s.calls c = some (.unlockWallet u) ∧ u.walletName = w ∧
      u.pos.generation = some session.generation
  nodup : (s.shared.ledger session.generation).counted.Nodup
  count_le : session.count + (s.shared.ledger session.generation).locked.length +
    (s.shared.ledger session.generation).givenBack.length ≤
      (s.shared.ledger session.generation).counted.length

theorem DbStep.nextGeneration_le {call call' : Call} (h : DbStep me call σ call' σ') :
    σ.db.nextGeneration ≤ σ'.db.nextGeneration := by
  cases h with
  | same hdb _ => rw [hdb]
  | setPath _ hset =>
    unfold DbState.setDatabasePath at hset
    split at hset <;> cases hset
    exact Nat.le_refl _
  | countError _ hcount =>
    obtain ⟨db, rfl, rfl | ⟨rfl, -⟩⟩ := Shared.count_error hcount <;> exact Nat.le_refl _
  | count _ hcount =>
    obtain ⟨db, files, rfl, hacq, -⟩ := Shared.count_ok hcount
    rcases DbState.acquireSession_fresh hacq with ⟨-, -, hfresh⟩ | ⟨-, hle⟩
    · simp [hfresh]
    · exact hle
  | release _ hrel _ =>
    obtain ⟨db, hone, rfl⟩ := Shared.releaseSession_eq hrel
    exact Nat.le_of_eq (DbState.releaseOne_nextGeneration hone).symm
  | giveBack _ hgive _ =>
    rcases Shared.releaseFailed_eq hgive with ⟨-, db, hone, rfl⟩ | ⟨-, -, rfl⟩
    · exact Nat.le_of_eq (DbState.releaseOne_nextGeneration hone).symm
    · exact Nat.le_refl _
  | @remove _ _ v _ _ => exact Nat.le_of_eq (DbState.removeSession_nextGeneration σ.db v).symm

/-- What is noted is noted of an entry's generation. -/
theorem DbStep.ledger_eq {call call' : Call} (h : DbStep me call σ call' σ')
    (hfresh : ∀ v g, σ.db.generation v = some g → g < σ.db.nextGeneration) {g : Nat}
    (hg : σ'.db.nextGeneration ≤ g) : σ'.ledger g = σ.ledger g := by
  have hle := Nat.le_trans h.nextGeneration_le hg
  have hentry (v : WalletName) : σ.db.generation v ≠ some g := fun hv =>
    absurd (hfresh v g hv) (Nat.not_lt.mpr hle)
  cases h with
  | same _ hledger => rw [hledger]
  | setPath _ _ => rfl
  | countError _ hcount =>
    obtain ⟨db, rfl, -⟩ := Shared.count_error hcount
    rfl
  | @count u _ g' _ _ _ hcount =>
    obtain ⟨db, files, rfl, hacq, -⟩ := Shared.count_ok hcount
    dsimp only
    refine Shared.note_ne fun heq => ?_
    obtain rfl := Option.some.inj heq
    rcases DbState.acquireSession_fresh hacq with ⟨-, rfl, hnext⟩ | ⟨hsome, -⟩
    · simp only [hnext] at hg
      omega
    · exact hentry _ hsome
  | release _ hrel _ =>
    obtain ⟨db, hone, rfl⟩ := Shared.releaseSession_eq hrel
    dsimp only
    exact Shared.note_ne (hentry _)
  | giveBack _ hgive _ =>
    rcases Shared.releaseFailed_eq hgive with ⟨hgen, db, hone, rfl⟩ | ⟨-, -, rfl⟩
    · dsimp only
      exact Shared.note_ne (hgen ▸ hentry _)
    · rfl
  | @remove _ _ v _ _ =>
    simp only [Shared.removeSession]
    exact Shared.note_ne (hentry v)

/-- No generation that is still to come has a history. -/
theorem ledger_unused (h : system.Reach ok s) :
    ∀ g, s.shared.db.nextGeneration ≤ g → s.shared.ledger g = {} := by
  refine h.invariant (I := fun s => ∀ g, s.shared.db.nextGeneration ≤ g → s.shared.ledger g = {})
    ?_ ?_ ?_
  · rintro σ ⟨files, tariCommon, rfl⟩ g _
    rfl
  · intro s c l _ ih _ _ _
    exact ih
  · rintro s c l l' σ' hs ih _ _ ⟨ch, hstep⟩ g hg
    have hdb := Call.dbStep hstep
    rw [Config.put_shared, hdb.ledger_eq (fun v g => generation_lt hs) hg]
    exact ih g (Nat.le_trans hdb.nextGeneration_le hg)

/-- An unlock goes on being the unlock it is, whoever moves. -/
theorem unlockWallet_put {m : CallId} {l l' : Call} {σ' : Shared} (hm : s.calls m = some l)
    (hstep : l.next m ch s.shared = some (l', σ')) {c : CallId} {u : UnlockWallet}
    (hc : s.calls c = some (.unlockWallet u)) :
    ∃ u', (s.put m l' σ').calls c = some (.unlockWallet u') ∧ u'.path = u.path ∧
      u'.walletName = u.walletName ∧ ∀ g, u.pos.generation = some g → u'.pos.generation = some g := by
  by_cases hcm : c = m
  · subst hcm
    obtain rfl := Option.some.inj (hm.symm.trans hc)
    obtain ⟨u', rfl, hnext⟩ := Call.next_unlockWallet hstep
    obtain ⟨hpath, hname, -, hgen⟩ := UnlockWallet.next_same hnext
    exact ⟨u', Config.put_calls_self _ _ _ _, hpath, hname, hgen⟩
  · exact ⟨u, by rw [Config.put_calls_ne _ _ _ hcm]; exact hc, rfl, rfl, fun _ hg => hg⟩

theorem entry_sound (h : system.Reach ok s) :
    ∀ w session, s.shared.db.sessions.lookup w = some session → EntrySound s w session := by
  refine h.invariant (I := fun s => ∀ w session, s.shared.db.sessions.lookup w = some session →
    EntrySound s w session) ?_ ?_ ?_
  · rintro σ ⟨files, tariCommon, rfl⟩ w session hs
    cases hs
  · intro s c l _ ih _ hfree _ w session hlookup
    obtain ⟨hcounted, hnodup, hle⟩ := ih w session hlookup
    refine ⟨fun d hd => ?_, hnodup, hle⟩
    obtain ⟨u, hu, hrest⟩ := hcounted d hd
    exact ⟨u, Config.put_calls_of_free hfree hu, hrest⟩
  · rintro s m l l' σ' hs ih _ hm ⟨ch, hstep⟩ w session hlookup
    have keep {g : Nat} (hcounted : ∀ c ∈ (s.shared.ledger g).counted, ∃ u,
        s.calls c = some (.unlockWallet u) ∧ u.walletName = w ∧ u.pos.generation = some g) :
        ∀ c ∈ (s.shared.ledger g).counted, ∃ u,
          (s.put m l' σ').calls c = some (.unlockWallet u) ∧ u.walletName = w ∧
            u.pos.generation = some g := by
      intro c hc
      obtain ⟨u, hu, hname, hg⟩ := hcounted c hc
      obtain ⟨u', hu', -, hname', hgen⟩ := unlockWallet_put hm hstep hu
      exact ⟨u', hu', hname'.trans hname, hgen _ hg⟩
    cases (Call.dbStep hstep).entryStep (fun v g => generation_unique hs v w g)
        (fun v g => generation_lt hs) hlookup with
    | kept hold hledger =>
      obtain ⟨hcounted, hnodup, hle⟩ := ih w session hold
      refine ⟨?_, ?_, ?_⟩ <;> rw [Config.put_shared, hledger]
      · exact keep hcounted
      · exact hnodup
      · exact hle
    | @counted u _ g _ _ _ hpos hname _ hg hsession hledger =>
      -- What the ledger said before: nothing, or what the entry's soundness says.
      have hbefore : (∀ c ∈ (s.shared.ledger g).counted, ∃ u,
          s.calls c = some (.unlockWallet u) ∧ u.walletName = w ∧ u.pos.generation = some g) ∧
          (s.shared.ledger g).counted.Nodup ∧
          session.count + (s.shared.ledger g).locked.length +
            (s.shared.ledger g).givenBack.length ≤ (s.shared.ledger g).counted.length + 1 := by
        cases hold : s.shared.db.sessions.lookup w with
        | none =>
          rw [hold] at hsession
          subst hsession
          have hempty := ledger_unused hs g (Nat.le_of_eq hg)
          simp [hempty, DbState.acquired, saturatingAdd, u32Max]
        | some old =>
          rw [hold] at hsession
          subst hsession
          obtain rfl : old.generation = g := hg
          obtain ⟨hcounted, hnodup, hle⟩ := ih w old hold
          refine ⟨hcounted, hnodup, ?_⟩
          have hsat : saturatingAdd old.count 1 ≤ old.count + 1 := Nat.min_le_left _ _
          simp only [DbState.acquired]
          omega
      obtain ⟨hcounted, hnodup, hle⟩ := hbefore
      refine ⟨?_, ?_, ?_⟩ <;> rw [Config.put_shared, hg, hledger]
      · intro c hc
        rcases List.mem_cons.mp hc with rfl | hc
        · exact ⟨_, Config.put_calls_self _ _ _ _, hname, rfl⟩
        · exact keep hcounted c hc
      · refine List.nodup_cons.mpr ⟨fun hmem => ?_, hnodup⟩
        obtain ⟨u', hu', -, hgen⟩ := hcounted m hmem
        obtain rfl := Call.unlockWallet.inj (Option.some.inj (hm.symm.trans hu'))
        rw [hpos] at hgen
        cases hgen
      · simp only [List.length_cons]
        omega
    | lowered _ _ hold hc hg hledger =>
      obtain ⟨hcounted, hnodup, hle⟩ := ih w _ hold
      refine ⟨?_, ?_, ?_⟩ <;> rw [Config.put_shared, hg, hledger]
      · exact keep hcounted
      · exact hnodup
      · simp only [List.length_cons]
        omega
    | givenBack _ _ hold hc hg hledger =>
      obtain ⟨hcounted, hnodup, hle⟩ := ih w _ hold
      refine ⟨?_, ?_, ?_⟩ <;> rw [Config.put_shared, hg, hledger]
      · exact keep hcounted
      · exact hnodup
      · simp only [List.length_cons]
        omega

/-! ## Unlocks that gave up -/

/-- A ledger is only ever added to. -/
structure Ledger.Grows (l l' : Ledger) : Prop where
  counted : l.counted ⊆ l'.counted
  locked : l.locked ⊆ l'.locked
  givenBack : l.givenBack ⊆ l'.givenBack
  removed : l.removed ⊆ l'.removed

theorem Ledger.Grows.refl (l : Ledger) : l.Grows l :=
  ⟨List.Subset.refl _, List.Subset.refl _, List.Subset.refl _, List.Subset.refl _⟩

theorem Shared.note_grows {f : Ledger → Ledger} (hf : ∀ l : Ledger, l.Grows (f l)) (σ : Shared)
    (g : Option Nat) (g' : Nat) : (σ.ledger g').Grows (σ.note g f g') := by
  by_cases h : g = some g'
  · rw [h, Shared.note_self]
    exact hf _
  · rw [Shared.note_ne h]
    exact .refl _

theorem Ledger.grows_counted (c : CallId) (l : Ledger) :
    l.Grows { l with counted := c :: l.counted } :=
  ⟨List.subset_cons_self _ _, List.Subset.refl _, List.Subset.refl _, List.Subset.refl _⟩

theorem Ledger.grows_locked (c : CallId) (l : Ledger) :
    l.Grows { l with locked := c :: l.locked } :=
  ⟨List.Subset.refl _, List.subset_cons_self _ _, List.Subset.refl _, List.Subset.refl _⟩

theorem Ledger.grows_givenBack (c : CallId) (l : Ledger) :
    l.Grows { l with givenBack := c :: l.givenBack } :=
  ⟨List.Subset.refl _, List.Subset.refl _, List.subset_cons_self _ _, List.Subset.refl _⟩

theorem Ledger.grows_removed (c : CallId) (l : Ledger) :
    l.Grows { l with removed := c :: l.removed } :=
  ⟨List.Subset.refl _, List.Subset.refl _, List.Subset.refl _, List.subset_cons_self _ _⟩

theorem DbStep.ledger_grows {call call' : Call} (h : DbStep me call σ call' σ') (g : Nat) :
    (σ.ledger g).Grows (σ'.ledger g) := by
  cases h with
  | same _ hledger =>
    rw [hledger]
    exact .refl _
  | setPath _ _ => exact .refl _
  | countError _ hcount =>
    obtain ⟨db, rfl, -⟩ := Shared.count_error hcount
    exact .refl _
  | count _ hcount =>
    obtain ⟨db, files, rfl, -, -⟩ := Shared.count_ok hcount
    dsimp only
    exact Shared.note_grows (Ledger.grows_counted me) σ _ g
  | release _ hrel _ =>
    obtain ⟨db, -, rfl⟩ := Shared.releaseSession_eq hrel
    exact Shared.note_grows (Ledger.grows_locked me) σ _ g
  | giveBack _ hgive _ =>
    rcases Shared.releaseFailed_eq hgive with ⟨-, db, -, rfl⟩ | ⟨-, -, rfl⟩
    · dsimp only
      exact Shared.note_grows (Ledger.grows_givenBack me) σ _ g
    · exact .refl _
  | remove _ => exact Shared.note_grows (Ledger.grows_removed me) σ _ g

theorem UnlockAt.generation_of_gaveUp {p : UnlockAt} {g : Nat} (h : p.gaveUp = some g) :
    p.generation = some g := by
  cases p with
  | lockHeld _ _ _ => exact h
  | leave _ r => cases r <;> first | exact h | cases h
  | returned _ r => cases r <;> first | exact h | cases h
  | _ => cases h

/-- An unlock's generation is not still to come. -/
theorem unlock_generation_lt (h : system.Reach ok s) {c : CallId} {u : UnlockWallet} {g : Nat}
    (hc : s.calls c = some (.unlockWallet u)) (hg : u.pos.generation = some g) :
    g < s.shared.db.nextGeneration := by
  refine h.outline (A := fun _ l σ => ∀ u g, l = .unlockWallet u → u.pos.generation = some g →
    g < σ.db.nextGeneration) ?_ ?_ ?_ hc u g rfl hg
  · rintro s c l _ _ hstart u g rfl hg
    simp only [system, Call.starts, decide_eq_true_eq] at hstart
    rw [hstart] at hg
    cases hg
  · rintro s c l l' σ' hs _ _ hA ⟨ch, hstep⟩ u' g rfl hg
    obtain ⟨u, rfl, hnext⟩ := Call.of_next_unlockWallet hstep
    rcases UnlockWallet.next_generation hnext hg with hold | ⟨-, -, hcount⟩
    · exact Nat.lt_of_lt_of_le (hA u g rfl hold) (Call.dbStep hstep).nextGeneration_le
    · obtain ⟨db, files, rfl, hacq, -⟩ := Shared.count_ok hcount
      rcases DbState.acquireSession_fresh hacq with ⟨-, rfl, hfresh⟩ | ⟨hsome, hle⟩
      · simp [hfresh]
      · exact Nat.lt_of_lt_of_le (generation_lt hs hsome) hle
  · rintro s c l l' σ' d m _ _ _ _ ⟨ch, hstep⟩ _ _ hB u g hu hg
    exact Nat.lt_of_lt_of_le (hB u g hu hg) (Call.dbStep hstep).nextGeneration_le

/-- A generation that is over for a wallet does not come back. -/
theorem generation_of_put {c : CallId} {l l' : Call} {σ' : Shared}
    (hstep : l.next c ch s.shared = some (l', σ')) {g : Nat} (hg : g < s.shared.db.nextGeneration)
    (hgen : σ'.db.generation w = some g) : s.shared.db.generation w = some g := by
  rcases (Call.dbStep hstep).generation_origin hgen with hold | ⟨-, rfl, -⟩
  · exact hold
  · exact absurd hg (Nat.lt_irrefl _)

/-- An `unlock_wallet` that failed after it was counted gave its count back, unless its generation is
gone. -/
theorem gaveUp_accounted (h : system.Reach ok s) {c : CallId} {u : UnlockWallet} {g : Nat}
    (hc : s.calls c = some (.unlockWallet u)) (hg : u.pos.gaveUp = some g)
    (hgen : s.shared.db.generation u.walletName = some g) :
    c ∈ (s.shared.ledger g).givenBack := by
  refine h.outline (A := fun c l σ => ∀ u g, l = .unlockWallet u → u.pos.gaveUp = some g →
    g < σ.db.nextGeneration ∧ (σ.db.generation u.walletName = some g →
      c ∈ (σ.ledger g).givenBack)) ?_ ?_ ?_ hc u g rfl hg |>.2 hgen
  · rintro s c l _ _ hstart u g rfl hg
    simp only [system, Call.starts, decide_eq_true_eq] at hstart
    rw [hstart] at hg
    cases hg
  · rintro s c l l' σ' hs _ hc hA ⟨ch, hstep⟩ u' g rfl hg
    obtain ⟨u, rfl, hnext⟩ := Call.of_next_unlockWallet hstep
    obtain ⟨-, hname, -, -⟩ := UnlockWallet.next_same hnext
    have hlt : g < s.shared.db.nextGeneration := by
      rcases UnlockWallet.next_generation hnext (UnlockAt.generation_of_gaveUp hg) with
        hold | ⟨-, rfl, -⟩
      · exact unlock_generation_lt hs hc hold
      · cases hg
    refine ⟨Nat.lt_of_lt_of_le hlt (Call.dbStep hstep).nextGeneration_le, fun hgen => ?_⟩
    rw [hname] at hgen
    have hold := generation_of_put hstep hlt hgen
    rcases UnlockWallet.next_gaveUp hnext hg with hbefore | ⟨zero, hgive⟩ | ⟨-, hgone, -⟩
    · exact ((Call.dbStep hstep).ledger_grows g).givenBack ((hA u g rfl hbefore).2 hold)
    · rcases Shared.releaseFailed_eq hgive with ⟨-, db, -, rfl⟩ | ⟨hgone, -, -⟩
      · simp
      · exact absurd hold hgone
    · exact absurd hold hgone
  · rintro s c l l' σ' d m hs _ _ _ ⟨ch, hstep⟩ _ _ hB u g hu hg
    obtain ⟨hlt, hin⟩ := hB u g hu hg
    refine ⟨Nat.lt_of_lt_of_le hlt (Call.dbStep hstep).nextGeneration_le, fun hgen => ?_⟩
    exact ((Call.dbStep hstep).ledger_grows g).givenBack (hin (generation_of_put hstep hlt hgen))

/-- Behind every entry stands an unlock that was counted into it and has not given up. -/
theorem exists_standing (h : system.Reach ok s) {session : Session}
    (hs : s.shared.db.sessions.lookup w = some session) :
    ∃ c u, s.calls c = some (.unlockWallet u) ∧ u.walletName = w ∧
      u.pos.generation = some session.generation ∧ u.pos.gaveUp ≠ some session.generation := by
  obtain ⟨hcounted, hnodup, hle⟩ := entry_sound h w session hs
  by_contra hnone
  -- If all had given up, the ledger would leave nothing to count.
  have hall : (s.shared.ledger session.generation).counted ⊆
      (s.shared.ledger session.generation).givenBack := by
    intro c hc
    obtain ⟨u, hu, hname, hg⟩ := hcounted c hc
    by_cases hgave : u.pos.gaveUp = some session.generation
    · exact gaveUp_accounted h hu hgave (hname ▸ generation_of_lookup hs)
    · exact absurd ⟨c, u, hu, hname, hg, hgave⟩ hnone
  have hlength := (hnodup.subperm hall).length_le
  have hpos := session.counted
  omega

end CwTariWallet
