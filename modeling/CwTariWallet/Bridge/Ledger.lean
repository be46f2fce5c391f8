/-
# CwTariWallet.Bridge.Ledger -- the four fields of `DB_STATE` stay in step

Recorded path, pool, counts and the generation counter are changed by six critical sections, several of
which return early.  Whatever is called in whatever order, the pool is open just while a wallet is
counted, an entry's count is what its ledger leaves, and a generation is never used twice
(`db_ledger`).
-/
import CwTariWallet.Bridge.Holders

namespace CwTariWallet

open Interleaving

variable {ok : Guard Shared Call} {s : World} {w : WalletName}
variable {me : CallId} {ch : Choice} {σ σ' : Shared}

/-! ## The pool -/

/-- The pool is open only while a wallet is counted. -/
def DbState.OpenForWallets (db : DbState) : Prop :=
  db.openDatabase.isSome = true → Table.isEmpty db.sessions = false

theorem DbState.OpenForWallets.removeSession {db : DbState} (h : db.OpenForWallets) (w : WalletName) :
    (db.removeSession w).OpenForWallets := by
  unfold DbState.removeSession
  cases hold : db.sessions.lookup w with
  | none =>
    -- Nothing is removed, so the map is as empty as it was.
    intro hopen
    obtain ⟨v, session, hv⟩ := (Table.isEmpty_eq_false_iff _).mp (h hopen)
    refine (Table.isEmpty_eq_false_iff _).mpr ⟨v, session, ?_⟩
    have hne : v ≠ w := by
      intro hvw
      rw [hvw, hold] at hv
      cases hv
    show (db.sessions.erase w).lookup v = some session
    rw [Table.lookup_erase_eq, if_neg hne]
    exact hv
  | some session =>
    simp only [Option.isSome_some, Bool.true_and]
    split
    · intro hopen
      cases hopen
    · rename_i hempty
      intro _
      exact Bool.eq_false_iff.mpr hempty

theorem DbState.OpenForWallets.releaseOne {db db' : DbState} {w : WalletName} {zero : Bool}
    (h : db.OpenForWallets) (hrel : db.releaseOne w = (zero, db')) : db'.OpenForWallets := by
  rcases DbState.releaseOne_cases hrel with ⟨-, -, rfl⟩ | ⟨session, rest, -, -, -, -, rfl⟩ |
    ⟨session, -, -, -, rfl⟩
  · exact h
  · exact fun _ => Table.isEmpty_insert _ _ _
  · exact h.removeSession w

theorem DbStep.openForWallets {call call' : Call} (h : DbStep me call σ call' σ')
    (hdb : σ.db.OpenForWallets) : σ'.db.OpenForWallets := by
  cases h with
  | same heq _ =>
    rw [heq]
    exact hdb
  | setPath _ hset =>
    unfold DbState.setDatabasePath at hset
    split at hset <;> cases hset
    exact hdb
  | countError _ hcount =>
    obtain ⟨db, rfl, rfl | ⟨rfl, -⟩⟩ := Shared.count_error hcount
    · exact hdb
    · intro hopen
      cases hopen
  | count _ hcount =>
    obtain ⟨db, files, rfl, hacq, -⟩ := Shared.count_ok hcount
    obtain ⟨-, rfl⟩ := Prod.mk.inj hacq
    exact fun _ => Table.isEmpty_insert _ _ _
  | release _ hrel _ =>
    obtain ⟨db, hone, rfl⟩ := Shared.releaseSession_eq hrel
    exact hdb.releaseOne hone
  | giveBack _ hgive _ =>
    rcases Shared.releaseFailed_eq hgive with ⟨-, db, hone, rfl⟩ | ⟨-, -, rfl⟩
    · exact hdb.releaseOne hone
    · exact hdb
  | remove _ => exact hdb.removeSession _

theorem db_openForWallets (h : system.Reach ok s) : s.shared.db.OpenForWallets := by
  refine h.invariant (I := fun s => s.shared.db.OpenForWallets) ?_ ?_ ?_
  · rintro σ ⟨files, tariCommon, rfl⟩ hopen
    cases hopen
  · intro s c l _ ih _ _ _
    exact ih
  · rintro s c l l' σ' _ ih _ _ ⟨ch, hstep⟩
    exact (Call.dbStep hstep).openForWallets ih

/-- Removing an entry closes the pool, or leaves it. -/
theorem DbState.removeSession_openDatabase {db : DbState} {w : WalletName}
    (hleft : Table.isEmpty (db.removeSession w).sessions = false) :
    (db.removeSession w).openDatabase = db.openDatabase := by
  unfold removeSession at hleft ⊢
  dsimp only at hleft ⊢
  split at hleft
  · rename_i hclose
    simp only [Bool.and_eq_true] at hclose
    rw [closePool_sessions, hclose.2] at hleft
    cases hleft
  · rename_i hkeep
    rw [if_neg hkeep]

theorem DbState.releaseOne_openDatabase {db db' : DbState} {w : WalletName} {zero : Bool}
    (h : db.releaseOne w = (zero, db')) (hleft : Table.isEmpty db'.sessions = false) :
    db'.openDatabase = db.openDatabase := by
  rcases DbState.releaseOne_cases h with ⟨-, -, rfl⟩ | ⟨session, rest, -, -, -, -, rfl⟩ |
    ⟨session, -, -, -, rfl⟩
  · rfl
  · rfl
  · exact DbState.removeSession_openDatabase hleft

/-- While some wallet is counted the pool stays the one it is. -/
theorem DbStep.openDatabase_eq {call call' : Call} (h : DbStep me call σ call' σ')
    (hdb : σ.db.Coherent) (hbefore : Table.isEmpty σ.db.sessions = false)
    (hafter : Table.isEmpty σ'.db.sessions = false) : σ'.db.openDatabase = σ.db.openDatabase := by
  cases h with
  | same heq _ => rw [heq]
  | setPath _ hset =>
    unfold DbState.setDatabasePath at hset
    split at hset <;> cases hset
    rfl
  | countError _ hcount =>
    obtain ⟨db, rfl, rfl | ⟨rfl, hempty⟩⟩ := Shared.count_error hcount
    · rfl
    · rw [hempty] at hbefore
      cases hbefore
  | count _ hcount =>
    obtain ⟨db, files, rfl, hacq, hpool⟩ := Shared.count_ok hcount
    obtain ⟨-, rfl⟩ := Prod.mk.inj hacq
    rcases hpool with hopen | hclosed | hempty
    · exact hopen.symm
    · have hopen := hdb.pool hbefore
      rw [hclosed] at hopen
      cases hopen
    · rw [hempty] at hbefore
      cases hbefore
  | release _ hrel _ =>
    obtain ⟨db, hone, rfl⟩ := Shared.releaseSession_eq hrel
    exact DbState.releaseOne_openDatabase hone hafter
  | giveBack _ hgive _ =>
    rcases Shared.releaseFailed_eq hgive with ⟨-, db, hone, rfl⟩ | ⟨-, -, rfl⟩
    · exact DbState.releaseOne_openDatabase hone hafter
    · rfl
  | remove _ => exact DbState.removeSession_openDatabase hafter

/-! ## Generations are used once -/

theorem nextGeneration_steps {t : World} (ht : system.Steps ok s t) :
    s.shared.db.nextGeneration ≤ t.shared.db.nextGeneration := by
  induction ht with
  | refl => exact Nat.le_refl _
  | move _ _ hmove ih =>
    cases hmove with
    | start _ _ => exact ih
    | step _ hst =>
      obtain ⟨ch, hst⟩ := hst
      exact Nat.le_trans ih (Call.dbStep hst).nextGeneration_le

/-- The generation of an entry that opens now is one no entry ever had. -/
theorem generation_fresh (h : system.Reach ok s) {t t' : World} {e : Event Call}
    (ht : system.Steps ok s t) (hmove : system.Move e t t') {g : Nat}
    (hafter : t'.shared.db.generation w = some g) (hbefore : t.shared.db.generation w ≠ some g)
    (v : WalletName) : s.shared.db.generation v ≠ some g := by
  intro hv
  have hlt := generation_lt h hv
  have hle := nextGeneration_steps ht
  cases hmove with
  | start _ _ => exact hbefore hafter
  | step _ hst =>
    obtain ⟨ch, hst⟩ := hst
    rcases (Call.dbStep hst).generation_origin hafter with hold | ⟨-, hg, -⟩
    · exact hbefore hold
    · omega

/-! ## The count of an entry -/

/-- No count goes beyond a `u32`. -/
def countsInRange (e : Event Call) (s : World) : Prop :=
  ∀ c u session, e = .step c → s.calls c = some (.unlockWallet u) → u.pos = .count →
    s.shared.db.sessions.lookup u.walletName = some session → session.count < u32Max

/-- An entry's count is what its ledger leaves of it. -/
def Ledger.Leaves (l : Ledger) (count : Nat) : Prop :=
  count + l.locked.length + l.givenBack.length = l.counted.length

theorem ledger_leaves (h : system.Reach countsInRange s) :
    ∀ w session, s.shared.db.sessions.lookup w = some session →
      (s.shared.ledger session.generation).Leaves session.count := by
  refine h.invariant (I := fun s => ∀ w session, s.shared.db.sessions.lookup w = some session →
    (s.shared.ledger session.generation).Leaves session.count) ?_ ?_ ?_
  · rintro σ ⟨files, tariCommon, rfl⟩ w session hs
    cases hs
  · intro s c l _ ih _ _ _
    exact ih
  · rintro s m l l' σ' hs ih hok hm ⟨ch, hstep⟩ w session hlookup
    show (σ'.ledger session.generation).Leaves session.count
    cases (Call.dbStep hstep).entryStep (fun v g => generation_unique hs v w g)
        (fun v g => generation_lt hs) hlookup with
    | kept hold hledger =>
      rw [hledger]
      exact ih w session hold
    | @counted u _ g _ _ _ hpos hname _ hg hsession hledger =>
      subst hname
      rw [hg, hledger]
      cases hold : s.shared.db.sessions.lookup u.walletName with
      | none =>
        -- The first of its generation.
        rw [hold] at hsession
        subst hsession
        have hempty := ledger_unused hs g (Nat.le_of_eq hg)
        rw [hempty]
        rfl
      | some old =>
        rw [hold] at hsession
        subst hsession
        have hgen : old.generation = g := hg
        have hleaves := ih _ old hold
        have hroom := hok m u old rfl hm hpos hold
        have hsat : saturatingAdd old.count 1 = old.count + 1 := Nat.min_eq_left hroom
        rw [hgen] at hleaves
        simp only [Ledger.Leaves, DbState.acquired, List.length_cons] at hleaves ⊢
        omega
    | lowered _ _ hold hc hg hledger =>
      have hleaves := ih w _ hold
      rw [hg, hledger]
      simp only [Ledger.Leaves, List.length_cons] at hleaves ⊢
      omega
    | givenBack _ _ hold hc hg hledger =>
      have hleaves := ih w _ hold
      rw [hg, hledger]
      simp only [Ledger.Leaves, List.length_cons] at hleaves ⊢
      omega

/-! ## What failed unlocks give back -/

/-- Only a failing unlock gives back, once, into the generation it was counted into. -/
structure World.GivenBack (s : World) (g : Nat) : Prop where
  failed : ∀ c ∈ (s.shared.ledger g).givenBack, ∃ u,
    s.calls c = some (.unlockWallet u) ∧ u.pos.gaveUp = some g
  once : (s.shared.ledger g).givenBack.Nodup

/-- A ledger gets a failed unlock when that unlock gives its count back, and at no other time. -/
theorem DbStep.givenBack_eq {call call' : Call} (h : DbStep me call σ call' σ') (g : Nat) :
    (σ'.ledger g).givenBack = (σ.ledger g).givenBack ∨
      (σ'.ledger g).givenBack = me :: (σ.ledger g).givenBack ∧
        ∃ u e, call = .unlockWallet u ∧ u.pos = .failed g e := by
  have hnote (g' : Option Nat) (f : Ledger → Ledger) (hf : ∀ l, (f l).givenBack = l.givenBack) :
      (σ.note g' f g).givenBack = (σ.ledger g).givenBack := by
    by_cases hg : g' = some g
    · rw [hg, Shared.note_self]
      exact hf _
    · rw [Shared.note_ne hg]
  cases h with
  | same _ hledger => exact Or.inl (by rw [hledger])
  | setPath _ _ => exact Or.inl rfl
  | countError _ hcount =>
    obtain ⟨db, rfl, -⟩ := Shared.count_error hcount
    exact Or.inl rfl
  | count _ hcount =>
    obtain ⟨db, files, rfl, -, -⟩ := Shared.count_ok hcount
    exact Or.inl (hnote _ _ fun _ => rfl)
  | release _ hrel _ =>
    obtain ⟨db, -, rfl⟩ := Shared.releaseSession_eq hrel
    exact Or.inl (hnote _ _ fun _ => rfl)
  | @giveBack u _ g' e _ _ _ hpos hgive _ =>
    rcases Shared.releaseFailed_eq hgive with ⟨-, db, -, rfl⟩ | ⟨-, -, rfl⟩
    · by_cases hg : g' = g
      · subst hg
        exact Or.inr ⟨by simp, u, e, rfl, hpos⟩
      · refine Or.inl ?_
        dsimp only
        rw [Shared.note_ne fun heq => hg (Option.some.inj heq)]
    · exact Or.inl rfl
  | remove _ => exact Or.inl (hnote _ _ fun _ => rfl)

theorem givenBack (h : system.Reach ok s) (g : Nat) : s.GivenBack g := by
  refine h.invariant (I := fun s : World => s.GivenBack g) ?_ ?_ ?_
  · rintro σ ⟨files, tariCommon, rfl⟩
    refine ⟨?_, List.nodup_nil⟩
    intro c hc
    cases hc
  · rintro (s : World) c l _ ⟨hfailed, honce⟩ _ hfree _
    refine ⟨fun d hd => ?_, honce⟩
    obtain ⟨u, hu, hgave⟩ := hfailed d hd
    exact ⟨u, Config.put_calls_of_free hfree hu, hgave⟩
  · rintro (s : World) m l l' σ' _ ⟨hfailed, honce⟩ _ hm ⟨ch, hstep⟩
    -- Who had given up stays an unlock that has.
    have hkept : ∀ c ∈ (s.shared.ledger g).givenBack, ∃ u,
        (s.put m l' σ').calls c = some (.unlockWallet u) ∧ u.pos.gaveUp = some g := by
      intro c hc
      obtain ⟨u, hu, hgave⟩ := hfailed c hc
      by_cases hcm : c = m
      · subst hcm
        obtain rfl := Option.some.inj (hm.symm.trans hu)
        obtain ⟨u', rfl, hnext⟩ := Call.next_unlockWallet hstep
        exact ⟨u', Config.put_calls_self _ _ _ _, UnlockWallet.gaveUp_next hnext hgave⟩
      · exact ⟨u, by rw [Config.put_calls_ne _ _ _ hcm]; exact hu, hgave⟩
    rcases (Call.dbStep hstep).givenBack_eq g with heq | ⟨heq, u, e, rfl, hpos⟩
    · refine ⟨?_, ?_⟩ <;> rw [Config.put_shared, heq]
      · exact hkept
      · exact honce
    · obtain ⟨u', rfl, hnext⟩ := Call.next_unlockWallet hstep
      refine ⟨?_, ?_⟩ <;> rw [Config.put_shared, heq]
      · intro c hc
        rcases List.mem_cons.mp hc with rfl | hc
        · exact ⟨u', Config.put_calls_self _ _ _ _, UnlockWallet.gaveUp_of_failed hnext hpos⟩
        · exact hkept c hc
      · refine List.nodup_cons.mpr ⟨fun hmem => ?_, honce⟩
        obtain ⟨u₀, hu₀, hgave⟩ := hfailed m hmem
        obtain rfl := Call.unlockWallet.inj (Option.some.inj (hm.symm.trans hu₀))
        rw [hpos] at hgave
        cases hgave

/-! ## The ledger invariant -/

/-- `DB_STATE` in every reachable configuration.  The pool is open just while some wallet has an entry, on
the recorded path, and no step that leaves an entry changes it; an entry counts at least one, under a
generation already handed out, and its count is the unlocks counted into the generation less the locks
and the failed unlocks' give-backs; an entry that opens later gets a generation that none has had; and an
unlock gives back at most once, into its own generation, and only when it fails. -/
theorem db_ledger (h : system.Reach countsInRange s) :
    (s.shared.db.openDatabase.isSome = true ↔
      ∃ w session, s.shared.db.sessions.lookup w = some session) ∧
    (∀ d, s.shared.db.openDatabase = some d → s.shared.db.path = some d.path) ∧
    (∀ e t, countsInRange e s → system.Move e s t → Table.isEmpty s.shared.db.sessions = false →
      Table.isEmpty t.shared.db.sessions = false →
        t.shared.db.openDatabase = s.shared.db.openDatabase) ∧
    (∀ w session, s.shared.db.sessions.lookup w = some session → 1 ≤ session.count ∧
      session.generation < s.shared.db.nextGeneration ∧
      session.count + (s.shared.ledger session.generation).locked.length +
        (s.shared.ledger session.generation).givenBack.length =
          (s.shared.ledger session.generation).counted.length) ∧
    (∀ e t t' w g, system.Steps countsInRange s t → system.Move e t t' →
      t'.shared.db.generation w = some g → t.shared.db.generation w ≠ some g →
        ∀ v, s.shared.db.generation v ≠ some g) ∧
    ∀ g, (s.shared.ledger g).givenBack.Nodup ∧ ∀ c ∈ (s.shared.ledger g).givenBack, ∃ u,
      s.calls c = some (.unlockWallet u) ∧ u.pos.gaveUp = some g := by
  refine ⟨?_, (db_coherent h).path, ?_, ?_, ?_, ?_⟩
  · rw [← Table.isEmpty_eq_false_iff]
    exact ⟨db_openForWallets h, (db_coherent h).pool⟩
  · intro e t _ hmove hbefore hafter
    cases hmove with
    | start _ _ => rfl
    | step _ hst =>
      obtain ⟨ch, hst⟩ := hst
      exact (Call.dbStep hst).openDatabase_eq (db_coherent h) hbefore hafter
  · intro w session hs
    exact ⟨session.counted, generation_lt h (generation_of_lookup hs), ledger_leaves h w session hs⟩
  · intro e t t' w g hsteps hmove hafter hbefore
    exact generation_fresh h hsteps hmove hafter hbefore
  · intro g
    obtain ⟨hfailed, honce⟩ := givenBack h g
    exact ⟨honce, hfailed⟩

/-- `countsInRange`, decided for a call about to move. -/
def Call.countInRange (σ : Shared) : Call → Bool
  | .unlockWallet u => u.pos ≠ .count ||
      (σ.db.sessions.lookup u.walletName).all fun session => decide (session.count < u32Max)
  | _ => true

def checksRange (e : Event Call) (s : World) : Bool :=
  match e with
  | .start _ _ => true
  | .step c => (s.calls c).all (Call.countInRange s.shared)

theorem checksRange_sound {e : Event Call} (h : checksRange e s = true) : countsInRange e s := by
  rintro c u session rfl hc hpos hlookup
  simpa [checksRange, Call.countInRange, hc, hpos, hlookup] using h

/-- Two unlocks of "main", of which the second has the wrong passphrase. -/
def unlockFailed : Option World :=
  (replay 2 checksRange).exec fresh (unlocks 0 firstPath ++
    .start 1 (.unlockWallet ⟨firstPath, "main", "wrong", .count⟩) :: go 1 5)

theorem db_ledger_unlockFailed : ∃ s session, unlockFailed = some s ∧
    s.shared.db.sessions.lookup "main" = some session ∧ s.shared.db.openDatabase.isSome = true ∧
      session.count + 0 + 1 = 2 := by
  obtain ⟨s, hs⟩ := Option.isSome_iff_exists.mp (by decide : unlockFailed.isSome = true)
  have facts : unlockFailed.map (fun s => ((s.shared.db.sessions.lookup "main").map (·.generation),
      (s.shared.ledger 0).counted.length, (s.shared.ledger 0).locked.length,
      (s.shared.ledger 0).givenBack.length)) = some (some 0, 2, 0, 1) := by decide
  simp only [hs, Option.map_some, Option.some.injEq, Prod.mk.injEq, Option.map_eq_some_iff] at facts
  obtain ⟨⟨session, hsession, hg⟩, hcounted, hlocked, hgiven⟩ := facts
  have hR : (replay 2 checksRange).Sound system countsInRange :=
    replay_sound fun e s _ h => checksRange_sound h
  obtain ⟨hopen, -, -, hentry, -, -⟩ := db_ledger (hR.reach fresh_init hs)
  obtain ⟨-, -, hcount⟩ := hentry "main" session hsession
  rw [hg, hlocked, hgiven, hcounted] at hcount
  exact ⟨s, session, hs, hsession, hopen.mpr ⟨"main", session, hsession⟩, hcount⟩

end CwTariWallet
