/-
# CwTariWallet.Bridge.Holders -- how long an unlock lasts

A client that unlocked a wallet wants to keep it until it locks it itself, or a force lock takes it
away.  `lock_wallet` names a wallet and no holder, so that takes clients which lock what they hold
(`holdsInPlace`): then an entry's count is exactly the unlocks that still stand behind it
(`entry_exact`), and no hold is lost (`hold_kept`).  A lock that comes after its hold is gone takes
another client's (`hold_lost`).
-/
import CwTariWallet.Bridge.Sessions

namespace CwTariWallet

open Interleaving

variable {ok : Guard Shared Call} {s : World} {w : WalletName}
variable {me : CallId} {ch : Choice} {σ σ' : Shared}

/-! ## Clients and their holds -/

/-- Call `c` is an `unlock_wallet` of `w` that was counted into generation `g` and returned `Ok`. -/
def World.Unlocked (s : World) (c : CallId) (w : WalletName) (g : Nat) : Prop :=
  ∃ u, s.calls c = some (.unlockWallet u) ∧ u.walletName = w ∧ u.pos = .returned (some g) (.ok ())

/-- The client of unlock `c` called `lock_wallet` for it, and that call took its state step. -/
def World.Unheld (s : World) (c : CallId) : Prop :=
  ∃ d l, s.calls d = some (.lockWallet l) ∧ l.holder = some c ∧ l.pos ≠ .release

def Call.isWithWalletLocked : Call → Bool
  | .withWalletLocked _ => true
  | _ => false

/-- Each client calls `lock_wallet` at most once for each of its unlocks that returned `Ok`; besides
unlocks, locks and force locks there is no delete, rename or change of passphrase. -/
def eachLocksOnce (e : Event Call) (s : World) : Prop :=
  match e with
  | .start _ (.lockWallet l) => ∃ c g, l.holder = some c ∧ s.Unlocked c l.walletName g ∧
      ∀ d l', s.calls d = some (.lockWallet l') → l'.holder ≠ some c
  | .start _ call => call.isWithWalletLocked = false ∧ call.isChangePassphrase = false
  | .step _ => True

/-- A `lock_wallet` takes its state step while the wallet has the entry its client was counted into, or
none. -/
def World.LocksOwn (s : World) (l : LockWallet) : Prop :=
  ∀ c g g', l.holder = some c → s.Unlocked c l.walletName g →
    s.shared.db.generation l.walletName = some g' → g' = g

/-- The schedules in which, moreover, a client locks only a wallet it still holds, and no count
saturates. -/
def holdsInPlace (e : Event Call) (s : World) : Prop :=
  eachLocksOnce e s ∧ ∀ c, e = .step c →
    (∀ l, s.calls c = some (.lockWallet l) → l.pos = .release → s.LocksOwn l) ∧
    ∀ u session, s.calls c = some (.unlockWallet u) → u.pos = .count →
      s.shared.db.sessions.lookup u.walletName = some session → session.count < u32Max

/-- Until its client locks it, or the entry it was counted into is removed at once, an unlock that
returned `Ok` keeps its wallet: the session is live, the count positive and the pool open. -/
def World.HoldsKept (s : World) : Prop :=
  ∀ c w g, s.Unlocked c w g → ¬ s.Unheld c → (s.shared.ledger g).removed = [] →
    (s.shared.keys w).isSome = true ∧
    (∃ session, s.shared.db.sessions.lookup w = some session ∧ 0 < session.count) ∧
    s.shared.db.openDatabase.isSome = true

theorem reach_eachLocksOnce (h : system.Reach holdsInPlace s) : system.Reach eachLocksOnce s :=
  h.mono fun _ _ hok => hok.1

theorem eachLocksOnce_start {c : CallId} {call : Call} (h : eachLocksOnce (.start c call) s) :
    call.isWithWalletLocked = false ∧ call.isChangePassphrase = false := by
  cases call with
  | lockWallet l => exact ⟨rfl, rfl⟩
  | _ => exact h

/-- Nobody deletes or renames. -/
theorem notDeleting (h : system.Reach eachLocksOnce s) (w : WalletName) : s.NotDeleting w := by
  intro c m hc _
  refine absurd (h.outline (A := fun _ call _ => call.isWithWalletLocked = false) ?_ ?_ ?_ hc) nofun
  · intro s c call _ hguard _
    exact (eachLocksOnce_start hguard).1
  · rintro s c call call' σ' _ _ _ hA ⟨ch, hstep⟩
    cases call <;> obtain ⟨r, -, h⟩ := Option.map_eq_some_iff.mp hstep <;> cases h <;> exact hA
  · intro s c call call' σ' d m _ _ _ _ _ _ _ hB
    exact hB

theorem reach_noPassphraseChange (h : system.Reach eachLocksOnce s) :
    system.Reach noPassphraseChange s :=
  h.mono fun e s hok => by
    cases e with
    | start c call => simp [noPassphraseChange, only, startsOnly, (eachLocksOnce_start hok).2]
    | step c => rfl

/-! ## Holds that are gone stay gone -/

theorem Call.of_next_lockWallet {call : Call} {l' : LockWallet}
    (h : call.next me ch σ = some (.lockWallet l', σ')) :
    ∃ l, call = .lockWallet l ∧ l.next me σ = some (l', σ') := by
  cases call <;> obtain ⟨r, hr, h⟩ := Option.map_eq_some_iff.mp h <;> cases h
  exact ⟨_, rfl, hr⟩

theorem Call.next_lockWallet {l : LockWallet} {call' : Call}
    (h : (Call.lockWallet l).next me ch σ = some (call', σ')) :
    ∃ l', call' = .lockWallet l' ∧ l.next me σ = some (l', σ') := by
  obtain ⟨r, hr, h⟩ := Option.map_eq_some_iff.mp h
  cases h
  exact ⟨r.1, rfl, hr⟩

/-- A `lock_wallet` stays the call it is, and takes its state step first. -/
theorem LockWallet.next_same {l l' : LockWallet} (h : l.next me σ = some (l', σ')) :
    l'.walletName = l.walletName ∧ l'.holder = l.holder ∧ l'.pos ≠ .release := by
  unfold next at h
  (repeat' split at h) <;> cases h <;> exact ⟨rfl, rfl, nofun⟩

/-- An `unlock_wallet` that gave up stays one. -/
theorem UnlockWallet.gaveUp_next {u u' : UnlockWallet} {g : Nat}
    (h : u.next me ch σ = some (u', σ')) (hg : u.pos.gaveUp = some g) :
    u'.pos.gaveUp = some g := by
  obtain ⟨path, v, passphrase, pos⟩ := u
  unfold next at h
  cases pos with
  | lockHeld hh g' e =>
    dsimp only at h
    split at h <;> cases h <;> exact hg
  | leave g' r =>
    cases h
    cases r with
    | ok _ => cases hg
    | error e => exact hg
  | returned g' r => cases h
  | _ => cases hg

/-- A failing `unlock_wallet` gives up. -/
theorem UnlockWallet.gaveUp_of_failed {u u' : UnlockWallet} {g : Nat} {e : BridgeError}
    (h : u.next me ch σ = some (u', σ')) (hpos : u.pos = .failed g e) :
    u'.pos.gaveUp = some g := by
  unfold next at h
  rw [hpos] at h
  dsimp only at h
  split at h <;> cases h <;> rfl

/-- Unlock `c` no longer stands behind generation `g`: it failed, or its client locked. -/
def World.Gone (s : World) (g : Nat) (c : CallId) : Prop :=
  (∃ u, s.calls c = some (.unlockWallet u) ∧ u.pos.gaveUp = some g) ∨ s.Unheld c

section Step

variable {m : CallId} {l l' : Call}

theorem World.Unlocked.put {c : CallId} {g : Nat} (h : s.Unlocked c w g)
    (hm : s.calls m = some l) (hstep : l.next m ch s.shared = some (l', σ')) :
    World.Unlocked (s.put m l' σ') c w g := by
  obtain ⟨u, hc, hw, hpos⟩ := h
  refine ⟨u, ?_, hw, hpos⟩
  rw [Config.put_calls_ne]
  · exact hc
  · rintro rfl
    obtain rfl := Option.some.inj (hm.symm.trans hc)
    rw [Call.next_of_returned (by simp [Call.returned, hpos])] at hstep
    cases hstep

theorem World.Unheld.put {c : CallId} (h : s.Unheld c) (hm : s.calls m = some l)
    (hstep : l.next m ch s.shared = some (l', σ')) : World.Unheld (s.put m l' σ') c := by
  obtain ⟨d, k, hd, hholder, hpos⟩ := h
  by_cases hdm : d = m
  · subst hdm
    obtain rfl := Option.some.inj (hm.symm.trans hd)
    obtain ⟨k', rfl, hnext⟩ := Call.next_lockWallet hstep
    obtain ⟨-, hsame, hpast⟩ := LockWallet.next_same hnext
    exact ⟨d, k', Config.put_calls_self _ _ _ _, hsame.trans hholder, hpast⟩
  · exact ⟨d, k, by rw [Config.put_calls_ne _ _ _ hdm]; exact hd, hholder, hpos⟩

theorem World.Gone.put {c : CallId} {g : Nat} (h : s.Gone g c) (hm : s.calls m = some l)
    (hstep : l.next m ch s.shared = some (l', σ')) : World.Gone (s.put m l' σ') g c := by
  rcases h with ⟨u, hc, hg⟩ | hlock
  · left
    by_cases hcm : c = m
    · subst hcm
      obtain rfl := Option.some.inj (hm.symm.trans hc)
      obtain ⟨u', rfl, hnext⟩ := Call.next_unlockWallet hstep
      exact ⟨u', Config.put_calls_self _ _ _ _, UnlockWallet.gaveUp_next hnext hg⟩
    · exact ⟨u, by rw [Config.put_calls_ne _ _ _ hcm]; exact hc, hg⟩
  · exact Or.inr (hlock.put hm hstep)

/-- Starting a call changes nothing for the others. -/
theorem World.Unlocked.start {c : CallId} {g : Nat} (h : s.Unlocked c w g)
    (hfree : s.calls m = none) : World.Unlocked (s.put m l σ') c w g := by
  obtain ⟨u, hc, hrest⟩ := h
  exact ⟨u, Config.put_calls_of_free hfree hc, hrest⟩

theorem World.Gone.start {c : CallId} {g : Nat} (h : s.Gone g c) (hfree : s.calls m = none) :
    World.Gone (s.put m l σ') g c := by
  rcases h with ⟨u, hc, hg⟩ | ⟨d, k, hd, hholder, hpos⟩
  · exact Or.inl ⟨u, Config.put_calls_of_free hfree hc, hg⟩
  · exact Or.inr ⟨d, k, Config.put_calls_of_free hfree hd, hholder, hpos⟩

end Step

/-! ## Whose lock it is -/

/-- Every `lock_wallet` is one client's, for an unlock of the same wallet that returned `Ok`. -/
theorem lock_holder (h : system.Reach eachLocksOnce s) :
    ∀ d l, s.calls d = some (.lockWallet l) →
      ∃ c g, l.holder = some c ∧ s.Unlocked c l.walletName g := by
  refine h.invariant (I := fun s : World => ∀ d l, s.calls d = some (.lockWallet l) →
    ∃ c g, l.holder = some c ∧ s.Unlocked c l.walletName g) ?_ ?_ ?_
  · intro σ _ d l hd
    cases hd
  · intro s m call _ ih hok hfree _ d l hd
    rcases Config.put_calls_eq_some hd with ⟨rfl, rfl⟩ | ⟨-, hd⟩
    · obtain ⟨c, g, hholder, hun, -⟩ := hok
      exact ⟨c, g, hholder, hun.start hfree⟩
    · obtain ⟨c, g, hholder, hun⟩ := ih d l hd
      exact ⟨c, g, hholder, hun.start hfree⟩
  · rintro s m call call' σ' _ ih _ hm ⟨ch, hstep⟩ d l' hd
    rcases Config.put_calls_eq_some hd with ⟨rfl, rfl⟩ | ⟨-, hd⟩
    · obtain ⟨l, rfl, hnext⟩ := Call.of_next_lockWallet hstep
      obtain ⟨hname, hsame, -⟩ := LockWallet.next_same hnext
      obtain ⟨c, g, hholder, hun⟩ := ih _ l hm
      exact ⟨c, g, hsame.trans hholder, hname ▸ hun.put hm hstep⟩
    · obtain ⟨c, g, hholder, hun⟩ := ih d l' hd
      exact ⟨c, g, hholder, hun.put hm hstep⟩

/-- No two `lock_wallet` calls are for the same unlock. -/
theorem lock_unique (h : system.Reach eachLocksOnce s) :
    ∀ d d' l l' c, s.calls d = some (.lockWallet l) → s.calls d' = some (.lockWallet l') →
      l.holder = some c → l'.holder = some c → d = d' := by
  refine h.invariant (I := fun s => ∀ d d' l l' c, s.calls d = some (.lockWallet l) →
    s.calls d' = some (.lockWallet l') → l.holder = some c → l'.holder = some c → d = d') ?_ ?_ ?_
  · intro σ _ d d' l l' c hd
    cases hd
  · intro s m call _ ih hok _ _ d d' l l' c hd hd' hc hc'
    rcases Config.put_calls_eq_some hd with ⟨rfl, rfl⟩ | ⟨-, hold⟩ <;>
      rcases Config.put_calls_eq_some hd' with ⟨rfl, heq⟩ | ⟨-, hold'⟩
    · rfl
    · obtain ⟨c₀, g, hholder, -, hnew⟩ := hok
      obtain rfl := Option.some.inj (hholder.symm.trans hc)
      exact absurd hc' (hnew _ _ hold')
    · subst heq
      obtain ⟨c₀, g, hholder, -, hnew⟩ := hok
      obtain rfl := Option.some.inj (hholder.symm.trans hc')
      exact absurd hc (hnew _ _ hold)
    · exact ih d d' l l' c hold hold' hc hc'
  · rintro s m call call' σ' _ ih _ hm ⟨ch, hstep⟩ d d' l l' c hd hd' hc hc'
    -- Each lock was there before, for the same unlock.
    have before {d : CallId} {l : LockWallet} (hd : (s.put m call' σ').calls d = some (.lockWallet l)) :
        ∃ k, s.calls d = some (.lockWallet k) ∧ k.holder = l.holder := by
      rcases Config.put_calls_eq_some hd with ⟨rfl, rfl⟩ | ⟨-, hd⟩
      · obtain ⟨k, rfl, hnext⟩ := Call.of_next_lockWallet hstep
        exact ⟨k, hm, (LockWallet.next_same hnext).2.1.symm⟩
      · exact ⟨l, hd, rfl⟩
    obtain ⟨k, hk, hkl⟩ := before hd
    obtain ⟨k', hk', hkl'⟩ := before hd'
    exact ih d d' k k' c hk hk' (hkl.trans hc) (hkl'.trans hc')

/-- An unlock whose client locks now still stands. -/
theorem not_gone_of_release (h : system.Reach eachLocksOnce s) {d c : CallId} {l : LockWallet}
    {g g' : Nat} (hd : s.calls d = some (.lockWallet l)) (hpos : l.pos = .release)
    (hholder : l.holder = some c) (hun : s.Unlocked c l.walletName g) : ¬ s.Gone g' c := by
  rintro (⟨u, hc, hgave⟩ | ⟨d', l', hd', hholder', hpast⟩)
  · obtain ⟨u', hc', -, hret⟩ := hun
    obtain rfl := Call.unlockWallet.inj (Option.some.inj (hc'.symm.trans hc))
    rw [hret] at hgave
    cases hgave
  · obtain rfl := lock_unique h d d' l l' c hd hd' hholder hholder'
    obtain rfl := Call.lockWallet.inj (Option.some.inj (hd.symm.trans hd'))
    exact hpast hpos

/-- An unlock about to give its count back still stands. -/
theorem not_gone_of_failed (h : system.Reach eachLocksOnce s) {c : CallId} {u : UnlockWallet}
    {g g' : Nat} {e : BridgeError} (hc : s.calls c = some (.unlockWallet u))
    (hpos : u.pos = .failed g e) : ¬ s.Gone g' c := by
  rintro (⟨u', hc', hgave⟩ | ⟨d, l, hd, hholder, -⟩)
  · obtain rfl := Call.unlockWallet.inj (Option.some.inj (hc.symm.trans hc'))
    rw [hpos] at hgave
    cases hgave
  · obtain ⟨c', g₁, hholder', u', hc', -, hret⟩ := lock_holder h d l hd
    obtain rfl := Option.some.inj (hholder.symm.trans hholder')
    obtain rfl := Call.unlockWallet.inj (Option.some.inj (hc.symm.trans hc'))
    rw [hpos] at hret
    cases hret

/-! ## The count is exactly who stands behind it -/

/-- Who was counted into a generation is on its ledger. -/
theorem mem_counted (h : system.Reach ok s) {c : CallId} {u : UnlockWallet} {g : Nat}
    (hc : s.calls c = some (.unlockWallet u)) (hg : u.pos.generation = some g) :
    c ∈ (s.shared.ledger g).counted := by
  refine h.outline (A := fun c l σ => ∀ u g, l = .unlockWallet u → u.pos.generation = some g →
    c ∈ (σ.ledger g).counted) ?_ ?_ ?_ hc u g rfl hg
  · rintro s c l _ _ hstart u g rfl hg
    simp only [system, Call.starts, decide_eq_true_eq] at hstart
    rw [hstart] at hg
    cases hg
  · rintro s c l l' σ' _ _ _ hA ⟨ch, hstep⟩ u' g rfl hg
    obtain ⟨u, rfl, hnext⟩ := Call.of_next_unlockWallet hstep
    rcases UnlockWallet.next_generation hnext hg with hold | ⟨-, -, hcount⟩
    · exact ((Call.dbStep hstep).ledger_grows g).counted (hA u g rfl hold)
    · obtain ⟨db, files, rfl, -, -⟩ := Shared.count_ok hcount
      simp
  · rintro s c l l' σ' d m _ _ _ _ ⟨ch, hstep⟩ _ _ hB u g hu hg
    exact ((Call.dbStep hstep).ledger_grows g).counted (hB u g hu hg)

/-- A step that takes one off `w`'s count: a client's lock, or a failed unlock giving its back. -/
inductive TakesOne (s : World) (m : CallId) (w : WalletName) (session : Session) : Prop
  | lock {l} : s.calls m = some (.lockWallet l) → l.pos = .release → l.walletName = w →
      TakesOne s m w session
  | failed {u e} : s.calls m = some (.unlockWallet u) → u.pos = .failed session.generation e →
      TakesOne s m w session

/-- It takes off one that stood behind the count, and that one is gone then. -/
theorem TakesOne.standing {m : CallId} {l l' : Call} {session : Session}
    (h : system.Reach holdsInPlace s) (hok : holdsInPlace (.step m) s) (hm : s.calls m = some l)
    (hstep : l.next m ch s.shared = some (l', σ'))
    (hs : s.shared.db.sessions.lookup w = some session) (htakes : TakesOne s m w session) :
    ∃ c ∈ (s.shared.ledger session.generation).counted, ¬ s.Gone session.generation c ∧
      World.Gone (s.put m l' σ') session.generation c := by
  have hr := reach_eachLocksOnce h
  cases htakes with
  | @lock k hk hpos hw =>
    obtain rfl := Option.some.inj (hm.symm.trans hk)
    subst hw
    obtain ⟨c, g, hholder, hun⟩ := lock_holder hr m k hk
    -- The guard: the entry is still the one the client was counted into.
    obtain rfl := (hok.2 m rfl).1 k hk hpos c g _ hholder hun (generation_of_lookup hs)
    obtain ⟨k', rfl, hnext⟩ := Call.next_lockWallet hstep
    obtain ⟨-, hsame, hpast⟩ := LockWallet.next_same hnext
    refine ⟨c, ?_, not_gone_of_release hr hk hpos hholder hun, Or.inr
      ⟨m, k', Config.put_calls_self _ _ _ _, hsame.trans hholder, hpast⟩⟩
    obtain ⟨u, hc, -, hret⟩ := hun
    exact mem_counted h hc (by rw [hret]; rfl)
  | @failed u e hu hpos =>
    obtain rfl := Option.some.inj (hm.symm.trans hu)
    obtain ⟨u', rfl, hnext⟩ := Call.next_unlockWallet hstep
    exact ⟨m, mem_counted h hu (by rw [hpos]; rfl), not_gone_of_failed hr hu hpos, Or.inl
      ⟨u', Config.put_calls_self _ _ _ _, UnlockWallet.gaveUp_of_failed hnext hpos⟩⟩

/-- The count of an entry is the number of unlocks counted into it that are not gone. -/
def EntryExact (s : World) (session : Session) : Prop :=
  ∃ gone : List CallId, gone.Nodup ∧ gone ⊆ (s.shared.ledger session.generation).counted ∧
    (∀ c ∈ gone, s.Gone session.generation c) ∧
    gone.length + session.count = (s.shared.ledger session.generation).counted.length

/-- Taking one off the count takes one more from those who stand behind it. -/
theorem EntryExact.takes {m : CallId} {l l' : Call} {session : Session}
    (h : system.Reach holdsInPlace s) (hok : holdsInPlace (.step m) s) (hm : s.calls m = some l)
    (hstep : l.next m ch s.shared = some (l', σ'))
    (hs : s.shared.db.sessions.lookup w = some session) (htakes : TakesOne s m w session)
    (hexact : EntryExact s session) :
    ∃ gone : List CallId, gone.Nodup ∧ gone ⊆ (s.shared.ledger session.generation).counted ∧
      (∀ c ∈ gone, World.Gone (s.put m l' σ') session.generation c) ∧
      gone.length + session.count = (s.shared.ledger session.generation).counted.length + 1 := by
  obtain ⟨gone, hnodup, hsub, hgone, hlen⟩ := hexact
  obtain ⟨c, hmem, hnot, hnow⟩ := htakes.standing h hok hm hstep hs
  refine ⟨c :: gone, ?_, List.cons_subset.mpr ⟨hmem, hsub⟩, ?_, ?_⟩
  · exact List.nodup_cons.mpr ⟨fun hc => hnot (hgone c hc), hnodup⟩
  · intro d hd
    rcases List.mem_cons.mp hd with rfl | hd
    · exact hnow
    · exact (hgone d hd).put hm hstep
  · simp only [List.length_cons]
    omega

theorem entry_exact (h : system.Reach holdsInPlace s) :
    ∀ w session, s.shared.db.sessions.lookup w = some session → EntryExact s session := by
  refine h.invariant (I := fun s => ∀ w session, s.shared.db.sessions.lookup w = some session →
    EntryExact s session) ?_ ?_ ?_
  · rintro σ ⟨files, tariCommon, rfl⟩ w session hs
    cases hs
  · intro s c l _ ih _ hfree _ w session hs
    obtain ⟨gone, hnodup, hsub, hgone, hlen⟩ := ih w session hs
    exact ⟨gone, hnodup, hsub, fun c hc => (hgone c hc).start hfree, hlen⟩
  · rintro s m l l' σ' hs ih hok hm ⟨ch, hstep⟩ w session hlookup
    cases (Call.dbStep hstep).entryStep (fun v g => generation_unique hs v w g)
        (fun v g => generation_lt hs) hlookup with
    | kept hold hledger =>
      obtain ⟨gone, hnodup, hsub, hgone, hlen⟩ := ih w session hold
      refine ⟨gone, hnodup, ?_, fun c hc => (hgone c hc).put hm hstep, ?_⟩ <;>
        rw [Config.put_shared, hledger]
      · exact hsub
      · exact hlen
    | @counted u _ g _ _ _ hpos hname _ hg hsession hledger =>
      subst hname
      cases hold : s.shared.db.sessions.lookup u.walletName with
      | none =>
        -- The first of its generation.
        rw [hold] at hsession
        subst hsession
        have hempty := ledger_unused hs g (Nat.le_of_eq hg)
        refine ⟨[], List.nodup_nil, List.nil_subset _, nofun, ?_⟩
        rw [Config.put_shared, hg, hledger, hempty]
        rfl
      | some old =>
        rw [hold] at hsession
        subst hsession
        have hgen : old.generation = g := hg
        obtain ⟨gone, hnodup, hsub, hgone, hlen⟩ := ih _ old hold
        rw [hgen] at hsub hgone hlen
        have hsat : saturatingAdd old.count 1 = old.count + 1 :=
          Nat.min_eq_left ((hok.2 m rfl).2 u old hm hpos hold)
        refine ⟨gone, hnodup, ?_, fun c hc => ?_, ?_⟩ <;> rw [hg]
        on_goal 2 => exact (hgone c hc).put hm hstep
        all_goals rw [Config.put_shared, hledger]
        · exact fun c hc => List.mem_cons_of_mem _ (hsub hc)
        · simp only [DbState.acquired, List.length_cons]
          omega
    | lowered hpos hw hold hc hg hledger =>
      obtain ⟨gone, hnodup, hsub, hgone, hlen⟩ :=
        (ih w _ hold).takes hs hok hm hstep hold (.lock hm hpos hw)
      refine ⟨gone, hnodup, ?_, hg ▸ hgone, ?_⟩ <;> rw [Config.put_shared, hg, hledger]
      · exact hsub
      · dsimp only
        omega
    | givenBack hpos _ hold hc hg hledger =>
      obtain ⟨gone, hnodup, hsub, hgone, hlen⟩ :=
        (ih w _ hold).takes hs hok hm hstep hold (.failed hm hpos)
      refine ⟨gone, hnodup, ?_, hg ▸ hgone, ?_⟩ <;> rw [Config.put_shared, hg, hledger]
      · exact hsub
      · dsimp only
        omega

/-! ## Holds last -/

/-- Taking one off a count ends an entry only if it is the wallet's, and the last one. -/
theorem last_of_releaseOne {db db' : DbState} {v : WalletName} {zero : Bool}
    (h : db.releaseOne v = (zero, db')) {session : Session}
    (hs : db.sessions.lookup w = some session) (hend : db'.sessions.lookup w = none) :
    v = w ∧ session.count = 1 := by
  rcases DbState.releaseOne_cases h with ⟨-, -, rfl⟩ | ⟨old, rest, -, -, -, -, rfl⟩ |
    ⟨old, hold, -, hone, rfl⟩
  · cases hs.symm.trans hend
  · rw [Table.lookup_insert_eq] at hend
    split at hend
    · cases hend
    · cases hs.symm.trans hend
  · rw [DbState.removeSession_lookup] at hend
    split at hend
    · rename_i hw
      subst hw
      obtain rfl := Option.some.inj (hs.symm.trans hold)
      exact ⟨rfl, hone⟩
    · cases hs.symm.trans hend

/-- An entry ends when the last count is taken off, or it is removed at once. -/
theorem DbStep.entry_ended {call call' : Call} (h : DbStep me call σ call' σ') {session : Session}
    (hs : σ.db.sessions.lookup w = some session) (hend : σ'.db.sessions.lookup w = none) :
    (session.count = 1 ∧ ((∃ l, call = .lockWallet l ∧ l.pos = .release ∧ l.walletName = w) ∨
      ∃ u e, call = .unlockWallet u ∧ u.pos = .failed session.generation e)) ∨
    (σ'.ledger session.generation).removed ≠ [] := by
  have kept (hsame : σ'.db.sessions = σ.db.sessions) : False := by
    rw [hsame, hs] at hend
    cases hend
  cases h with
  | same hdb _ => exact (kept (by rw [hdb])).elim
  | setPath _ hset =>
    unfold DbState.setDatabasePath at hset
    split at hset <;> cases hset
    exact (kept rfl).elim
  | countError _ hcount =>
    obtain ⟨db, rfl, rfl | ⟨rfl, -⟩⟩ := Shared.count_error hcount <;> exact (kept rfl).elim
  | count _ hcount =>
    obtain ⟨db, files, rfl, hacq, -⟩ := Shared.count_ok hcount
    rw [DbState.acquireSession_lookup hacq] at hend
    split at hend
    · cases hend
    · cases hs.symm.trans hend
  | @release l _ _ _ _ hpos hrel _ =>
    obtain ⟨db, hone, rfl⟩ := Shared.releaseSession_eq hrel
    obtain ⟨rfl, hcount⟩ := last_of_releaseOne hone hs hend
    exact Or.inl ⟨hcount, Or.inl ⟨l, rfl, hpos, rfl⟩⟩
  | @giveBack u _ g e _ _ _ hpos hgive _ =>
    rcases Shared.releaseFailed_eq hgive with ⟨hgen, db, hone, rfl⟩ | ⟨-, -, rfl⟩
    · obtain ⟨rfl, hcount⟩ := last_of_releaseOne hone hs hend
      obtain rfl := Option.some.inj (hgen.symm.trans (generation_of_lookup hs))
      exact Or.inl ⟨hcount, Or.inr ⟨u, e, rfl, hpos⟩⟩
    · exact (kept rfl).elim
  | @remove _ _ v _ _ =>
    have hend' : (σ.db.removeSession v).sessions.lookup w = none := hend
    rw [DbState.removeSession_lookup] at hend'
    split at hend'
    · rename_i hw
      subst hw
      right
      simp [Shared.removeSession, generation_of_lookup hs]
    · cases hs.symm.trans hend'

/-- An unlock that was counted is gone, or its entry is still there, or was removed at once. -/
theorem gone_or_counted (h : system.Reach holdsInPlace s) :
    ∀ c u g, s.calls c = some (.unlockWallet u) → u.pos.generation = some g →
      s.Gone g c ∨ s.shared.db.generation u.walletName = some g ∨
        (s.shared.ledger g).removed ≠ [] := by
  refine h.invariant (I := fun s : World => ∀ c u g, s.calls c = some (.unlockWallet u) →
    u.pos.generation = some g → s.Gone g c ∨ s.shared.db.generation u.walletName = some g ∨
      (s.shared.ledger g).removed ≠ []) ?_ ?_ ?_
  · intro σ _ c u g hc
    cases hc
  · intro s m call _ ih _ hfree hstart c u g hc hg
    rcases Config.put_calls_eq_some hc with ⟨rfl, rfl⟩ | ⟨-, hc⟩
    · simp only [system, Call.starts, decide_eq_true_eq] at hstart
      rw [hstart] at hg
      cases hg
    · rcases ih c u g hc hg with hgone | hrest
      · exact Or.inl (hgone.start hfree)
      · exact Or.inr hrest
  · rintro s m call call' σ' hs ih hok hm ⟨ch, hstep⟩ c u' g hc hg
    have hdb := Call.dbStep hstep
    -- Either it was counted before, or this step counts it.
    have hbefore : (∃ u, s.calls c = some (.unlockWallet u) ∧ u.walletName = u'.walletName ∧
        u.pos.generation = some g) ∨ σ'.db.generation u'.walletName = some g := by
      rcases Config.put_calls_eq_some hc with ⟨rfl, rfl⟩ | ⟨-, hc⟩
      · obtain ⟨u, rfl, hnext⟩ := Call.of_next_unlockWallet hstep
        have hname := (UnlockWallet.next_same hnext).2.1
        rcases UnlockWallet.next_generation hnext hg with hold | ⟨-, -, hcount⟩
        · exact Or.inl ⟨u, hm, hname.symm, hold⟩
        · obtain ⟨db, files, rfl, hacq, -⟩ := Shared.count_ok hcount
          right
          rw [hname]
          exact (DbState.acquireSession_generation hacq _).trans (if_pos rfl)
      · exact Or.inl ⟨u', hc, rfl, hg⟩
    rcases hbefore with ⟨u, hu, hname, hgen⟩ | hcounted
    · rw [← hname]
      rcases ih c u g hu hgen with hgone | hentry | hremoved
      · exact Or.inl (hgone.put hm hstep)
      · cases hend : σ'.db.sessions.lookup u.walletName with
        | some session =>
          refine Or.inr (Or.inl ?_)
          rcases hdb.generation_origin (generation_of_lookup hend) with hold | ⟨hnone, -, -⟩
          · exact (generation_of_lookup hend).trans (hold.symm.trans hentry)
          · cases hnone.symm.trans hentry
        | none =>
          obtain ⟨session, hsession, rfl⟩ := Option.map_eq_some_iff.mp hentry
          rcases hdb.entry_ended hsession hend with ⟨hlast, htakes⟩ | hremoved
          · -- The last count went, so everybody who was counted is gone.
            have htakes' : TakesOne s m u.walletName session := by
              rcases htakes with ⟨l, rfl, hpos, hw⟩ | ⟨v, e, rfl, hpos⟩
              · exact .lock hm hpos hw
              · exact .failed hm hpos
            obtain ⟨gone, hnodup, hsub, hgone, hlen⟩ :=
              (entry_exact hs _ _ hsession).takes hs hok hm hstep hsession htakes'
            have hperm := (hnodup.subperm hsub).perm_of_length_le (by omega)
            exact Or.inl (hgone c (hperm.mem_iff.mpr (mem_counted hs hu hgen)))
          · exact Or.inr (Or.inr hremoved)
      · refine Or.inr (Or.inr fun hnil => ?_)
        have hgrows := (hdb.ledger_grows g).removed
        rw [show (σ'.ledger g).removed = [] from hnil] at hgrows
        exact hremoved (List.subset_nil.mp hgrows)
    · exact Or.inr (Or.inl hcounted)

/-- A client that locks only what it holds keeps what it unlocked: until it locks the wallet itself, or
a force lock takes the entry its unlock was counted into, the wallet's session is live, its count
positive and the pool open. -/
theorem holds_kept (h : system.Reach holdsInPlace s) : s.HoldsKept := by
  rintro c w g ⟨u, hc, rfl, hpos⟩ hheld hforce
  have hr := reach_eachLocksOnce h
  have hgen : s.shared.db.generation u.walletName = some g := by
    rcases gone_or_counted h c u g hc (by rw [hpos]; rfl) with (⟨u', hc', hgave⟩ | hun) | hentry |
      hremoved
    · obtain rfl := Call.unlockWallet.inj (Option.some.inj (hc.symm.trans hc'))
      rw [hpos] at hgave
      cases hgave
    · exact absurd hun hheld
    · exact hentry
    · exact absurd hforce hremoved
  obtain ⟨session, hs, -⟩ := Option.map_eq_some_iff.mp hgen
  refine ⟨?_, ⟨session, hs, session.counted⟩, (db_coherent h).pool ?_⟩
  · exact holder_live (reach_noPassphraseChange hr) hc rfl hpos hgen (notDeleting hr _)
  · exact (Table.isEmpty_eq_false_iff _).mpr ⟨_, session, hs⟩

/-! ## Holds that do not -/

/-- Whether a call is no lock for unlock `c`. -/
def Call.locksOther (c : Option CallId) : Call → Bool
  | .lockWallet l => l.holder ≠ c
  | _ => true

/-- The generation of an unlock of `w` that returned `Ok`. -/
def Call.unlockedInto (w : WalletName) : Call → Option Nat
  | .unlockWallet ⟨_, v, _, .returned g (.ok ())⟩ => if v = w then g else none
  | _ => none

theorem World.unlocked_iff {c : CallId} {g : Nat} :
    s.Unlocked c w g ↔ (s.calls c).bind (·.unlockedInto w) = some g := by
  constructor
  · rintro ⟨⟨path, v, passphrase, pos⟩, hc, rfl, rfl⟩
    simp [hc, Call.unlockedInto]
  · intro h
    obtain ⟨call, hc, h⟩ := Option.bind_eq_some_iff.mp h
    unfold Call.unlockedInto at h
    split at h
    · simp only [Option.ite_none_right_eq_some] at h
      obtain ⟨rfl, rfl⟩ := h
      exact ⟨_, hc, rfl, rfl⟩
    · cases h

/-- `eachLocksOnce`, decided. -/
def checksOnce (bound : Nat) (e : Event Call) (s : World) : Bool :=
  match e with
  | .start _ (.lockWallet l) =>
    ((l.holder.bind s.calls).bind (·.unlockedInto l.walletName)).isSome &&
      s.allBelow bound (Call.locksOther l.holder)
  | .start _ call => !call.isWithWalletLocked && !call.isChangePassphrase
  | .step _ => true

theorem checksOnce_sound {bound : Nat} {e : Event Call} (hs : s.Within bound)
    (h : checksOnce bound e s = true) : eachLocksOnce e s := by
  cases e with
  | start d call =>
    cases call with
    | lockWallet l =>
      simp only [checksOnce, Bool.and_eq_true, Option.isSome_iff_exists] at h
      obtain ⟨⟨g, hg⟩, hothers⟩ := h
      obtain ⟨call, hcall, hg⟩ := Option.bind_eq_some_iff.mp hg
      obtain ⟨c, hholder, hc⟩ := Option.bind_eq_some_iff.mp hcall
      refine ⟨c, g, hholder, World.unlocked_iff.mpr (by rw [hc]; exact hg), fun d l' hd heq => ?_⟩
      have hother := hs.of_allBelow hothers hd
      simp [Call.locksOther, hholder, heq] at hother
    | _ => simpa [checksOnce, eachLocksOnce] using h
  | step d => trivial

/-- The rest of `holdsInPlace`, decided. -/
def stepsInPlace (s : World) : Call → Bool
  | .lockWallet l => l.pos ≠ .release || (s.shared.db.generation l.walletName).all fun g =>
      decide ((l.holder.bind s.calls).bind (·.unlockedInto l.walletName) = some g)
  | .unlockWallet u => u.pos ≠ .count ||
      (s.shared.db.sessions.lookup u.walletName).all fun session => decide (session.count < u32Max)
  | _ => true

def checksInPlace (bound : Nat) (e : Event Call) (s : World) : Bool :=
  checksOnce bound e s && match e with
  | .step c => (s.calls c).all (stepsInPlace s)
  | .start _ _ => true

theorem checksInPlace_sound {bound : Nat} {e : Event Call} (hs : s.Within bound)
    (h : checksInPlace bound e s = true) : holdsInPlace e s := by
  simp only [checksInPlace, Bool.and_eq_true] at h
  refine ⟨checksOnce_sound hs h.1, ?_⟩
  rintro c rfl
  constructor
  · intro l hc hpos d g g' hholder hun hgen
    rw [World.unlocked_iff] at hun
    simpa [hc, stepsInPlace, hpos, hgen, hholder, hun, eq_comm] using h.2
  · intro u session hc hpos hlookup
    simpa [hc, stepsInPlace, hpos, hlookup] using h.2

/-- Two clients unlock, and the first locks. -/
def lockedOnce : Option World :=
  (replay 3 (checksInPlace 3)).exec fresh (unlocks 0 firstPath ++
    .start 1 (.unlockWallet ⟨firstPath, "main", "secret", .count⟩) :: go 1 7 ++
    .start 2 (.lockWallet ⟨"main", some 0, .release⟩) :: go 2 1)

theorem holds_kept_lockedOnce :
    ∃ s, lockedOnce = some s ∧ s.Unlocked 1 "main" 0 ∧ (s.shared.keys "main").isSome = true ∧
      (∃ session, s.shared.db.sessions.lookup "main" = some session ∧ 0 < session.count) ∧
      s.shared.db.openDatabase.isSome = true := by
  obtain ⟨s, hs⟩ := Option.isSome_iff_exists.mp (by decide : lockedOnce.isSome = true)
  have facts : lockedOnce.map (fun s => ((s.calls 1).bind (·.unlockedInto "main"),
      s.allBelow 3 (Call.locksOther (some 1)), (s.shared.ledger 0).removed)) =
        some (some 0, true, []) := by decide
  simp only [hs, Option.map_some, Option.some.injEq, Prod.mk.injEq] at facts
  have hR : (replay 3 (checksInPlace 3)).Sound system holdsInPlace :=
    replay_sound fun e s hs h => checksInPlace_sound hs h
  have hun : s.Unlocked 1 "main" 0 := World.unlocked_iff.mpr facts.1
  have hwithin : s.Within 3 := (hR.steps (fun _ _ => rfl) hs).1
  refine ⟨s, hs, hun, holds_kept (hR.reach fresh_init hs) 1 "main" 0 hun ?_ facts.2.2⟩
  rintro ⟨d, l, hd, hholder, -⟩
  simpa [Call.locksOther, hholder] using hwithin.of_allBelow facts.2.1 hd

/-- The first client's hold goes with a force lock, the second client unlocks, and then the first
locks what it unlocked. -/
def lockedLate : Option World :=
  (replay 4 (checksOnce 4)).exec fresh (unlocks 0 firstPath ++
    .start 1 (.forceLockWallet ⟨"main", .everywhere .remove⟩) :: go 1 7 ++
    unlocks 2 firstPath ++ .start 3 (.lockWallet ⟨"main", some 0, .release⟩) :: go 3 7)

/-- A lock whose hold is gone takes the next client's: the second client never locked, nobody forced
its entry, and the wallet is locked. -/
theorem hold_lost : ¬ ∀ s : World, system.Reach eachLocksOnce s → s.HoldsKept := by
  intro h
  obtain ⟨s, hs⟩ := Option.isSome_iff_exists.mp (by decide : lockedLate.isSome = true)
  have facts : lockedLate.map (fun s => ((s.calls 2).bind (·.unlockedInto "main"),
      s.allBelow 4 (Call.locksOther (some 2)), (s.shared.ledger 1).removed,
      (s.shared.keys "main").isSome)) = some (some 1, true, [], false) := by decide
  simp only [hs, Option.map_some, Option.some.injEq, Prod.mk.injEq] at facts
  have hR : (replay 4 (checksOnce 4)).Sound system eachLocksOnce :=
    replay_sound fun e s hs h => checksOnce_sound hs h
  have hwithin : s.Within 4 := (hR.steps (fun _ _ => rfl) hs).1
  have hkept := h s (hR.reach fresh_init hs) 2 "main" 1 (World.unlocked_iff.mpr facts.1) ?_
    facts.2.2.1
  · rw [facts.2.2.2] at hkept
    cases hkept.1
  · rintro ⟨d, l, hd, hholder, -⟩
    simpa [Call.locksOther, hholder] using hwithin.of_allBelow facts.2.1 hd

end CwTariWallet
