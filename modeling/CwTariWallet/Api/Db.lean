/-
# CwTariWallet.Api.Db -- `DB_STATE` and its critical sections

The recorded path, the shared pool and the open counts of `src/api/db.rs`, with every function that
runs under the state's lock.  Each is one atomic step; what happens between two of them is the
business of the calls.

`count` is a `u32` that saturates.  `generation` is a `u64` that wraps; it is counted up by at most
one for each `unlock_wallet`, and is a plain `Nat` here: runs of up to `2 ^ 64` sessions.
-/
import CwTariWallet.Api.Error
import CwTariWallet.Minotari
import CwTariWallet.Table

namespace CwTariWallet

/-- The open pool: the path it was opened from. -/
structure OpenDatabase where
  path : PathBuf
  deriving DecidableEq, Repr

/-- `u32::MAX`. -/
def u32Max : Nat := 4294967295

/-- `u32::saturating_add`. -/
def saturatingAdd (a b : Nat) : Nat := min (a + b) u32Max

/-- A wallet's `unlock_wallet` calls not yet matched with `lock_wallet`.  An entry that is in the map
counts at least one. -/
structure Session where
  count : Nat
  generation : Nat
  counted : 0 < count
  deriving DecidableEq

structure DbState where
  /-- The last path from `set_database_path` / `unlock_wallet`; kept after the pool closes. -/
  path : Option PathBuf
  /-- The shared pool, open while any wallet is unlocked. -/
  openDatabase : Option OpenDatabase
  /-- Each unlocked wallet's open count. -/
  sessions : Table WalletName Session
  /-- The generation the next session entry gets. -/
  nextGeneration : Nat

namespace DbState

/-- `DB_STATE` as the process starts. -/
def initial : DbState := ⟨none, none, ∅, 0⟩

/-- `DIFFERENT_DATABASE`. -/
def differentDatabase : BridgeError :=
  .wallet (.database "Another database is open; lock its wallets first")

/-- Close the shared pool. -/
def closePool (state : DbState) : DbState := { state with openDatabase := none }

/-- Whether a pool is open on a path other than `path`. -/
def onOtherPath (state : DbState) (path : PathBuf) : Bool :=
  state.openDatabase.any fun db => decide (db.path ≠ path)

/-- `set_database_path`: record `path` without opening it. -/
def setDatabasePath (state : DbState) (path : PathBuf) : Except BridgeError DbState :=
  if state.onOtherPath path then .error differentDatabase
  else .ok { state with path := some path }

/-- The entry after `or_insert` and the count up. -/
def acquired (entry : Option Session) (next : Nat) : Session :=
  match entry with
  | some session =>
    ⟨saturatingAdd session.count 1, session.generation, by unfold saturatingAdd u32Max; omega⟩
  | none => ⟨saturatingAdd 0 1, next, by decide⟩

/-- Add one to `wallet_name`'s open count, returning the session's generation. -/
def acquireSession (state : DbState) (walletName : WalletName) : Nat × DbState :=
  let next := state.nextGeneration
  let session := acquired (state.sessions.lookup walletName) next
  (session.generation,
    { state with
      nextGeneration := if session.generation = next then next + 1 else next
      sessions := state.sessions.insert walletName session })

/-- `release_one`: take one off the count.  Returns whether it reached zero (the pool is closed if it
was the last wallet). -/
def releaseOne (state : DbState) (walletName : WalletName) : Bool × DbState :=
  match state.sessions.lookup walletName with
  | none => (false, state)
  | some session =>
    if h : 0 < session.count - 1 then
      (false, { state with
        sessions := state.sessions.insert walletName ⟨session.count - 1, session.generation, h⟩ })
    else
      let state := { state with sessions := state.sessions.erase walletName }
      (true, if Table.isEmpty state.sessions then state.closePool else state)

/-- The state step of `lock_wallet_everywhere`: remove the whole entry. -/
def removeSession (state : DbState) (walletName : WalletName) : DbState :=
  let removed := (state.sessions.lookup walletName).isSome
  let state := { state with sessions := state.sessions.erase walletName }
  if removed && Table.isEmpty state.sessions then state.closePool else state

/-- The generation of `walletName`'s entry. -/
def generation (state : DbState) (walletName : WalletName) : Option Nat :=
  (state.sessions.lookup walletName).map (·.generation)

/-- `still_counted`: whether the count still includes the unlock of `generation`. -/
def stillCounted (state : DbState) (walletName : WalletName) (generation : Nat) : Bool :=
  state.generation walletName = some generation

/-- The state step of `release_failed_unlock`: give the count back, if it is still of the generation
it was counted into. -/
def releaseFailed (state : DbState) (walletName : WalletName) (generation : Nat) : Bool × DbState :=
  if state.stillCounted walletName generation then state.releaseOne walletName else (false, state)

/-- `get_db_path`, and the path `get_db_pool` answers with a pool on. -/
def getDbPath (state : DbState) : Except BridgeError PathBuf :=
  match state.openDatabase with
  | some db => .ok db.path
  | none =>
    match state.path with
    | some path => .ok path
    | none => .error (.wallet .notInitialized)

/-- The critical section of `unlock_wallet`.  `opens` is what opening a pool on `path` answers, when
one has to be opened.  The result says whether one was. -/
def count (state : DbState) (path : PathBuf) (walletName : WalletName)
    (opens : Except BridgeError Unit) : Except BridgeError (Nat × Bool) × DbState :=
  if state.onOtherPath path && !Table.isEmpty state.sessions then (.error differentDatabase, state)
  else
    let state := if state.onOtherPath path then state.closePool else state
    match state.openDatabase with
    | some _ =>
      let (generation, state) := { state with path := some path }.acquireSession walletName
      (.ok (generation, false), state)
    | none =>
      match opens with
      | .error e => (.error e, state)
      | .ok () =>
        let (generation, state) :=
          { state with openDatabase := some ⟨path⟩, path := some path }.acquireSession walletName
        (.ok (generation, true), state)

/-! ## What the critical sections do to an entry -/

theorem generation_eq_none {state : DbState} {w : WalletName} :
    state.generation w = none ↔ state.sessions.lookup w = none := by
  simp [generation]

theorem stillCounted_iff {state : DbState} {w : WalletName} {g : Nat} :
    state.stillCounted w g = true ↔ state.generation w = some g := by
  simp [stillCounted]

/-- Counting puts the counted-up entry in place, and touches no other. -/
theorem acquireSession_lookup {state state' : DbState} {w : WalletName} {g : Nat}
    (h : state.acquireSession w = (g, state')) (v : WalletName) :
    state'.sessions.lookup v =
      if v = w then some (acquired (state.sessions.lookup w) state.nextGeneration)
      else state.sessions.lookup v := by
  obtain ⟨-, rfl⟩ := Prod.mk.inj h
  exact Table.lookup_insert_eq _ _ _ _

/-- Counting gives the wallet an entry if it has none, and touches no other. -/
theorem acquireSession_generation {state state' : DbState} {w : WalletName} {g : Nat}
    (h : state.acquireSession w = (g, state')) (v : WalletName) :
    state'.generation v = if v = w then some g else state.generation v := by
  obtain ⟨hg, -⟩ := Prod.mk.inj h
  rw [generation, acquireSession_lookup h, apply_ite (Option.map _), ← hg]
  rfl

/-- A new entry gets the next generation. -/
theorem acquireSession_fresh {state state' : DbState} {w : WalletName} {g : Nat}
    (h : state.acquireSession w = (g, state')) :
    (state.generation w = none ∧ g = state.nextGeneration ∧
        state'.nextGeneration = state.nextGeneration + 1) ∨
      (state.generation w = some g ∧ state.nextGeneration ≤ state'.nextGeneration) := by
  simp only [acquireSession, Prod.mk.injEq] at h
  obtain ⟨rfl, rfl⟩ := h
  cases hs : state.sessions.lookup w with
  | none => simp [generation, hs, acquired]
  | some session =>
    right
    by_cases hg : session.generation = state.nextGeneration <;>
      simp [generation, hs, acquired, hg]

@[simp]
theorem closePool_sessions (state : DbState) : state.closePool.sessions = state.sessions := rfl

@[simp]
theorem closePool_nextGeneration (state : DbState) :
    state.closePool.nextGeneration = state.nextGeneration := rfl

/-- Taking one off a count: there was none, it stays, or it was the last one. -/
theorem releaseOne_cases {state state' : DbState} {w : WalletName} {zero : Bool}
    (h : state.releaseOne w = (zero, state')) :
    (state.sessions.lookup w = none ∧ zero = false ∧ state' = state) ∨
      (∃ session rest, state.sessions.lookup w = some session ∧ zero = false ∧
        rest.count + 1 = session.count ∧ rest.generation = session.generation ∧
        state' = { state with sessions := state.sessions.insert w rest }) ∨
      ∃ session, state.sessions.lookup w = some session ∧ zero = true ∧ session.count = 1 ∧
        state' = state.removeSession w := by
  unfold releaseOne at h
  split at h
  · obtain ⟨rfl, rfl⟩ := Prod.mk.inj h
    exact Or.inl ⟨‹_›, rfl, rfl⟩
  · rename_i session hs
    have hcount := session.counted
    right
    split at h
    · obtain ⟨rfl, rfl⟩ := Prod.mk.inj h
      exact Or.inl ⟨session, ⟨session.count - 1, session.generation, ‹_›⟩, hs, rfl,
        Nat.sub_add_cancel hcount, rfl, rfl⟩
    · obtain ⟨rfl, rfl⟩ := Prod.mk.inj h
      refine Or.inr ⟨session, hs, rfl, by omega, ?_⟩
      simp [removeSession, hs]

theorem removeSession_lookup (state : DbState) (w v : WalletName) :
    (state.removeSession w).sessions.lookup v =
      if v = w then none else state.sessions.lookup v := by
  simp only [removeSession, apply_ite DbState.sessions, closePool_sessions, ite_self,
    Table.lookup_erase_eq]

@[simp]
theorem removeSession_nextGeneration (state : DbState) (w : WalletName) :
    (state.removeSession w).nextGeneration = state.nextGeneration := by
  simp [removeSession, apply_ite DbState.nextGeneration]

/-- Taking one off a count ends the entry or keeps its generation, and touches no other. -/
theorem releaseOne_generation {state state' : DbState} {w : WalletName} {zero : Bool}
    (h : state.releaseOne w = (zero, state')) (v : WalletName) :
    state'.generation v = if v = w ∧ zero = true then none else state.generation v := by
  rcases releaseOne_cases h with ⟨-, rfl, rfl⟩ | ⟨session, rest, hs, rfl, -, hgen, rfl⟩ |
    ⟨session, hs, rfl, -, rfl⟩
  · simp
  · by_cases hv : v = w
    · subst hv
      simp [generation, hs, hgen]
    · simp [generation, hv]
  · by_cases hv : v = w <;> simp [generation, removeSession_lookup, hv]

theorem releaseOne_nextGeneration {state state' : DbState} {w : WalletName} {zero : Bool}
    (h : state.releaseOne w = (zero, state')) : state'.nextGeneration = state.nextGeneration := by
  rcases releaseOne_cases h with ⟨-, -, rfl⟩ | ⟨_, _, -, -, -, -, rfl⟩ | ⟨_, -, -, -, rfl⟩
  · rfl
  · rfl
  · exact removeSession_nextGeneration state w

theorem removeSession_generation (state : DbState) (w v : WalletName) :
    (state.removeSession w).generation v = if v = w then none else state.generation v := by
  rw [generation, removeSession_lookup, apply_ite (Option.map _)]
  rfl

/-- A pool on no other path is on this one. -/
theorem eq_of_not_onOtherPath {state : DbState} {path : PathBuf} {db : OpenDatabase}
    (h : ¬ state.onOtherPath path = true) (hdb : state.openDatabase = some db) : db = ⟨path⟩ := by
  cases db
  simpa [onOtherPath, hdb] using h

/-- A count that fails changes no entry; at most it closes a pool nobody counts. -/
theorem count_error {state state' : DbState} {path : PathBuf} {w : WalletName}
    {opens : Except BridgeError Unit} {e : BridgeError}
    (h : state.count path w opens = (.error e, state')) :
    state' = state ∨ state' = state.closePool ∧ Table.isEmpty state.sessions = true := by
  unfold count at h
  by_cases hother : state.onOtherPath path = true
  · by_cases hempty : Table.isEmpty state.sessions = true
    · cases opens <;> simp_all [closePool]
    · left
      simp_all
  · left
    cases hdb : state.openDatabase <;> cases opens <;> simp_all

/-- A count that succeeds is made on the path, with its pool open. -/
theorem count_ok {state state' : DbState} {path : PathBuf} {w : WalletName}
    {opens : Except BridgeError Unit} {g : Nat} {opened : Bool}
    (h : state.count path w opens = (.ok (g, opened), state')) :
    { state with openDatabase := some ⟨path⟩, path := some path }.acquireSession w = (g, state') ∧
      (state.openDatabase = some ⟨path⟩ ∨ state.openDatabase = none ∨
        Table.isEmpty state.sessions = true) := by
  unfold count at h
  by_cases hother : state.onOtherPath path = true
  · by_cases hempty : Table.isEmpty state.sessions = true
    · cases opens <;> simp_all [closePool, Prod.ext_iff]
    · simp_all
  · cases hdb : state.openDatabase with
    | none => cases opens <;> simp_all [Prod.ext_iff]
    | some db =>
      obtain rfl := eq_of_not_onOtherPath hother hdb
      simp_all [Prod.ext_iff]

end DbState

end CwTariWallet
