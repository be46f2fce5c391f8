/-
# CwTariWallet.Bridge.Locks -- locking a wallet, step by step

The functions of `src/api/db.rs` and `src/api/scanner.rs` that every lock of a wallet goes through,
each as the position a call can have in it and the atomic step from there.  A step is `none` while
the call has to wait; a call that leaves a function hands its result to its caller.
-/
import CwTariWallet.Bridge.Shared

namespace CwTariWallet

open Interleaving (CallId)

/-! ## `lock_session_gate_held` -/

/-- Where a call stands in `lock_session_gate_held`. -/
inductive GateHeldAt where
  /-- About to read whether a new holder counted the wallet. -/
  | readState
  /-- About to call `session::lock`. -/
  | lockSession
  /-- About to call `cancel_wallet_scans`. -/
  | cancelScans
  deriving DecidableEq, Repr

/-- One step of `lock_session_gate_held`, or its result. -/
def GateHeldAt.next (walletName : WalletName) (σ : Shared) :
    GateHeldAt → (GateHeldAt ⊕ Bool) × Shared
  | .readState =>
    if (σ.db.sessions.lookup walletName).isSome then (.inr false, σ) else (.inl .lockSession, σ)
  | .lockSession => (.inl .cancelScans, { σ with keys := σ.keys.lock walletName })
  | .cancelScans => (.inr true, (σ.cancelWalletScans walletName).2)

/-! ## `lock_session_unless_held` -/

/-- Where a call stands in `lock_session_unless_held`: its gate step. -/
inductive GateAt where
  /-- Waiting for the wallet's gate. -/
  | wait
  /-- Inside `lock_session_gate_held`, with the gate. -/
  | held (h : GateHeldAt)
  /-- About to drop the gate and return. -/
  | leave (locked : Bool)
  deriving DecidableEq, Repr

def GateAt.next (me : CallId) (walletName : WalletName) (σ : Shared) :
    GateAt → Option ((GateAt ⊕ Bool) × Shared)
  | .wait => (σ.holdGate walletName me).map fun σ => (.inl (.held .readState), σ)
  | .held h =>
    match h.next walletName σ with
    | (.inl h, σ) => some (.inl (.held h), σ)
    | (.inr locked, σ) => some (.inl (.leave locked), σ)
  | .leave locked => some (.inr locked, σ.dropGate walletName)

/-! ## `stop_wallet_scans` -/

/-- Where a call stands in `stop_wallet_scans`. -/
inductive StopAt where
  /-- About to cancel the wallet's scans. -/
  | cancel
  /-- Waiting for the running scan's `stopped` token. -/
  | wait (scan : CallId)
  deriving DecidableEq, Repr

def StopAt.next (walletName : WalletName) (σ : Shared) : StopAt → Option ((StopAt ⊕ Unit) × Shared)
  | .cancel =>
    match σ.cancelWalletScans walletName with
    | (some scan, σ) => some (.inl (.wait scan), σ)
    | (none, σ) => some (.inr (), σ)
  | .wait scan => if (σ.tokens scan).stopped then some (.inr (), σ) else none

/-! ## `lock_wallet_everywhere` -/

/-- Where a call stands in `lock_wallet_everywhere`.  `file` is history: the file whose entry the
call removed. -/
inductive EverywhereAt where
  | remove
  | gate (file : Option PathBuf) (g : GateAt)
  | stop (s : StopAt)
  deriving DecidableEq, Repr

/-- The file of an entry of `wallet_name`, if it has one. -/
def Shared.entryFile (σ : Shared) (walletName : WalletName) : Option PathBuf :=
  if (σ.db.sessions.lookup walletName).isSome then σ.db.openDatabase.map (·.path) else none

def EverywhereAt.next (me : CallId) (walletName : WalletName) (σ : Shared) :
    EverywhereAt → Option ((EverywhereAt ⊕ Unit) × Shared)
  | .remove => some (.inl (.gate (σ.entryFile walletName) .wait), σ.removeSession me walletName)
  | .gate file g =>
    match g.next me walletName σ with
    | none => none
    | some (.inl g, σ) => some (.inl (.gate file g), σ)
    | some (.inr _, σ) => some (.inl (.stop .cancel), σ)
  | .stop s =>
    match s.next walletName σ with
    | none => none
    | some (.inl s, σ) => some (.inl (.stop s), σ)
    | some (.inr (), σ) => some (.inr (), σ)

/-! ## `lock_wallet` -/

/-- Where a `lock_wallet` call stands. -/
inductive LockAt where
  | release
  | gate (file : Option PathBuf) (g : GateAt)
  | stop (s : StopAt)
  | returned (r : Bool)
  deriving DecidableEq, Repr

/-- A `lock_wallet` call.  `holder` is history: the `unlock_wallet` call whose hold the caller gives
up, when it gives one up.  The code never sees it. -/
structure LockWallet where
  walletName : WalletName
  holder : Option CallId
  pos : LockAt
  deriving DecidableEq, Repr

def LockWallet.next (me : CallId) (σ : Shared) (l : LockWallet) : Option (LockWallet × Shared) :=
  match l.pos with
  | .release =>
    match σ.releaseSession me l.walletName with
    | (false, σ') => some ({ l with pos := .returned false }, σ')
    | (true, σ') => some ({ l with pos := .gate (σ.entryFile l.walletName) .wait }, σ')
  | .gate file g =>
    match g.next me l.walletName σ with
    | none => none
    | some (.inl g, σ) => some ({ l with pos := .gate file g }, σ)
    | some (.inr false, σ) => some ({ l with pos := .returned false }, σ)
    | some (.inr true, σ) => some ({ l with pos := .stop .cancel }, σ)
  | .stop s =>
    match s.next l.walletName σ with
    | none => none
    | some (.inl s, σ) => some ({ l with pos := .stop s }, σ)
    | some (.inr (), σ) => some ({ l with pos := .returned true }, σ)
  | .returned _ => none

/-! ## `force_lock_wallet` -/

/-- Where a `force_lock_wallet` call stands. -/
inductive ForceAt where
  | everywhere (e : EverywhereAt)
  | returned
  deriving DecidableEq, Repr

structure ForceLockWallet where
  walletName : WalletName
  pos : ForceAt
  deriving DecidableEq, Repr

def ForceLockWallet.next (me : CallId) (σ : Shared) (f : ForceLockWallet) :
    Option (ForceLockWallet × Shared) :=
  match f.pos with
  | .everywhere e =>
    match e.next me f.walletName σ with
    | none => none
    | some (.inl e, σ) => some ({ f with pos := .everywhere e }, σ)
    | some (.inr (), σ) => some ({ f with pos := .returned }, σ)
  | .returned => none

end CwTariWallet
