/-
# CwTariWallet.Bridge.Scan -- `start_scan` and `rescan`, step by step

`run_scan`, `claim_and_scan`, `scan` and `scan_in_slot` as one line of positions, from claiming the
handle to the `stopped` token.  The scanner and the event-forwarder run side by side inside `running`;
once the scanner has dropped its sender the forwarder drains what is left.  `stop_scan` and
`create_scan_handle` are at the end.
-/
import CwTariWallet.Bridge.Locks
import CwTariWallet.Domain.Text

namespace CwTariWallet

open Interleaving (CallId)

/-- What a scan that was handed its slot, or ended before, comes back with. -/
abbrev ScanOutcome := Except BridgeError ScanEventDto

/-- Where a `start_scan` / `rescan` call stands. -/
inductive ScanAt where
  /-- About to claim the handle. -/
  | claim
  /-- Claimed: about to read `get_db_path`. -/
  | dbPath
  | conn
  /-- `unlocked_account`: about to read the account row. -/
  | account (file : PathBuf)
  /-- `unlocked_account`: about to ask `is_unlocked`; then the rescan height is checked. -/
  | check (file : PathBuf)
  /-- Waiting for the maintenance lock. -/
  | maintenance
  /-- With the maintenance lock: about to take the slot. -/
  | slot
  /-- In the slot: about to drop the maintenance lock. -/
  | dropMaintenance (previous : Option CallId)
  /-- Not in the slot: about to drop the maintenance lock and return. -/
  | leaveMaintenance (outcome : ScanOutcome)
  /-- Waiting for the replaced scan's `stopped` token. -/
  | waitPrevious (previous : CallId)
  /-- `scan_in_slot`: about to look at the token for the first time. -/
  | firstCheck
  | sweepConn
  | sweep (file : PathBuf)
  | rollbackConn (fromHeight : Nat)
  | rollback (file : PathBuf) (fromHeight : Nat)
  /-- About to look at the token again, after the rollback. -/
  | secondCheck
  /-- The scanner runs. -/
  | running
  /-- The scanner has ended; the forwarder drains. -/
  | draining (result : Option String)
  /-- About to read the superseded flag. -/
  | readSuperseded
  /-- About to clear the slot. -/
  | clear (outcome : ScanOutcome)
  /-- `session_gone`: about to get a connection. -/
  | goneConn (e : BridgeError)
  /-- `session_gone`: about to ask `is_unlocked`. -/
  | gone (file : PathBuf) (e : BridgeError)
  /-- About to forget the id. -/
  | unstart (outcome : ScanOutcome)
  /-- About to send the terminal event. -/
  | terminal (outcome : ScanOutcome)
  /-- About to return: the `stopped` token fires. -/
  | stop (r : Except BridgeError Unit)
  | returned (r : Except BridgeError Unit)
  deriving DecidableEq, Repr

/-- A `start_scan` (`rescanFrom = none`) or `rescan` call.  `dbPath` is the path handed to the
scanner; `checked`, `swept` and `rolledBack` are history: the file `unlocked_account` looked at with
the key session it found there, and the files the sweep and the rollback ran on. -/
structure Scan where
  handle : ScanHandle
  walletName : WalletName
  priority : ScanPriority
  continuous : Bool
  rescanFrom : Option Nat
  pos : ScanAt := .claim
  dbPath : Option PathBuf := none
  forwarder : Forwarder := {}
  checked : Option (PathBuf × KeySession) := none
  swept : Option PathBuf := none
  rolledBack : Option PathBuf := none
  deriving DecidableEq, Repr

namespace Scan

/-- The same call elsewhere. -/
def goto (s : Scan) (pos : ScanAt) : Scan := { s with pos := pos }

/-- After the sweep: the rollback of a rescan, or straight to the scanner. -/
def afterSweep (s : Scan) : Scan :=
  match s.rescanFrom with
  | some fromHeight => s.goto (.rollbackConn fromHeight)
  | none => s.goto .running

/-- The terminal event `run_scan` sends for an outcome. -/
def terminalEvent : ScanOutcome → ScanEventDto
  | .ok event => event
  | .error e => .error (stripFormatChars e.display)

/-- What `run_scan` returns for an outcome: of an error, the whole rendering as its message. -/
def result : ScanOutcome → Except BridgeError Unit
  | .ok _ => .ok ()
  | .error e => .error (.upstream (stripFormatChars e.debug))

/-- The forwarder receives `event`. -/
def receive (s : Scan) (me : CallId) (σ : Shared) (event : ProcessingEvent) (accepts : Bool) :
    Scan × Shared :=
  let (forwarder, cancel) := s.forwarder.receive event accepts
  ({ s with forwarder := forwarder },
    { σ with tokens := if cancel then σ.tokens.cancel me else σ.tokens })

def next (me : CallId) (ch : Choice) (σ : Shared) (s : Scan) : Option (Scan × Shared) :=
  match s.pos with
  | .claim =>
    if s.handle.walletName ≠ s.walletName then
      some (s.goto (.terminal (.error (.wallet (.wallet "The scan handle belongs to another wallet")))),
        σ)
    else
      match σ.scans.claim s.handle with
      | (.stoppedBefore, scans) => some (s.goto (.terminal (.ok .cancelled)), { σ with scans := scans })
      | (.used, _) =>
        some (s.goto (.terminal (.error (.wallet (.wallet "This scan handle was already used")))), σ)
      | (.claimed, scans) => some (s.goto .dbPath, { σ with scans := scans })
  | .dbPath =>
    match σ.db.getDbPath with
    | .error e => some (s.goto (.unstart (.error e)), σ)
    | .ok path => some ({ s with pos := .conn, dbPath := some path }, σ)
  | .conn =>
    match σ.getDbConnection ch with
    | .error e => some (s.goto (.unstart (.error e)), σ)
    | .ok file => some (s.goto (.account file), σ)
  | .account file =>
    match ch.dbError with
    | some e => some (s.goto (.unstart (.error (.wallet (.database e.text)))), σ)
    | none =>
      match (σ.files file).getAccountByName s.walletName with
      | none => some (s.goto (.unstart (.error (.wallet .noAccounts))), σ)
      | some _ => some (s.goto (.check file), σ)
  | .check file =>
    match σ.isUnlocked file s.walletName ch with
    | .error e => some (s.goto (.unstart (.error (.wallet (.database e.text)))), σ)
    | .ok false => some (s.goto (.unstart (.error (.wallet .locked))), σ)
    | .ok true =>
      let s := { s with checked := (σ.keys s.walletName).map fun k => (file, k) }
      match s.rescanFrom.map checkRescanHeight with
      | some (.error e) => some (s.goto (.unstart (.error e)), σ)
      | _ => some (s.goto .maintenance, σ)
  | .maintenance => (σ.beginMaintenance s.walletName me).map fun σ => (s.goto .slot, σ)
  | .slot =>
    match σ.enterSlot s.walletName ⟨s.handle.id, s.priority, me⟩ with
    | (.error e, σ) => some (s.goto (.leaveMaintenance (.error (.wallet e))), σ)
    | (.ok none, σ) => some (s.goto (.leaveMaintenance (.ok .cancelled)), σ)
    | (.ok (some previous), σ) => some (s.goto (.dropMaintenance previous), σ)
  | .dropMaintenance previous =>
    some (s.goto (match previous with
      | some p => .waitPrevious p
      | none => .firstCheck), σ.dropMaintenance s.walletName)
  | .leaveMaintenance outcome => some (s.goto (.unstart outcome), σ.dropMaintenance s.walletName)
  | .waitPrevious p => if (σ.tokens p).stopped then some (s.goto .firstCheck, σ) else none
  | .firstCheck =>
    if (σ.tokens me).cancelled then
      some (s.goto (.clear (.ok (stoppedEvent (σ.tokens me).superseded))), σ)
    else some (s.goto .sweepConn, σ)
  | .sweepConn =>
    match σ.getDbConnection ch with
    | .error _ => some (s.afterSweep, σ)
    | .ok file => some (s.goto (.sweep file), σ)
  | .sweep file => some ({ s with swept := some file }.afterSweep, σ.releaseExpired file ch)
  | .rollbackConn fromHeight =>
    match checkRescanHeight fromHeight with
    | .error e => some (s.goto (.clear (.error e)), σ)
    | .ok () =>
      match σ.getDbConnection ch with
      | .error e => some (s.goto (.clear (.error e)), σ)
      | .ok file => some (s.goto (.rollback file fromHeight), σ)
  | .rollback file _ =>
    match ch.upstream with
    | some text => some (s.goto (.clear (.error (.wallet (.database text)))), σ)
    | none =>
      match (σ.files file).getAccountByName s.walletName with
      | none => some (s.goto (.clear (.error (.wallet .noAccounts))), σ)
      | some _ => some ({ s with pos := .secondCheck, rolledBack := some file }, σ)
  | .secondCheck =>
    if (σ.tokens me).cancelled then
      some (s.goto (.clear (.ok (stoppedEvent (σ.tokens me).superseded))), σ)
    else some (s.goto .running, σ)
  | .running =>
    match ch.event with
    | some (event, accepts) => some (s.receive me σ event accepts)
    | none => some (s.goto (.draining ch.upstream), σ)
  | .draining result =>
    match ch.event with
    | some (event, accepts) => some (s.receive me σ event accepts)
    | none =>
      match result with
      | some text => some (s.goto (.clear (.error (.upstream text ch.causes))), σ)
      | none => some (s.goto .readSuperseded, σ)
  | .readSuperseded =>
    if (σ.tokens me).superseded then some (s.goto (.clear (.ok .superseded)), σ)
    else some (s.goto (.clear (.ok (s.forwarder.terminal.getD .cancelled))), σ)
  | .clear outcome =>
    let σ := { σ with scans := σ.scans.clearScanIfCurrent s.walletName s.handle.id }
    match outcome with
    | .ok event => some (s.goto (.unstart (.ok event)), σ)
    | .error e => some (s.goto (.goneConn e), σ)
  | .goneConn e =>
    match σ.getDbConnection ch with
    | .error _ => some (s.goto (.unstart (.error e)), σ)
    | .ok file => some (s.goto (.gone file e), σ)
  | .gone file e =>
    match σ.isUnlocked file s.walletName ch with
    | .ok false => some (s.goto (.unstart (.error (.wallet .locked))), σ)
    | _ => some (s.goto (.unstart (.error e)), σ)
  | .unstart outcome =>
    some (s.goto (.terminal outcome), { σ with scans := σ.scans.unstart s.handle.id })
  | .terminal outcome =>
    let forwarder :=
      { s.forwarder with delivered := s.forwarder.delivered ++ [terminalEvent outcome] }
    some ({ s with pos := .stop (result outcome), forwarder := forwarder }, σ)
  | .stop r => some (s.goto (.returned r), { σ with tokens := σ.tokens.stop me })
  | .returned _ => none

end Scan

/-! ## `stop_scan` -/

/-- Where a `stop_scan` call stands. -/
inductive StopScanAt where
  | stop
  | wait (scan : CallId)
  | returned
  deriving DecidableEq, Repr

structure StopScan where
  handle : ScanHandle
  pos : StopScanAt
  deriving DecidableEq, Repr

def StopScan.next (σ : Shared) (s : StopScan) : Option (StopScan × Shared) :=
  match s.pos with
  | .stop =>
    match σ.stopScan s.handle with
    | (some scan, σ) => some ({ s with pos := .wait scan }, σ)
    | (none, σ) => some ({ s with pos := .returned }, σ)
  | .wait scan =>
    if (σ.tokens scan).stopped then some ({ s with pos := .returned }, σ) else none
  | .returned => none

/-! ## `create_scan_handle` -/

/-- Where a `create_scan_handle` call stands. -/
inductive CreateHandleAt where
  | fetch
  | insert (id : Nat)
  | returned (handle : ScanHandle)
  deriving DecidableEq, Repr

structure CreateScanHandle where
  walletName : WalletName
  pos : CreateHandleAt
  deriving DecidableEq, Repr

def CreateScanHandle.next (σ : Shared) (h : CreateScanHandle) :
    Option (CreateScanHandle × Shared) :=
  match h.pos with
  | .fetch => some ({ h with pos := .insert σ.scanId }, { σ with scanId := σ.scanId + 1 })
  | .insert id =>
    some ({ h with pos := .returned ⟨h.walletName, id⟩ }, { σ with scans := σ.scans.issue id })
  | .returned _ => none

end CwTariWallet
