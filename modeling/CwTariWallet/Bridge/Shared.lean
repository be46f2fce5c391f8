/-
# CwTariWallet.Bridge.Shared -- everything the calls share

Every `static` of the process and everything behind it: `DB_STATE`, `UNLOCK_GATES`, `SCAN_STATE` with
the scans' tokens, `SCAN_ID`, `MAINTENANCE`, the process network, minotari's key sessions and the
database files.  Both Flutter engines run in this one process, so the calls of both meet here.

Each function is one atomic step: one critical section, one lock taken or dropped, one call into
minotari.  `Choice` is what the outside world answers it.  `ledger` is a history of who counted and
who gave back; no step reads it.
-/
import CwTariWallet.Api.Db
import CwTariWallet.Api.Scanner
import CwTariWallet.Domain.Validation

namespace CwTariWallet

open Interleaving (CallId)

/-- For one generation of a wallet's entry: the unlocks counted into it, the `lock_wallet` calls that
took one off, the failed unlocks that gave theirs back, and the calls that removed the whole entry. -/
structure Ledger where
  counted : List CallId := []
  locked : List CallId := []
  givenBack : List CallId := []
  removed : List CallId := []
  deriving DecidableEq

/-- What the bridge has of `tari_common`: given the network that is set, if one is, its
`set_network_if_choice_valid` refuses a choice with a text, or lets it through and leaves a network set.  The
crate is not part of this repository, so what it answers is left open. -/
structure TariCommon where
  setNetworkIfChoiceValid : Option Network → Network → Except String (Option Network)

/-- The process network, kept by the crate the process is built with. -/
structure ProcessNetwork where
  current : Option Network
  tariCommon : TariCommon

/-- `set_network_if_choice_valid`. -/
def ProcessNetwork.setIfChoiceValid (network : ProcessNetwork) (choice : Network) :
    Except String ProcessNetwork :=
  match network.tariCommon.setNetworkIfChoiceValid network.current choice with
  | .error text => .error text
  | .ok current => .ok { network with current := current }

structure Shared where
  /-- `DB_STATE`. -/
  db : DbState
  /-- Who holds each wallet's gate of `UNLOCK_GATES`. -/
  gates : WalletName → Option CallId
  /-- minotari's key sessions. -/
  keys : KeySessions
  /-- The number the next stored key session gets. -/
  nextSerial : Nat
  /-- The database files. -/
  files : PathBuf → WalletDatabase
  /-- `SCAN_STATE`. -/
  scans : ScanState
  /-- The tokens of the scans. -/
  tokens : TokenMap
  /-- `SCAN_ID`. -/
  scanId : Nat
  /-- Who holds each wallet's lock of `MAINTENANCE`. -/
  maintenance : WalletName → Option CallId
  /-- The process network. -/
  network : ProcessNetwork
  /-- The history of each generation. -/
  ledger : Nat → Ledger

/-- minotari's answer to a recorded send. -/
structure FinalizedSend where
  transaction : String
  acceptedByNode : Bool
  note : Option String
  nodeReason : Option String
  deriving DecidableEq, Repr

/-- What the outside world answers an atomic step; each step reads only the parts it names. -/
structure Choice where
  /-- Opening a pool, or getting a connection from it, fails. -/
  poolError : Option BridgeError := none
  /-- The database or session call fails. -/
  dbError : Option WalletDbError := none
  /-- Any other upstream call fails, with this text. -/
  upstream : Option String := none
  /-- The errors behind it. -/
  causes : List String := []
  /-- minotari's answer for a key session made from another file. -/
  foreign : Bool := false
  /-- A maintenance write drops the wallet's key session now. -/
  drops : Bool := false
  /-- The rows found past their `expires_at`. -/
  expired : List RowId := []
  /-- Base58 parsing. -/
  fromBase58 : String → Except String TariAddress := fun _ => .error ""
  /-- The row and inputs a build reserves. -/
  row : RowId := ""
  inputs : List OutputId := []
  /-- The row's status a failed finalize leaves behind, when it does not leave it alone. -/
  rowAfter : Option PendingStatus := none
  /-- What a recorded send comes to. -/
  sent : FinalizedSend := ⟨"", true, none, none⟩
  /-- A scanner event the forwarder receives, and the callback's answer if it is called. -/
  event : Option (ProcessingEvent × Bool) := none
  /-- The address derived from a wallet's keys. -/
  address : String := ""

/-- What opening a pool comes to. -/
def Choice.opens (ch : Choice) : Except BridgeError Unit :=
  match ch.poolError with
  | some e => .error e
  | none => .ok ()

namespace Shared

/-- A fresh process over the given files. -/
def initial (files : PathBuf → WalletDatabase) (tariCommon : TariCommon) : Shared where
  db := .initial
  gates := fun _ => none
  keys := fun _ => none
  nextSerial := 0
  files := files
  scans := .initial
  tokens := fun _ => {}
  scanId := 0
  maintenance := fun _ => none
  network := ⟨none, tariCommon⟩
  ledger := fun _ => {}

/-! ## Connections -/

/-- `get_db_pool`: the file the pool is on.  Only a temporary pool has to be opened. -/
def getDbPool (σ : Shared) (ch : Choice) : Except BridgeError PathBuf :=
  match σ.db.openDatabase, ch.poolError with
  | none, some e => σ.db.getDbPath.bind fun _ => .error e
  | _, _ => σ.db.getDbPath

/-- `get_db_connection`: the file the connection is to. -/
def getDbConnection (σ : Shared) (ch : Choice) : Except BridgeError PathBuf :=
  match σ.db.getDbPath with
  | .error e => .error e
  | .ok path =>
    match ch.poolError with
    | some e => .error e
    | none => .ok path

/-- The file's contents replaced. -/
def setFile (σ : Shared) (file : PathBuf) (db : WalletDatabase) : Shared :=
  { σ with files := Function.update σ.files file db }

/-- `release_expired_reservations` on a connection to `file`. -/
def releaseExpired (σ : Shared) (file : PathBuf) (ch : Choice) : Shared :=
  σ.setFile file (match ch.dbError with
    | some _ => σ.files file
    | none => (σ.files file).releaseExpired ch.expired)

/-- `session::is_unlocked` on a connection to `file`. -/
def isUnlocked (σ : Shared) (file : PathBuf) (walletName : WalletName) (ch : Choice) :
    Except WalletDbError Bool :=
  match ch.dbError with
  | some e => .error e
  | none => .ok (σ.keys.isUnlocked file walletName ch.foreign)

/-! ## Gates and maintenance locks -/

/-- `hold(&gate)`, once the gate is free. -/
def holdGate (σ : Shared) (walletName : WalletName) (me : CallId) : Option Shared :=
  if σ.gates walletName = none then
    some { σ with gates := Function.update σ.gates walletName (some me) }
  else none

/-- The gate's guard goes out of scope. -/
def dropGate (σ : Shared) (walletName : WalletName) : Shared :=
  { σ with gates := Function.update σ.gates walletName none }

/-- `begin_maintenance`, once the lock is free. -/
def beginMaintenance (σ : Shared) (walletName : WalletName) (me : CallId) : Option Shared :=
  if σ.maintenance walletName = none then
    some { σ with maintenance := Function.update σ.maintenance walletName (some me) }
  else none

/-- The maintenance guard goes out of scope. -/
def dropMaintenance (σ : Shared) (walletName : WalletName) : Shared :=
  { σ with maintenance := Function.update σ.maintenance walletName none }

/-! ## Open counts -/

/-- The ledger of `generation`, when there is one, changed by `f`. -/
def note (σ : Shared) (generation : Option Nat) (f : Ledger → Ledger) : Nat → Ledger :=
  match generation with
  | none => σ.ledger
  | some g => Function.update σ.ledger g (f (σ.ledger g))

/-- The critical section of `unlock_wallet`: open the pool if none is open, and count. -/
def count (σ : Shared) (me : CallId) (path : PathBuf) (walletName : WalletName) (ch : Choice) :
    Except BridgeError Nat × Shared :=
  match σ.db.count path walletName ch.opens with
  | (.error e, db) => (.error e, { σ with db := db })
  | (.ok (generation, opened), db) =>
    let ledger := σ.note (some generation) fun l => { l with counted := me :: l.counted }
    let σ := { σ with db := db, ledger := ledger }
    (.ok generation, if opened then σ.releaseExpired path ch else σ)

/-- `release_session`: whether the count reached zero. -/
def releaseSession (σ : Shared) (me : CallId) (walletName : WalletName) : Bool × Shared :=
  let (zero, db) := σ.db.releaseOne walletName
  (zero, { σ with
    db := db
    ledger := σ.note (σ.db.generation walletName) fun l => { l with locked := me :: l.locked } })

/-- The state step of `release_failed_unlock`. -/
def releaseFailed (σ : Shared) (me : CallId) (walletName : WalletName) (generation : Nat) :
    Bool × Shared :=
  let (zero, db) := σ.db.releaseFailed walletName generation
  (zero, { σ with
    db := db
    ledger :=
      if σ.db.stillCounted walletName generation then
        σ.note (some generation) fun l => { l with givenBack := me :: l.givenBack }
      else σ.ledger })

/-- The state step of `lock_wallet_everywhere`. -/
def removeSession (σ : Shared) (me : CallId) (walletName : WalletName) : Shared :=
  { σ with
    db := σ.db.removeSession walletName
    ledger := σ.note (σ.db.generation walletName) fun l => { l with removed := me :: l.removed } }

/-! ## Scans -/

/-- `cancel_wallet_scans`: the running scan, if there is one. -/
def cancelWalletScans (σ : Shared) (walletName : WalletName) : Option CallId × Shared :=
  let (waitFor, scans, tokens) := σ.scans.cancelWalletScans σ.tokens walletName
  (waitFor, { σ with scans := scans, tokens := tokens })

/-- The state step of `stop_scan`. -/
def stopScan (σ : Shared) (handle : ScanHandle) : Option CallId × Shared :=
  let (waitFor, scans, tokens) := σ.scans.stopScan σ.tokens handle
  (waitFor, { σ with scans := scans, tokens := tokens })

/-- The state step of `scan`: leave `starting` and take the slot.  `ok none` is a scan that was
stopped while it waited. -/
def enterSlot (σ : Shared) (walletName : WalletName) (controller : ScanController) :
    Except WalletError (Option (Option CallId)) × Shared :=
  if (σ.scans.starting.lookup controller.id).isNone then (.ok none, σ)
  else
    let scans := σ.scans.unstart controller.id
    match scans.takeSlot σ.tokens walletName controller with
    | .error e => (.error e, { σ with scans := scans })
    | .ok (previous, scans, tokens) =>
      (.ok (some (previous.map (·.scan))), { σ with scans := scans, tokens := tokens })

end Shared

end CwTariWallet
