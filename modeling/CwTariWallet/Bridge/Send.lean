/-
# CwTariWallet.Bridge.Send -- `send_transaction_with_handler`, step by step

The send reserves its inputs in `build`, checks the session again before and after signing, and hands
the reservation back on every failure from there on.  Between any two steps another call may lock the
wallet or move the process to another file.  `log` is history: what the call reported, asked and did,
oldest first; no step reads it.
-/
import CwTariWallet.Bridge.Accounts
import CwTariWallet.Domain.Text

namespace CwTariWallet

open Interleaving (CallId)

/-- The lifecycle stage of an in-flight send. -/
inductive TransactionStage where
  | initializing
  | validatingInput
  | connectingToNetwork
  | constructingTransaction
  | signingKeyGeneration
  | signingTransaction
  | broadcasting
  | broadcasted
  deriving DecidableEq, Repr

structure SendTransactionEvent where
  stage : TransactionStage
  details : String
  deriving DecidableEq, Repr

/-- The outcome of a `send_transaction`. -/
structure SendResultDto where
  transaction : String
  acceptedByNode : Bool
  note : Option String
  nodeReason : Option String
  deriving DecidableEq, Repr

/-- `From<FinalizedSend>`. -/
def SendResultDto.ofFinalizedSend (sent : FinalizedSend) : SendResultDto where
  transaction := sent.transaction
  acceptedByNode := sent.acceptedByNode
  note := sent.note
  nodeReason := sent.nodeReason.map stripFormatChars

/-- The checks of the session a send makes. -/
inductive SessionCheck where
  /-- `unlocked_account` of the key load. -/
  | keyLoad
  /-- `with_session` of the key load, after the keys were read. -/
  | keyLoadAgain
  /-- `unlocked_in` after the build. -/
  | postBuild
  /-- `unlocked_in` before finalize. -/
  | preFinalize
  deriving DecidableEq, Repr

/-- One thing a send did. -/
inductive SendEvent where
  | reported (event : SendTransactionEvent)
  /-- A session check was made; any error reads as locked. -/
  | checked (check : SessionCheck) (unlocked : Bool)
  /-- The keys were read with an empty passphrase while the session was, or was not, live. -/
  | readKeys (live : Bool)
  /-- `build_unsigned_transaction` was called. -/
  | build
  /-- It returned, with this row reserved in this file. -/
  | built (row : RowId) (file : PathBuf)
  /-- `finalize_transaction_and_broadcast` was called, with this base URL. -/
  | finalize (baseUrl : String)
  /-- It returned, `Ok` or not. -/
  | finalized (ok : Bool)
  /-- `release_send_reservation` was called. -/
  | release (row : RowId)
  /-- `expire_and_unlock_pending_transaction` ran in this file, and acted or not. -/
  | expired (row : RowId) (file : PathBuf) (acted : Bool)
  deriving DecidableEq, Repr

/-- `TransactionSender`: the file of its pool, and what it was built with. -/
structure TransactionSender where
  dbPool : PathBuf
  validated : ValidatedInputs
  deriving DecidableEq, Repr

/-- Why a reservation is released. -/
inductive ReleaseCause where
  /-- A check found the wallet locked. -/
  | locked
  | signing (text : String)
  | finalize (text : String)
  deriving DecidableEq, Repr

/-- Where a send stands. -/
inductive SendAt where
  | initializing
  | validate
  | applyNetwork (validated : ValidatedInputs)
  /-- `create_transaction_sender`. -/
  | createSender (validated : ValidatedInputs)
  /-- `stored_key_manager`: about to get a connection. -/
  | keyConn (sender : TransactionSender)
  /-- `unlocked_account`: about to read the account row. -/
  | keyAccount (sender : TransactionSender) (file : PathBuf)
  /-- `unlocked_account`: about to ask `is_unlocked`. -/
  | keyCheck (sender : TransactionSender) (file : PathBuf) (account : AccountRow)
  /-- About to read the keys with an empty passphrase. -/
  | decrypt (sender : TransactionSender) (file : PathBuf) (account : AccountRow)
  /-- `with_session`: about to ask `is_unlocked` again. -/
  | keyCheckAgain (sender : TransactionSender) (file : PathBuf) (account : AccountRow)
      (keys : Except BridgeError Unit)
  | sweepConn (sender : TransactionSender)
  | sweep (sender : TransactionSender) (file : PathBuf)
  | build (sender : TransactionSender)
  /-- `unlocked_in`, after the build. -/
  | postBuild (sender : TransactionSender) (row : RowId)
  | signingKeys (sender : TransactionSender) (row : RowId)
  | sign (sender : TransactionSender) (row : RowId)
  /-- `unlocked_in`, before finalize. -/
  | preFinalize (sender : TransactionSender) (row : RowId)
  | finalize (sender : TransactionSender) (row : RowId)
  | broadcasted (sent : FinalizedSend)
  /-- `release_send_reservation`: about to get a connection. -/
  | releaseConn (sender : TransactionSender) (row : RowId) (cause : ReleaseCause)
  /-- `release_send_reservation`: about to expire the row. -/
  | release (sender : TransactionSender) (row : RowId) (cause : ReleaseCause) (file : PathBuf)
  /-- `session_gone`: about to get a connection. -/
  | goneConn (e : BridgeError)
  /-- `session_gone`: about to ask `is_unlocked`. -/
  | gone (file : PathBuf) (e : BridgeError)
  | returned (r : Except BridgeError SendResultDto)
  deriving DecidableEq, Repr

/-- A `send_transaction` call. -/
structure SendTransaction where
  details : MultiSendTransactionDetails
  pos : SendAt := .initializing
  log : List SendEvent := []
  deriving DecidableEq, Repr

namespace SendTransaction

/-- The same call elsewhere, having done `events`. -/
def goto (s : SendTransaction) (pos : SendAt) (events : List SendEvent := []) : SendTransaction :=
  { s with pos := pos, log := s.log ++ events }

/-- `report`. -/
def report (stage : TransactionStage) (details : String) : SendEvent := .reported ⟨stage, details⟩

/-- `unlocked_in`. -/
def unlockedIn (σ : Shared) (pool : PathBuf) (walletName : WalletName) (ch : Choice) : Bool :=
  ch.poolError.isNone && σ.isUnlocked pool walletName ch == .ok true

/-- What follows `release_send_reservation`. -/
def afterRelease : ReleaseCause → SendAt
  | .locked => .returned (.error (.wallet .locked))
  | .signing text => .returned (.error (.wallet (.signing text)))
  | .finalize text => .goneConn (.wallet (.network (stripFormatChars text)))

def next (ch : Choice) (σ : Shared) (s : SendTransaction) : Option (SendTransaction × Shared) :=
  match s.pos with
  | .initializing => some (s.goto .validate [report .initializing "Starting workflow..."], σ)
  | .validate =>
    let reported := [report .validatingInput "Parsing inputs..."]
    match validateInputs ch.fromBase58 s.details with
    | .error e => some (s.goto (.returned (.error (.wallet e))) reported, σ)
    | .ok validated => some (s.goto (.applyNetwork validated) reported, σ)
  | .applyNetwork validated =>
    match σ.applyNetwork validated.network with
    | (.error e, σ) => some (s.goto (.returned (.error e)), σ)
    | (.ok (), σ) => some (s.goto (.createSender validated), σ)
  | .createSender validated =>
    let reported := [report .connectingToNetwork "Accessing wallet database..."]
    match σ.getDbPool ch with
    | .error e => some (s.goto (.returned (.error (.wallet (.database e.display)))) reported, σ)
    | .ok dbPool =>
      match ch.upstream with
      | some text => some (s.goto (.returned (.error (.wallet (.wallet text)))) reported, σ)
      | none => some (s.goto (.keyConn ⟨dbPool, validated⟩) reported, σ)
  | .keyConn sender =>
    match σ.getDbConnection ch with
    | .error e => some (s.goto (.returned (.error e)), σ)
    | .ok file => some (s.goto (.keyAccount sender file), σ)
  | .keyAccount sender file =>
    match ch.dbError with
    | some e => some (s.goto (.returned (.error (.wallet (.database e.text)))), σ)
    | none =>
      match (σ.files file).getAccountByName s.details.walletName with
      | none => some (s.goto (.returned (.error (.wallet .noAccounts))), σ)
      | some account => some (s.goto (.keyCheck sender file account), σ)
  | .keyCheck sender file account =>
    match σ.isUnlocked file s.details.walletName ch with
    | .error e =>
      some (s.goto (.returned (.error (.wallet (.database e.text)))) [.checked .keyLoad false], σ)
    | .ok false =>
      some (s.goto (.returned (.error (.wallet .locked))) [.checked .keyLoad false], σ)
    | .ok true => some (s.goto (.decrypt sender file account) [.checked .keyLoad true], σ)
  | .decrypt sender file account =>
    -- Without a session minotari falls back to decrypting with the empty passphrase.
    let live := (σ.keys s.details.walletName).isSome
    let keys : Except BridgeError Unit := match ch.upstream with
      | some text => .error (.wallet (.wallet text))
      | none => .ok ()
    some (s.goto (.keyCheckAgain sender file account keys) [.readKeys live], σ)
  | .keyCheckAgain sender file account keys =>
    match σ.isUnlocked file s.details.walletName ch with
    | .error e =>
      some (s.goto (.returned (.error (.wallet (.database e.text)))) [.checked .keyLoadAgain false],
        σ)
    | .ok false =>
      some (s.goto (.returned (.error (.wallet .locked))) [.checked .keyLoadAgain false], σ)
    | .ok true =>
      let checked := [SendEvent.checked .keyLoadAgain true]
      match keys with
      | .error e => some (s.goto (.returned (.error e)) checked, σ)
      | .ok () =>
        if account.viewOnly then
          some (s.goto (.returned (.error (.wallet (.signing "View-only wallets cannot send"))))
            checked, σ)
        else
          -- `KeyManager::new`.
          match ch.upstream with
          | some text => some (s.goto (.returned (.error (.wallet (.wallet text)))) checked, σ)
          | none => some (s.goto (.sweepConn sender) checked, σ)
  | .sweepConn sender =>
    match σ.getDbConnection ch with
    | .error _ => some (s.goto (.build sender), σ)
    | .ok file => some (s.goto (.sweep sender file), σ)
  | .sweep sender file => some (s.goto (.build sender), σ.releaseExpired file ch)
  | .build sender =>
    let reported := [report .constructingTransaction "Building transaction UTXOs...", .build]
    if s.details.sendAll && sender.validated.recipients.isEmpty then
      some (s.goto (.goneConn (.wallet (.wallet "A send-all pays exactly one recipient"))) reported,
        σ)
    else
      match ch.upstream with
      | some text =>
        some (s.goto (.goneConn (.wallet (.wallet ("Failed to build transaction: " ++ text))))
          reported, σ)
      | none =>
        let db := σ.files sender.dbPool
        -- A row id is handed out once.
        if (db.pending ch.row).isSome then none
        else
          some (s.goto (.postBuild sender ch.row) (reported ++ [.built ch.row sender.dbPool]),
            σ.setFile sender.dbPool (db.reserve ch.row ch.inputs))
  | .postBuild sender row =>
    if unlockedIn σ sender.dbPool s.details.walletName ch then
      some (s.goto (.signingKeys sender row) [.checked .postBuild true], σ)
    else some (s.goto (.releaseConn sender row .locked) [.checked .postBuild false, .release row], σ)
  | .signingKeys sender row =>
    some (s.goto (.sign sender row) [report .signingKeyGeneration "Loading signing keys..."], σ)
  | .sign sender row =>
    let reported := [report .signingTransaction "Signing transaction..."]
    match ch.upstream with
    | some text =>
      some (s.goto (.releaseConn sender row (.signing text)) (reported ++ [.release row]), σ)
    | none => some (s.goto (.preFinalize sender row) reported, σ)
  | .preFinalize sender row =>
    if unlockedIn σ sender.dbPool s.details.walletName ch then
      some (s.goto (.finalize sender row) [.checked .preFinalize true], σ)
    else
      some (s.goto (.releaseConn sender row .locked) [.checked .preFinalize false, .release row], σ)
  | .finalize sender row =>
    let called := [report .broadcasting "Broadcasting to network...",
      .finalize (s.details.baseUrl.getD defaultBaseUrl)]
    let db := σ.files sender.dbPool
    match ch.upstream with
    | none =>
      some (s.goto (.broadcasted ch.sent) (called ++ [.finalized true]),
        σ.setFile sender.dbPool (db.complete row))
    | some text =>
      -- A failed finalize may have recorded the send, or released it, all the same.
      some (s.goto (.releaseConn sender row (.finalize text))
          (called ++ [.finalized false, .release row]),
        match ch.rowAfter with
        | some .completed => σ.setFile sender.dbPool (db.complete row)
        | some .expired => σ.setFile sender.dbPool (db.expireAndUnlock row).2
        | _ => σ)
  | .broadcasted sent =>
    some (s.goto (.returned (.ok (.ofFinalizedSend sent)))
      [report .broadcasted "Transaction broadcast"], σ)
  | .releaseConn sender row cause =>
    match σ.getDbConnection ch with
    | .error _ => some (s.goto (afterRelease cause), σ)
    | .ok file => some (s.goto (.release sender row cause file), σ)
  | .release _ row cause file =>
    match ch.dbError with
    | some _ => some (s.goto (afterRelease cause), σ)
    | none =>
      let (acted, db) := (σ.files file).expireAndUnlock row
      some (s.goto (afterRelease cause) [.expired row file acted], σ.setFile file db)
  | .goneConn e =>
    match σ.getDbConnection ch with
    | .error _ => some (s.goto (.returned (.error e)), σ)
    | .ok file => some (s.goto (.gone file e), σ)
  | .gone file e =>
    match σ.isUnlocked file s.details.walletName ch with
    | .ok false => some (s.goto (.returned (.error (.wallet .locked))), σ)
    | _ => some (s.goto (.returned (.error e)), σ)
  | .returned _ => none

end SendTransaction

end CwTariWallet
