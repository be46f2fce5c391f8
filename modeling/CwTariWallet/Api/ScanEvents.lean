/-
# CwTariWallet.Api.ScanEvents -- what a scan stream can say

The scanner's `ProcessingEvent`s, the `ScanEventDto`s Dart sees, and the event-forwarder between the
two: every non-terminal event goes to the callback in order until a delivery fails, and the terminal
one is held back for `run_scan` to send last.  A transaction stands as its id; no function here reads
more of it.
-/
import Mathlib.Logic.Function.Basic

namespace CwTariWallet

/-- An event streamed by `start_scan` and `rescan`. -/
inductive ScanEventDto where
  | started (accountId : Int) (fromHeight : Nat)
  | progress (accountId : Int) (currentHeight tipHeight blocksScanned : Nat)
  | completed (accountId : Int) (finalHeight totalBlocksScanned : Nat)
  | waiting (accountId : Int) (resumeInSeconds : Nat)
  | moreBlocksAvailable (accountId : Int) (lastScannedHeight : Nat)
  | transactionsReady (accountId : Int) (transactions : List String) (blockHeight : Option Nat)
      (isInitialSync : Bool)
  | transactionsUpdated (accountId : Int) (updatedTransactions : List String)
  | reorgDetected (accountId : Int) (reorgFromHeight newHeight blocksRolledBack : Nat)
      (cancelledTransactionIds reorganizedTransactions : List String)
  | cancelled
  | superseded
  | budgetExhausted (accountId : Int) (lastScannedHeight tipHeight : Nat)
  | error (message : String)
  deriving DecidableEq, Repr

/-- The scanner's `ScanStatusEvent`. -/
inductive ScanStatusEvent where
  | started (accountId : Int) (fromHeight : Nat)
  | progress (accountId : Int) (currentHeight tipHeight blocksScanned : Nat)
  | completed (accountId : Int) (finalHeight totalBlocksScanned : Nat)
  | waiting (accountId : Int) (resumeIn : Nat)
  | moreBlocksAvailable (accountId : Int) (lastScannedHeight : Nat)
  | cancelled (accountId : Int)
  | budgetExhausted (accountId : Int) (lastScannedHeight tipHeight : Nat)
  | fastSyncPhaseStarted
  | fastSyncPhaseCompleted
  deriving DecidableEq, Repr

/-- A raw scanner event. -/
inductive ProcessingEvent where
  | scanStatus (status : ScanStatusEvent)
  | transactionsReady (accountId : Int) (transactions : List String) (blockHeight : Option Nat)
      (isInitialSync : Bool)
  | transactionsUpdated (accountId : Int) (updatedTransactions : List String)
  | reorgDetected (accountId : Int) (reorgFromHeight newHeight blocksRolledBack : Nat)
      (cancelledTransactionIds reorganizedTransactions : List String)
  | blockProcessed
  deriving DecidableEq, Repr

/-- Map a raw scanner event; `none` for events with no Dto. -/
def mapProcessingEvent : ProcessingEvent → Option ScanEventDto
  | .transactionsReady a txs height initial => some (.transactionsReady a txs height initial)
  | .transactionsUpdated a txs => some (.transactionsUpdated a txs)
  | .reorgDetected a fromHeight newHeight blocks ids txs =>
    some (.reorgDetected a fromHeight newHeight blocks ids txs)
  | .blockProcessed => none
  | .scanStatus status =>
    match status with
    | .fastSyncPhaseStarted => none
    | .fastSyncPhaseCompleted => none
    | .started a fromHeight => some (.started a fromHeight)
    | .progress a current tip blocks => some (.progress a current tip blocks)
    | .completed a height total => some (.completed a height total)
    | .waiting a resumeIn => some (.waiting a resumeIn)
    | .moreBlocksAvailable a height => some (.moreBlocksAvailable a height)
    | .cancelled _ => some .cancelled
    | .budgetExhausted a height tip => some (.budgetExhausted a height tip)

/-- Whether an event ends a scan stream. -/
def isTerminal : ScanEventDto → Bool
  | .completed .. | .cancelled | .superseded | .budgetExhausted .. | .error _ => true
  | _ => false

/-- The state of the `run_forwarder` loop: the calls of the callback so far, in order, whether the
sink is still open, and the terminal event held back. -/
structure Forwarder where
  delivered : List ScanEventDto := []
  sinkOpen : Bool := true
  terminal : Option ScanEventDto := none
  deriving DecidableEq, Repr

/-- One turn of the `run_forwarder` loop; `accepts` is the callback's answer if it is called.  The
second part says whether the scan's token is cancelled. -/
def Forwarder.receive (f : Forwarder) (event : ProcessingEvent) (accepts : Bool) : Forwarder × Bool :=
  match mapProcessingEvent event with
  | none => (f, false)
  | some dto =>
    if isTerminal dto then ({ f with terminal := some dto }, false)
    else if f.sinkOpen then
      if accepts then ({ f with delivered := f.delivered ++ [dto] }, false)
      else ({ f with delivered := f.delivered ++ [dto], sinkOpen := false }, true)
    else (f, false)

end CwTariWallet
