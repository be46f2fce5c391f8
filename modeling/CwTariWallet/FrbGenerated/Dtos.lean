/-
# CwTariWallet.FrbGenerated.Dtos -- the values that cross the bridge

The types `frb_generated.rs` and `frb_generated.dart` encode, over the texts of one side: Rust's are Unicode,
Dart's are UTF-16 code units.  `map` carries a value to the texts of the other side.  A number is in the range
of its Rust type on both sides; `usize` has 64 bits, as it has on the wire.
-/
import CwTariWallet.Api.LogLevels
import CwTariWallet.Api.Scanner
import CwTariWallet.Bridge.Send
import CwTariWallet.Domain.Validation

namespace CwTariWallet.FrbGenerated

/-! ## Arguments -/

/-- `FeePriority`. -/
inductive FeePriority where
  | slow
  | medium
  | fast
  deriving DecidableEq, Repr

/-- Dart's reference to a `SensitiveSeeds` that Rust keeps: where it is and what it counts for. -/
structure SensitiveSeedsRef where
  ptr : UInt64
  size : Int32
  deriving DecidableEq, Repr

structure LogModuleConfig (τ : Type) where
  target : τ
  level : LogLevel
  deriving DecidableEq, Repr

structure LoggerConfig (τ : Type) where
  defaultLevel : LogLevel
  moduleLevels : List (LogModuleConfig τ)
  maxFileSizeMb : UInt64
  maxFiles : UInt64
  deriving DecidableEq, Repr

structure SendRecipient (τ : Type) where
  address : τ
  amount : UInt64
  paymentId : Option τ
  deriving DecidableEq, Repr

structure MultiSendTransactionDetails (τ : Type) where
  network : Option Network
  baseUrl : Option τ
  walletName : τ
  recipients : List (SendRecipient τ)
  sendAll : Bool
  confirmationWindow : Option UInt64
  deriving DecidableEq, Repr

structure ScanHandle (τ : Type) where
  walletName : τ
  id : UInt64
  deriving DecidableEq, Repr

structure ScanConfiguration (τ : Type) where
  walletName : τ
  baseUrl : τ
  batchSize : UInt64
  continuous : Bool
  pollIntervalSeconds : UInt64
  requiredConfirmations : UInt64
  priority : ScanPriority
  processingThreads : Option UInt32
  eventBuffer : Option UInt32
  deadlineSeconds : Option UInt64
  maxBlocks : Option UInt64
  deriving DecidableEq, Repr

/-! ## Replies and events -/

structure AccountBalanceDto where
  total : UInt64
  unconfirmed : UInt64
  locked : UInt64
  available : UInt64
  deriving DecidableEq, Repr

structure BlockchainInfoDto (τ : Type) where
  blockHeight : UInt64
  timestamp : τ
  confirmations : UInt64
  deriving DecidableEq, Repr

structure CounterpartyInfoDto (τ : Type) where
  address : τ
  addressEmoji : τ
  deriving DecidableEq, Repr

inductive DisplayedTransactionDirection where
  | incoming
  | outgoing
  deriving DecidableEq, Repr

inductive DisplayedTransactionSource where
  | transfer
  | coinbase
  | oneSided
  | unknown
  deriving DecidableEq, Repr

inductive DisplayedTransactionStatus where
  | pending
  | unconfirmed
  | confirmed
  | cancelled
  | reorganized
  | rejected
  | locked
  deriving DecidableEq, Repr

structure FeeInfoDto (τ : Type) where
  amount : UInt64
  amountDisplay : τ
  deriving DecidableEq, Repr

structure DisplayedTransactionDto (τ : Type) where
  id : τ
  direction : DisplayedTransactionDirection
  source : DisplayedTransactionSource
  status : DisplayedTransactionStatus
  amount : UInt64
  amountDisplay : τ
  message : Option τ
  counterparty : Option (CounterpartyInfoDto τ)
  blockchain : BlockchainInfoDto τ
  fee : Option (FeeInfoDto τ)
  payrefs : List τ
  deriving DecidableEq, Repr

structure FeeEstimate where
  estimatedFee : UInt64
  totalAmountRequired : UInt64
  feePerGram : UInt64
  inputCount : UInt64
  deriving DecidableEq, Repr

structure SendAllFeeEstimate where
  fee : UInt64
  amountAfterFee : UInt64
  inputCount : UInt64
  skippedDust : UInt64
  skippedOverCap : UInt64
  deriving DecidableEq, Repr

structure TransactionsReadyDto (τ : Type) where
  accountId : Int64
  transactions : List (DisplayedTransactionDto τ)
  blockHeight : Option UInt64
  isInitialSync : Bool
  deriving DecidableEq, Repr

structure TransactionsUpdatedDto (τ : Type) where
  accountId : Int64
  updatedTransactions : List (DisplayedTransactionDto τ)
  deriving DecidableEq, Repr

structure ReorgDetectedDto (τ : Type) where
  accountId : Int64
  reorgFromHeight : UInt64
  newHeight : UInt64
  blocksRolledBack : UInt64
  cancelledTransactionIds : List τ
  reorganizedTransactions : List (DisplayedTransactionDto τ)
  deriving DecidableEq, Repr

inductive ScanEventDto (τ : Type) where
  | started (accountId : Int64) (fromHeight : UInt64)
  | progress (accountId : Int64) (currentHeight tipHeight blocksScanned : UInt64)
  | completed (accountId : Int64) (finalHeight totalBlocksScanned : UInt64)
  | waiting (accountId : Int64) (resumeInSeconds : UInt64)
  | moreBlocksAvailable (accountId : Int64) (lastScannedHeight : UInt64)
  | transactionsReady (field0 : TransactionsReadyDto τ)
  | transactionsUpdated (field0 : TransactionsUpdatedDto τ)
  | reorgDetected (field0 : ReorgDetectedDto τ)
  | cancelled
  | superseded
  | budgetExhausted (accountId : Int64) (lastScannedHeight tipHeight : UInt64)
  | error (field0 : τ)
  deriving DecidableEq, Repr

structure SendTransactionEvent (τ : Type) where
  stage : TransactionStage
  details : τ
  deriving DecidableEq, Repr

structure SendResultDto (τ : Type) where
  transaction : DisplayedTransactionDto τ
  acceptedByNode : Bool
  note : Option τ
  nodeReason : Option τ
  deriving DecidableEq, Repr

structure TipInfo (τ : Type) where
  bestBlockHeight : UInt64
  bestBlockHash : τ
  pruningHorizon : UInt64
  prunedHeight : UInt64
  timestamp : UInt64
  deriving DecidableEq, Repr

structure WalletCreationDetails (τ : Type) where
  tariAddress : τ
  walletBirthday : UInt16
  spendPublicKeyHex : τ
  viewPrivateKeyHex : τ
  seedWords : Option SensitiveSeedsRef
  deriving DecidableEq, Repr

/-! ## From the texts of one side to those of the other -/

section

variable {τ σ : Type} (f : τ → σ)

def LogModuleConfig.map (self : LogModuleConfig τ) : LogModuleConfig σ := ⟨f self.target, self.level⟩

def LoggerConfig.map (self : LoggerConfig τ) : LoggerConfig σ :=
  ⟨self.defaultLevel, self.moduleLevels.map (·.map f), self.maxFileSizeMb, self.maxFiles⟩

def SendRecipient.map (self : SendRecipient τ) : SendRecipient σ :=
  ⟨f self.address, self.amount, self.paymentId.map f⟩

def MultiSendTransactionDetails.map (self : MultiSendTransactionDetails τ) : MultiSendTransactionDetails σ :=
  ⟨self.network, self.baseUrl.map f, f self.walletName, self.recipients.map (·.map f), self.sendAll,
    self.confirmationWindow⟩

def ScanHandle.map (self : ScanHandle τ) : ScanHandle σ := ⟨f self.walletName, self.id⟩

def ScanConfiguration.map (self : ScanConfiguration τ) : ScanConfiguration σ :=
  ⟨f self.walletName, f self.baseUrl, self.batchSize, self.continuous, self.pollIntervalSeconds,
    self.requiredConfirmations, self.priority, self.processingThreads, self.eventBuffer, self.deadlineSeconds,
    self.maxBlocks⟩

def BlockchainInfoDto.map (self : BlockchainInfoDto τ) : BlockchainInfoDto σ :=
  ⟨self.blockHeight, f self.timestamp, self.confirmations⟩

def CounterpartyInfoDto.map (self : CounterpartyInfoDto τ) : CounterpartyInfoDto σ :=
  ⟨f self.address, f self.addressEmoji⟩

def FeeInfoDto.map (self : FeeInfoDto τ) : FeeInfoDto σ := ⟨self.amount, f self.amountDisplay⟩

def DisplayedTransactionDto.map (self : DisplayedTransactionDto τ) : DisplayedTransactionDto σ :=
  ⟨f self.id, self.direction, self.source, self.status, self.amount, f self.amountDisplay, self.message.map f,
    self.counterparty.map (·.map f), self.blockchain.map f, self.fee.map (·.map f), self.payrefs.map f⟩

def TransactionsReadyDto.map (self : TransactionsReadyDto τ) : TransactionsReadyDto σ :=
  ⟨self.accountId, self.transactions.map (·.map f), self.blockHeight, self.isInitialSync⟩

def TransactionsUpdatedDto.map (self : TransactionsUpdatedDto τ) : TransactionsUpdatedDto σ :=
  ⟨self.accountId, self.updatedTransactions.map (·.map f)⟩

def ReorgDetectedDto.map (self : ReorgDetectedDto τ) : ReorgDetectedDto σ :=
  ⟨self.accountId, self.reorgFromHeight, self.newHeight, self.blocksRolledBack,
    self.cancelledTransactionIds.map f, self.reorganizedTransactions.map (·.map f)⟩

def ScanEventDto.map : ScanEventDto τ → ScanEventDto σ
  | .started account height => .started account height
  | .progress account current tip blocks => .progress account current tip blocks
  | .completed account height blocks => .completed account height blocks
  | .waiting account seconds => .waiting account seconds
  | .moreBlocksAvailable account height => .moreBlocksAvailable account height
  | .transactionsReady ready => .transactionsReady (ready.map f)
  | .transactionsUpdated updated => .transactionsUpdated (updated.map f)
  | .reorgDetected reorg => .reorgDetected (reorg.map f)
  | .cancelled => .cancelled
  | .superseded => .superseded
  | .budgetExhausted account height tip => .budgetExhausted account height tip
  | .error text => .error (f text)

def SendTransactionEvent.map (self : SendTransactionEvent τ) : SendTransactionEvent σ :=
  ⟨self.stage, f self.details⟩

def SendResultDto.map (self : SendResultDto τ) : SendResultDto σ :=
  ⟨self.transaction.map f, self.acceptedByNode, self.note.map f, self.nodeReason.map f⟩

def TipInfo.map (self : TipInfo τ) : TipInfo σ :=
  ⟨self.bestBlockHeight, f self.bestBlockHash, self.pruningHorizon, self.prunedHeight, self.timestamp⟩

def WalletCreationDetails.map (self : WalletCreationDetails τ) : WalletCreationDetails σ :=
  ⟨f self.tariAddress, self.walletBirthday, f self.spendPublicKeyHex, f self.viewPrivateKeyHex, self.seedWords⟩

end

end CwTariWallet.FrbGenerated
