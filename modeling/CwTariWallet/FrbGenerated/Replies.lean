/-
# CwTariWallet.FrbGenerated.Replies -- what Rust encodes and Dart decodes

The other direction: the `SseEncode`s of `frb_generated.rs` and the `sse_decode_*` of `frb_generated.dart`, for
every type a reply, an error or an event of a stream can have.  A `SensitiveSeeds` is handed out by
`rust_auto_opaque_encode`, so what is encoded is the reference.
-/
import CwTariWallet.FrbGenerated.Arguments

namespace CwTariWallet.FrbGenerated

open Codec (Bytes Reader Reads Format)

/-! ## The encoders of Rust -/

namespace Rust

def sseEncodeBool (self : Bool) : Bytes := Format.byte.put (if self then 1 else 0)

/-- Every `SseEncode for Option<_>`. -/
def sseEncodeOption {α : Type} (sseEncodeValue : α → Bytes) (self : Option α) : Bytes :=
  self.elim (sseEncodeBool false) fun value => sseEncodeBool true ++ sseEncodeValue value

section

variable (b : Buffer)

/-- Every `SseEncode for Vec<_>`. -/
def sseEncodeVec {α : Type} (sseEncodeItem : α → Bytes) (self : List α) : Bytes :=
  List.flatten [b.i32.put (Int32.ofNat self.length), self.flatMap sseEncodeItem]

def sseEncodeString (self : String) : Bytes := sseEncodeVec b Format.byte.put (intoBytes self)

/-- `anyhow::Error`, by its `{:?}`. -/
def sseEncodeError (debug : String) : Bytes := sseEncodeString b debug

def sseEncodeSensitiveSeeds (self : SensitiveSeedsRef) : Bytes :=
  List.flatten [b.u64.put self.ptr, b.i32.put self.size]

def tariNetworkTag : Network → Int32
  | .mainNet => 0
  | .stageNet => 1
  | .nextNet => 2
  | .localNet => 3
  | .igor => 4
  | .esmeralda => 5

def sseEncodeTariNetwork (self : Network) : Bytes := b.i32.put (tariNetworkTag self)

def logLevelTag : LogLevel → Int32
  | .error => 0
  | .warn => 1
  | .info => 2
  | .debug => 3
  | .trace => 4
  | .off => 5

def sseEncodeLogLevel (self : LogLevel) : Bytes := b.i32.put (logLevelTag self)

def transactionStageTag : TransactionStage → Int32
  | .initializing => 0
  | .validatingInput => 1
  | .connectingToNetwork => 2
  | .constructingTransaction => 3
  | .signingKeyGeneration => 4
  | .signingTransaction => 5
  | .broadcasting => 6
  | .broadcasted => 7

def sseEncodeTransactionStage (self : TransactionStage) : Bytes := b.i32.put (transactionStageTag self)

def displayedTransactionDirectionTag : DisplayedTransactionDirection → Int32
  | .incoming => 0
  | .outgoing => 1

def sseEncodeDisplayedTransactionDirection (self : DisplayedTransactionDirection) : Bytes :=
  b.i32.put (displayedTransactionDirectionTag self)

def displayedTransactionSourceTag : DisplayedTransactionSource → Int32
  | .transfer => 0
  | .coinbase => 1
  | .oneSided => 2
  | .unknown => 3

def sseEncodeDisplayedTransactionSource (self : DisplayedTransactionSource) : Bytes :=
  b.i32.put (displayedTransactionSourceTag self)

def displayedTransactionStatusTag : DisplayedTransactionStatus → Int32
  | .pending => 0
  | .unconfirmed => 1
  | .confirmed => 2
  | .cancelled => 3
  | .reorganized => 4
  | .rejected => 5
  | .locked => 6

def sseEncodeDisplayedTransactionStatus (self : DisplayedTransactionStatus) : Bytes :=
  b.i32.put (displayedTransactionStatusTag self)

def sseEncodeAccountBalanceDto (self : AccountBalanceDto) : Bytes :=
  List.flatten [b.u64.put self.total,
    b.u64.put self.unconfirmed,
    b.u64.put self.locked,
    b.u64.put self.available]

def sseEncodeBlockchainInfoDto (self : BlockchainInfoDto String) : Bytes :=
  List.flatten [b.u64.put self.blockHeight,
    sseEncodeString b self.timestamp,
    b.u64.put self.confirmations]

def sseEncodeCounterpartyInfoDto (self : CounterpartyInfoDto String) : Bytes :=
  List.flatten [sseEncodeString b self.address, sseEncodeString b self.addressEmoji]

def sseEncodeFeeInfoDto (self : FeeInfoDto String) : Bytes :=
  List.flatten [b.u64.put self.amount, sseEncodeString b self.amountDisplay]

def sseEncodeDisplayedTransactionDto (self : DisplayedTransactionDto String) : Bytes :=
  List.flatten [sseEncodeString b self.id,
    sseEncodeDisplayedTransactionDirection b self.direction,
    sseEncodeDisplayedTransactionSource b self.source,
    sseEncodeDisplayedTransactionStatus b self.status,
    b.u64.put self.amount,
    sseEncodeString b self.amountDisplay,
    sseEncodeOption (sseEncodeString b) self.message,
    sseEncodeOption (sseEncodeCounterpartyInfoDto b) self.counterparty,
    sseEncodeBlockchainInfoDto b self.blockchain,
    sseEncodeOption (sseEncodeFeeInfoDto b) self.fee,
    sseEncodeVec b (sseEncodeString b) self.payrefs]

def sseEncodeFeeEstimate (self : FeeEstimate) : Bytes :=
  List.flatten [b.u64.put self.estimatedFee,
    b.u64.put self.totalAmountRequired,
    b.u64.put self.feePerGram,
    b.u64.put self.inputCount]

def sseEncodeSendAllFeeEstimate (self : SendAllFeeEstimate) : Bytes :=
  List.flatten [b.u64.put self.fee,
    b.u64.put self.amountAfterFee,
    b.u64.put self.inputCount,
    b.u64.put self.skippedDust,
    b.u64.put self.skippedOverCap]

def sseEncodeLogModuleConfig (self : LogModuleConfig String) : Bytes :=
  List.flatten [sseEncodeString b self.target, sseEncodeLogLevel b self.level]

def sseEncodeLoggerConfig (self : LoggerConfig String) : Bytes :=
  List.flatten [sseEncodeLogLevel b self.defaultLevel,
    sseEncodeVec b (sseEncodeLogModuleConfig b) self.moduleLevels,
    b.u64.put self.maxFileSizeMb,
    b.u64.put self.maxFiles]

def sseEncodeScanHandle (self : ScanHandle String) : Bytes :=
  List.flatten [sseEncodeString b self.walletName, b.u64.put self.id]

def sseEncodeTransactionsReadyDto (self : TransactionsReadyDto String) : Bytes :=
  List.flatten [b.i64.put self.accountId,
    sseEncodeVec b (sseEncodeDisplayedTransactionDto b) self.transactions,
    sseEncodeOption b.u64.put self.blockHeight,
    sseEncodeBool self.isInitialSync]

def sseEncodeTransactionsUpdatedDto (self : TransactionsUpdatedDto String) : Bytes :=
  List.flatten [b.i64.put self.accountId,
    sseEncodeVec b (sseEncodeDisplayedTransactionDto b) self.updatedTransactions]

def sseEncodeReorgDetectedDto (self : ReorgDetectedDto String) : Bytes :=
  List.flatten [b.i64.put self.accountId,
    b.u64.put self.reorgFromHeight,
    b.u64.put self.newHeight,
    b.u64.put self.blocksRolledBack,
    sseEncodeVec b (sseEncodeString b) self.cancelledTransactionIds,
    sseEncodeVec b (sseEncodeDisplayedTransactionDto b) self.reorganizedTransactions]

def sseEncodeScanEventDto : ScanEventDto String → Bytes
  | .started accountId fromHeight => List.flatten [b.i32.put 0, b.i64.put accountId, b.u64.put fromHeight]
  | .progress accountId currentHeight tipHeight blocksScanned =>
    List.flatten [b.i32.put 1, b.i64.put accountId, b.u64.put currentHeight, b.u64.put tipHeight,
      b.u64.put blocksScanned]
  | .completed accountId finalHeight totalBlocksScanned =>
    List.flatten [b.i32.put 2, b.i64.put accountId, b.u64.put finalHeight, b.u64.put totalBlocksScanned]
  | .waiting accountId resumeInSeconds =>
    List.flatten [b.i32.put 3, b.i64.put accountId, b.u64.put resumeInSeconds]
  | .moreBlocksAvailable accountId lastScannedHeight =>
    List.flatten [b.i32.put 4, b.i64.put accountId, b.u64.put lastScannedHeight]
  | .transactionsReady field0 => List.flatten [b.i32.put 5, sseEncodeTransactionsReadyDto b field0]
  | .transactionsUpdated field0 => List.flatten [b.i32.put 6, sseEncodeTransactionsUpdatedDto b field0]
  | .reorgDetected field0 => List.flatten [b.i32.put 7, sseEncodeReorgDetectedDto b field0]
  | .cancelled => List.flatten [b.i32.put 8]
  | .superseded => List.flatten [b.i32.put 9]
  | .budgetExhausted accountId lastScannedHeight tipHeight =>
    List.flatten [b.i32.put 10, b.i64.put accountId, b.u64.put lastScannedHeight, b.u64.put tipHeight]
  | .error field0 => List.flatten [b.i32.put 11, sseEncodeString b field0]

def sseEncodeSendTransactionEvent (self : SendTransactionEvent String) : Bytes :=
  List.flatten [sseEncodeTransactionStage b self.stage, sseEncodeString b self.details]

def sseEncodeSendResultDto (self : SendResultDto String) : Bytes :=
  List.flatten [sseEncodeDisplayedTransactionDto b self.transaction,
    sseEncodeBool self.acceptedByNode,
    sseEncodeOption (sseEncodeString b) self.note,
    sseEncodeOption (sseEncodeString b) self.nodeReason]

def sseEncodeTipInfo (self : TipInfo String) : Bytes :=
  List.flatten [b.u64.put self.bestBlockHeight,
    sseEncodeString b self.bestBlockHash,
    b.u64.put self.pruningHorizon,
    b.u64.put self.prunedHeight,
    b.u64.put self.timestamp]

def sseEncodeWalletCreationDetails (self : WalletCreationDetails String) : Bytes :=
  List.flatten [sseEncodeString b self.tariAddress,
    b.u16.put self.walletBirthday,
    sseEncodeString b self.spendPublicKeyHex,
    sseEncodeString b self.viewPrivateKeyHex,
    sseEncodeOption (sseEncodeSensitiveSeeds b) self.seedWords]

end

end Rust

/-! ## The decoders of Dart -/

namespace Dart

def sseDecodeBool : Reader Bool := do
  let byte ← Format.byte.get
  pure (byte != 0)

/-- Every `sse_decode_opt_*`. -/
def sseDecodeOpt {α : Type} (sseDecodeValue : Reader α) : Reader (Option α) :=
  Reader.option sseDecodeBool sseDecodeValue

section

variable (b : Buffer)

/-- `sse_decode_list_prim_u_8_strict`; a negative length is a `RangeError`. -/
def sseDecodeListU8 : Reader Bytes := do
  let len ← b.i32.get
  if len < 0 then Reader.ofOption none else Reader.take len.toNatClampNeg

/-- Every `sse_decode_list_*`. -/
def sseDecodeList {α : Type} (sseDecodeItem : Reader α) : Reader (List α) := do
  let len ← b.i32.get
  Reader.times sseDecodeItem len.toNatClampNeg

def sseDecodeString : Reader DartString := do
  let inner ← sseDecodeListU8 b
  Reader.ofOption (DartString.utf8Decode inner)

def sseDecodeAnyhowException : Reader DartString := sseDecodeString b

/-- The decoder of every enumeration: `values[inner]`, or a `RangeError`. -/
def sseDecodeIndex {α : Type} (values : List α) : Reader α :=
  Reader.tagged b.i32.get fun inner => if inner < 0 then none else values[inner.toNatClampNeg]?

def sseDecodeSensitiveSeeds : Reader SensitiveSeedsRef := do
  let ptr ← b.u64.get
  let size ← b.i32.get
  pure { ptr, size }

def sseDecodeTariNetwork : Reader Network := sseDecodeIndex b tariNetworkValues

def sseDecodeLogLevel : Reader LogLevel := sseDecodeIndex b logLevelValues

/-- `TransactionStage.values`. -/
def transactionStageValues : List TransactionStage :=
  [.initializing, .validatingInput, .connectingToNetwork, .constructingTransaction, .signingKeyGeneration,
    .signingTransaction, .broadcasting, .broadcasted]

def sseDecodeTransactionStage : Reader TransactionStage := sseDecodeIndex b transactionStageValues

/-- `DisplayedTransactionDirection.values`. -/
def displayedTransactionDirectionValues : List DisplayedTransactionDirection := [.incoming, .outgoing]

def sseDecodeDisplayedTransactionDirection : Reader DisplayedTransactionDirection :=
  sseDecodeIndex b displayedTransactionDirectionValues

/-- `DisplayedTransactionSource.values`. -/
def displayedTransactionSourceValues : List DisplayedTransactionSource :=
  [.transfer, .coinbase, .oneSided, .unknown]

def sseDecodeDisplayedTransactionSource : Reader DisplayedTransactionSource :=
  sseDecodeIndex b displayedTransactionSourceValues

/-- `DisplayedTransactionStatus.values`. -/
def displayedTransactionStatusValues : List DisplayedTransactionStatus :=
  [.pending, .unconfirmed, .confirmed, .cancelled, .reorganized, .rejected, .locked]

def sseDecodeDisplayedTransactionStatus : Reader DisplayedTransactionStatus :=
  sseDecodeIndex b displayedTransactionStatusValues

def sseDecodeAccountBalanceDto : Reader AccountBalanceDto := do
  let total ← b.u64.get
  let unconfirmed ← b.u64.get
  let locked ← b.u64.get
  let available ← b.u64.get
  pure { total, unconfirmed, locked, available }

def sseDecodeBlockchainInfoDto : Reader (BlockchainInfoDto DartString) := do
  let blockHeight ← b.u64.get
  let timestamp ← sseDecodeString b
  let confirmations ← b.u64.get
  pure { blockHeight, timestamp, confirmations }

def sseDecodeCounterpartyInfoDto : Reader (CounterpartyInfoDto DartString) := do
  let address ← sseDecodeString b
  let addressEmoji ← sseDecodeString b
  pure { address, addressEmoji }

def sseDecodeFeeInfoDto : Reader (FeeInfoDto DartString) := do
  let amount ← b.u64.get
  let amountDisplay ← sseDecodeString b
  pure { amount, amountDisplay }

def sseDecodeDisplayedTransactionDto : Reader (DisplayedTransactionDto DartString) := do
  let id ← sseDecodeString b
  let direction ← sseDecodeDisplayedTransactionDirection b
  let source ← sseDecodeDisplayedTransactionSource b
  let status ← sseDecodeDisplayedTransactionStatus b
  let amount ← b.u64.get
  let amountDisplay ← sseDecodeString b
  let message ← sseDecodeOpt (sseDecodeString b)
  let counterparty ← sseDecodeOpt (sseDecodeCounterpartyInfoDto b)
  let blockchain ← sseDecodeBlockchainInfoDto b
  let fee ← sseDecodeOpt (sseDecodeFeeInfoDto b)
  let payrefs ← sseDecodeList b (sseDecodeString b)
  pure { id, direction, source, status, amount, amountDisplay, message, counterparty, blockchain, fee, payrefs }

def sseDecodeFeeEstimate : Reader FeeEstimate := do
  let estimatedFee ← b.u64.get
  let totalAmountRequired ← b.u64.get
  let feePerGram ← b.u64.get
  let inputCount ← b.u64.get
  pure { estimatedFee, totalAmountRequired, feePerGram, inputCount }

def sseDecodeSendAllFeeEstimate : Reader SendAllFeeEstimate := do
  let fee ← b.u64.get
  let amountAfterFee ← b.u64.get
  let inputCount ← b.u64.get
  let skippedDust ← b.u64.get
  let skippedOverCap ← b.u64.get
  pure { fee, amountAfterFee, inputCount, skippedDust, skippedOverCap }

def sseDecodeLogModuleConfig : Reader (LogModuleConfig DartString) := do
  let target ← sseDecodeString b
  let level ← sseDecodeLogLevel b
  pure { target, level }

def sseDecodeLoggerConfig : Reader (LoggerConfig DartString) := do
  let defaultLevel ← sseDecodeLogLevel b
  let moduleLevels ← sseDecodeList b (sseDecodeLogModuleConfig b)
  let maxFileSizeMb ← b.u64.get
  let maxFiles ← b.u64.get
  pure { defaultLevel, moduleLevels, maxFileSizeMb, maxFiles }

def sseDecodeScanHandle : Reader (ScanHandle DartString) := do
  let walletName ← sseDecodeString b
  let id ← b.u64.get
  pure { walletName, id }

def sseDecodeTransactionsReadyDto : Reader (TransactionsReadyDto DartString) := do
  let accountId ← b.i64.get
  let transactions ← sseDecodeList b (sseDecodeDisplayedTransactionDto b)
  let blockHeight ← sseDecodeOpt b.u64.get
  let isInitialSync ← sseDecodeBool
  pure { accountId, transactions, blockHeight, isInitialSync }

def sseDecodeTransactionsUpdatedDto : Reader (TransactionsUpdatedDto DartString) := do
  let accountId ← b.i64.get
  let updatedTransactions ← sseDecodeList b (sseDecodeDisplayedTransactionDto b)
  pure { accountId, updatedTransactions }

def sseDecodeReorgDetectedDto : Reader (ReorgDetectedDto DartString) := do
  let accountId ← b.i64.get
  let reorgFromHeight ← b.u64.get
  let newHeight ← b.u64.get
  let blocksRolledBack ← b.u64.get
  let cancelledTransactionIds ← sseDecodeList b (sseDecodeString b)
  let reorganizedTransactions ← sseDecodeList b (sseDecodeDisplayedTransactionDto b)
  pure { accountId, reorgFromHeight, newHeight, blocksRolledBack, cancelledTransactionIds,
         reorganizedTransactions }

/-- The cases of the switch. -/
def scanEventDtoOf (tag : Int32) : Reader (ScanEventDto DartString) :=
  match tag with
  | 0 => do
    let accountId ← b.i64.get
    let fromHeight ← b.u64.get
    pure (.started accountId fromHeight)
  | 1 => do
    let accountId ← b.i64.get
    let currentHeight ← b.u64.get
    let tipHeight ← b.u64.get
    let blocksScanned ← b.u64.get
    pure (.progress accountId currentHeight tipHeight blocksScanned)
  | 2 => do
    let accountId ← b.i64.get
    let finalHeight ← b.u64.get
    let totalBlocksScanned ← b.u64.get
    pure (.completed accountId finalHeight totalBlocksScanned)
  | 3 => do
    let accountId ← b.i64.get
    let resumeInSeconds ← b.u64.get
    pure (.waiting accountId resumeInSeconds)
  | 4 => do
    let accountId ← b.i64.get
    let lastScannedHeight ← b.u64.get
    pure (.moreBlocksAvailable accountId lastScannedHeight)
  | 5 => do
    let field0 ← sseDecodeTransactionsReadyDto b
    pure (.transactionsReady field0)
  | 6 => do
    let field0 ← sseDecodeTransactionsUpdatedDto b
    pure (.transactionsUpdated field0)
  | 7 => do
    let field0 ← sseDecodeReorgDetectedDto b
    pure (.reorgDetected field0)
  | 8 => pure .cancelled
  | 9 => pure .superseded
  | 10 => do
    let accountId ← b.i64.get
    let lastScannedHeight ← b.u64.get
    let tipHeight ← b.u64.get
    pure (.budgetExhausted accountId lastScannedHeight tipHeight)
  | 11 => do
    let field0 ← sseDecodeString b
    pure (.error field0)
  | _ => Reader.ofOption none

def sseDecodeScanEventDto : Reader (ScanEventDto DartString) := do
  let tag ← b.i32.get
  scanEventDtoOf b tag

def sseDecodeSendTransactionEvent : Reader (SendTransactionEvent DartString) := do
  let stage ← sseDecodeTransactionStage b
  let details ← sseDecodeString b
  pure { stage, details }

def sseDecodeSendResultDto : Reader (SendResultDto DartString) := do
  let transaction ← sseDecodeDisplayedTransactionDto b
  let acceptedByNode ← sseDecodeBool
  let note ← sseDecodeOpt (sseDecodeString b)
  let nodeReason ← sseDecodeOpt (sseDecodeString b)
  pure { transaction, acceptedByNode, note, nodeReason }

def sseDecodeTipInfo : Reader (TipInfo DartString) := do
  let bestBlockHeight ← b.u64.get
  let bestBlockHash ← sseDecodeString b
  let pruningHorizon ← b.u64.get
  let prunedHeight ← b.u64.get
  let timestamp ← b.u64.get
  pure { bestBlockHeight, bestBlockHash, pruningHorizon, prunedHeight, timestamp }

def sseDecodeWalletCreationDetails : Reader (WalletCreationDetails DartString) := do
  let tariAddress ← sseDecodeString b
  let walletBirthday ← b.u16.get
  let spendPublicKeyHex ← sseDecodeString b
  let viewPrivateKeyHex ← sseDecodeString b
  let seedWords ← sseDecodeOpt (sseDecodeSensitiveSeeds b)
  pure { tariAddress, walletBirthday, spendPublicKeyHex, viewPrivateKeyHex, seedWords }

end

end Dart

/-! ## Dart reads what Rust wrote -/

namespace Replies

theorem bool_reads (self : Bool) : Arrives Dart.sseDecodeBool (Rust.sseEncodeBool self) self := by
  cases self with
  | false => exact (Format.byte.reads 0).map (· != 0)
  | true => exact (Format.byte.reads 1).map (· != 0)

theorem option_reads {α β : Type} {r : Reader β} {write : α → Bytes} {f : α → β}
    (h : ∀ a, Arrives r (write a) (f a)) (self : Option α) :
    Arrives (Dart.sseDecodeOpt r) (Rust.sseEncodeOption write self) (self.map f) :=
  .option (bool_reads true) (bool_reads false) h self

theorem option_reads_self {α : Type} {r : Reader α} {write : α → Bytes} (h : ∀ a, Arrives r (write a) a)
    (self : Option α) : Arrives (Dart.sseDecodeOpt r) (Rust.sseEncodeOption write self) self := by
  have hmap := option_reads (f := id) h self
  rwa [Option.map_id] at hmap

variable (b : Buffer)

theorem vec_reads {α β : Type} {r : Reader β} {write : α → Bytes} {f : α → β}
    (hpos : ∀ a, 0 < (write a).length) (h : ∀ a, Arrives r (write a) (f a)) (self : List α) :
    Arrives (Dart.sseDecodeList b r) (Rust.sseEncodeVec b write self) (self.map f) :=
  counted_times b hpos h self

/-- Rust writes its bytes one by one, Dart takes them at once. -/
theorem string_reads (self : String) :
    Arrives (Dart.sseDecodeString b) (Rust.sseEncodeString b self) (DartString.ofRust self) := by
  have hbytes : Arrives (Dart.sseDecodeListU8 b) (Rust.sseEncodeString b self) (intoBytes self) := by
    have hput : (intoBytes self).flatMap Format.byte.put = intoBytes self := List.flatMap_singleton' _
    rw [Rust.sseEncodeString, Rust.sseEncodeVec, hput]
    apply counted_reads b (Nat.le_refl _)
    intro hshort
    rw [if_neg (ofNat_not_neg hshort), toNatClampNeg_ofNat hshort]
    exact Reads.take rfl
  exact hbytes.mapOption (DartString.utf8Decode_intoBytes self)

theorem error_reads (debug : String) :
    Arrives (Dart.sseDecodeAnyhowException b) (Rust.sseEncodeError b debug) (DartString.ofRust debug) :=
  string_reads b debug

theorem string_pos (self : String) : 0 < (Rust.sseEncodeString b self).length := flatten_pos b _ _

theorem flatten_string_pos (self : String) (parts : List Bytes) :
    0 < (List.flatten (Rust.sseEncodeString b self :: parts)).length := by
  have hpos := string_pos b self
  rw [List.flatten_cons, List.length_append]
  omega

theorem strings_reads (self : List String) :
    Arrives (Dart.sseDecodeList b (Dart.sseDecodeString b)) (Rust.sseEncodeVec b (Rust.sseEncodeString b) self)
      (self.map DartString.ofRust) :=
  vec_reads b (string_pos b) (string_reads b) self

theorem optString_reads (self : Option String) :
    Arrives (Dart.sseDecodeOpt (Dart.sseDecodeString b)) (Rust.sseEncodeOption (Rust.sseEncodeString b) self)
      (self.map DartString.ofRust) :=
  option_reads (string_reads b) self

/-- Dart's enumeration has at each index the variant Rust gives that tag. -/
theorem index_reads {α : Type} {values : List α} {tag : Int32} {self : α}
    (h : (if tag < 0 then none else values[tag.toNatClampNeg]?) = some self) :
    Arrives (Dart.sseDecodeIndex b values) (b.i32.put tag) self :=
  .tagged (b.i32.reads tag) h

theorem sensitiveSeeds_reads (self : SensitiveSeedsRef) :
    Arrives (Dart.sseDecodeSensitiveSeeds b) (Rust.sseEncodeSensitiveSeeds b self) self :=
  .step (b.u64.reads _) <| .step (b.i32.reads _) <| .done _

theorem tariNetwork_reads (self : Network) :
    Arrives (Dart.sseDecodeTariNetwork b) (Rust.sseEncodeTariNetwork b self) self :=
  index_reads b (by cases self <;> rfl)

theorem logLevel_reads (self : LogLevel) :
    Arrives (Dart.sseDecodeLogLevel b) (Rust.sseEncodeLogLevel b self) self :=
  index_reads b (by cases self <;> rfl)

theorem transactionStage_reads (self : TransactionStage) :
    Arrives (Dart.sseDecodeTransactionStage b) (Rust.sseEncodeTransactionStage b self) self :=
  index_reads b (by cases self <;> rfl)

theorem displayedTransactionDirection_reads (self : DisplayedTransactionDirection) :
    Arrives (Dart.sseDecodeDisplayedTransactionDirection b)
      (Rust.sseEncodeDisplayedTransactionDirection b self) self :=
  index_reads b (by cases self <;> rfl)

theorem displayedTransactionSource_reads (self : DisplayedTransactionSource) :
    Arrives (Dart.sseDecodeDisplayedTransactionSource b) (Rust.sseEncodeDisplayedTransactionSource b self) self :=
  index_reads b (by cases self <;> rfl)

theorem displayedTransactionStatus_reads (self : DisplayedTransactionStatus) :
    Arrives (Dart.sseDecodeDisplayedTransactionStatus b) (Rust.sseEncodeDisplayedTransactionStatus b self) self :=
  index_reads b (by cases self <;> rfl)

theorem optTariNetwork_reads (self : Option Network) :
    Arrives (Dart.sseDecodeOpt (Dart.sseDecodeTariNetwork b))
      (Rust.sseEncodeOption (Rust.sseEncodeTariNetwork b) self) self :=
  option_reads_self (tariNetwork_reads b) self

theorem accountBalanceDto_reads (self : AccountBalanceDto) :
    Arrives (Dart.sseDecodeAccountBalanceDto b) (Rust.sseEncodeAccountBalanceDto b self) self :=
  .step (b.u64.reads _) <| .step (b.u64.reads _) <| .step (b.u64.reads _) <| .step (b.u64.reads _) <| .done _

theorem blockchainInfoDto_reads (self : BlockchainInfoDto String) :
    Arrives (Dart.sseDecodeBlockchainInfoDto b) (Rust.sseEncodeBlockchainInfoDto b self)
      (self.map DartString.ofRust) :=
  .step (b.u64.reads _) <| .step (string_reads b _) <| .step (b.u64.reads _) <| .done _

theorem counterpartyInfoDto_reads (self : CounterpartyInfoDto String) :
    Arrives (Dart.sseDecodeCounterpartyInfoDto b) (Rust.sseEncodeCounterpartyInfoDto b self)
      (self.map DartString.ofRust) :=
  .step (string_reads b _) <| .step (string_reads b _) <| .done _

theorem feeInfoDto_reads (self : FeeInfoDto String) :
    Arrives (Dart.sseDecodeFeeInfoDto b) (Rust.sseEncodeFeeInfoDto b self) (self.map DartString.ofRust) :=
  .step (b.u64.reads _) <| .step (string_reads b _) <| .done _

theorem displayedTransactionDto_reads (self : DisplayedTransactionDto String) :
    Arrives (Dart.sseDecodeDisplayedTransactionDto b) (Rust.sseEncodeDisplayedTransactionDto b self)
      (self.map DartString.ofRust) :=
  .step (string_reads b _) <| .step (displayedTransactionDirection_reads b _) <|
    .step (displayedTransactionSource_reads b _) <| .step (displayedTransactionStatus_reads b _) <|
    .step (b.u64.reads _) <| .step (string_reads b _) <| .step (optString_reads b _) <|
    .step (option_reads (counterpartyInfoDto_reads b) _) <| .step (blockchainInfoDto_reads b _) <|
    .step (option_reads (feeInfoDto_reads b) _) <| .step (strings_reads b _) <| .done _

theorem displayedTransactionDtos_reads (self : List (DisplayedTransactionDto String)) :
    Arrives (Dart.sseDecodeList b (Dart.sseDecodeDisplayedTransactionDto b))
      (Rust.sseEncodeVec b (Rust.sseEncodeDisplayedTransactionDto b) self)
      (self.map (·.map DartString.ofRust)) :=
  vec_reads b (fun _ => flatten_string_pos b _ _) (displayedTransactionDto_reads b) self

theorem feeEstimate_reads (self : FeeEstimate) :
    Arrives (Dart.sseDecodeFeeEstimate b) (Rust.sseEncodeFeeEstimate b self) self :=
  .step (b.u64.reads _) <| .step (b.u64.reads _) <| .step (b.u64.reads _) <| .step (b.u64.reads _) <| .done _

theorem sendAllFeeEstimate_reads (self : SendAllFeeEstimate) :
    Arrives (Dart.sseDecodeSendAllFeeEstimate b) (Rust.sseEncodeSendAllFeeEstimate b self) self :=
  .step (b.u64.reads _) <| .step (b.u64.reads _) <| .step (b.u64.reads _) <| .step (b.u64.reads _) <|
    .step (b.u64.reads _) <| .done _

theorem logModuleConfig_reads (self : LogModuleConfig String) :
    Arrives (Dart.sseDecodeLogModuleConfig b) (Rust.sseEncodeLogModuleConfig b self)
      (self.map DartString.ofRust) :=
  .step (string_reads b _) <| .step (logLevel_reads b _) <| .done _

theorem loggerConfig_reads (self : LoggerConfig String) :
    Arrives (Dart.sseDecodeLoggerConfig b) (Rust.sseEncodeLoggerConfig b self) (self.map DartString.ofRust) :=
  .step (logLevel_reads b _) <|
    .step (vec_reads b (fun _ => flatten_string_pos b _ _) (logModuleConfig_reads b) _) <|
    .step (b.u64.reads _) <| .step (b.u64.reads _) <| .done _

theorem scanHandle_reads (self : ScanHandle String) :
    Arrives (Dart.sseDecodeScanHandle b) (Rust.sseEncodeScanHandle b self) (self.map DartString.ofRust) :=
  .step (string_reads b _) <| .step (b.u64.reads _) <| .done _

theorem transactionsReadyDto_reads (self : TransactionsReadyDto String) :
    Arrives (Dart.sseDecodeTransactionsReadyDto b) (Rust.sseEncodeTransactionsReadyDto b self)
      (self.map DartString.ofRust) :=
  .step (b.i64.reads _) <| .step (displayedTransactionDtos_reads b _) <|
    .step (option_reads_self b.u64.reads _) <| .step (bool_reads _) <| .done _

theorem transactionsUpdatedDto_reads (self : TransactionsUpdatedDto String) :
    Arrives (Dart.sseDecodeTransactionsUpdatedDto b) (Rust.sseEncodeTransactionsUpdatedDto b self)
      (self.map DartString.ofRust) :=
  .step (b.i64.reads _) <| .step (displayedTransactionDtos_reads b _) <| .done _

theorem reorgDetectedDto_reads (self : ReorgDetectedDto String) :
    Arrives (Dart.sseDecodeReorgDetectedDto b) (Rust.sseEncodeReorgDetectedDto b self)
      (self.map DartString.ofRust) :=
  .step (b.i64.reads _) <| .step (b.u64.reads _) <| .step (b.u64.reads _) <| .step (b.u64.reads _) <|
    .step (strings_reads b _) <| .step (displayedTransactionDtos_reads b _) <| .done _

/-- Rust's tag takes Dart's switch to the case of the same event. -/
theorem scanEventDto_reads (self : ScanEventDto String) :
    Arrives (Dart.sseDecodeScanEventDto b) (Rust.sseEncodeScanEventDto b self) (self.map DartString.ofRust) := by
  cases self with
  | started | waiting | moreBlocksAvailable =>
    exact .step (b.i32.reads _) <| .step (b.i64.reads _) <| .step (b.u64.reads _) <| .done _
  | completed | budgetExhausted =>
    exact .step (b.i32.reads _) <| .step (b.i64.reads _) <| .step (b.u64.reads _) <| .step (b.u64.reads _) <|
      .done _
  | progress =>
    exact .step (b.i32.reads 1) <| .step (b.i64.reads _) <| .step (b.u64.reads _) <| .step (b.u64.reads _) <|
      .step (b.u64.reads _) <| .done _
  | transactionsReady field0 =>
    exact .step (b.i32.reads 5) <| .step (transactionsReadyDto_reads b field0) <| .done _
  | transactionsUpdated field0 =>
    exact .step (b.i32.reads 6) <| .step (transactionsUpdatedDto_reads b field0) <| .done _
  | reorgDetected field0 =>
    exact .step (b.i32.reads 7) <| .step (reorgDetectedDto_reads b field0) <| .done _
  | cancelled => exact .step (b.i32.reads 8) <| .done _
  | superseded => exact .step (b.i32.reads 9) <| .done _
  | error field0 => exact .step (b.i32.reads 11) <| .step (string_reads b field0) <| .done _

theorem sendTransactionEvent_reads (self : SendTransactionEvent String) :
    Arrives (Dart.sseDecodeSendTransactionEvent b) (Rust.sseEncodeSendTransactionEvent b self)
      (self.map DartString.ofRust) :=
  .step (transactionStage_reads b _) <| .step (string_reads b _) <| .done _

theorem sendResultDto_reads (self : SendResultDto String) :
    Arrives (Dart.sseDecodeSendResultDto b) (Rust.sseEncodeSendResultDto b self) (self.map DartString.ofRust) :=
  .step (displayedTransactionDto_reads b _) <| .step (bool_reads _) <| .step (optString_reads b _) <|
    .step (optString_reads b _) <| .done _

theorem tipInfo_reads (self : TipInfo String) :
    Arrives (Dart.sseDecodeTipInfo b) (Rust.sseEncodeTipInfo b self) (self.map DartString.ofRust) :=
  .step (b.u64.reads _) <| .step (string_reads b _) <| .step (b.u64.reads _) <| .step (b.u64.reads _) <|
    .step (b.u64.reads _) <| .done _

theorem walletCreationDetails_reads (self : WalletCreationDetails String) :
    Arrives (Dart.sseDecodeWalletCreationDetails b) (Rust.sseEncodeWalletCreationDetails b self)
      (self.map DartString.ofRust) :=
  .step (string_reads b _) <| .step (b.u16.reads _) <| .step (string_reads b _) <| .step (string_reads b _) <|
    .step (option_reads_self (sensitiveSeeds_reads b) _) <| .done _

end Replies

end CwTariWallet.FrbGenerated
