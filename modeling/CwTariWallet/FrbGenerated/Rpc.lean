/-
# CwTariWallet.FrbGenerated.Rpc -- a reply, and an event of a stream

What Rust puts on a port: the value a function came to, or the `{:?}` of its error, and each event it adds to a
sink.  Dart decodes that with the codec the port was opened with.  Rust encodes by the type of the value, Dart
decodes by the call, so what keeps them together is that every call has one kind of reply on both sides
(`decodeObject_transformResultSse`), and every sink one kind of event.
-/
import CwTariWallet.FrbGenerated.Calls
import CwTariWallet.FrbGenerated.Replies

namespace CwTariWallet.FrbGenerated

open Codec (Bytes Reader Reads Format)

/-! ## Replies -/

/-- The types a reply can have. -/
inductive ReplyKind where
  | unit
  | bool
  | u16
  | u64
  | string
  | strings
  | sensitiveSeeds
  | optTariNetwork
  | optTipInfo
  | scanHandle
  | walletCreationDetails
  | sendAllFeeEstimate
  | feeEstimate
  | accountBalanceDto
  | displayedTransactionDtos
  | loggerConfig
  | sendResultDto
  deriving DecidableEq, Repr

inductive Reply (τ : Type) where
  | unit
  | bool (value : Bool)
  | u16 (value : UInt16)
  | u64 (value : UInt64)
  | string (value : τ)
  | strings (value : List τ)
  | sensitiveSeeds (value : SensitiveSeedsRef)
  | optTariNetwork (value : Option Network)
  | optTipInfo (value : Option (TipInfo τ))
  | scanHandle (value : ScanHandle τ)
  | walletCreationDetails (value : WalletCreationDetails τ)
  | sendAllFeeEstimate (value : SendAllFeeEstimate)
  | feeEstimate (value : FeeEstimate)
  | accountBalanceDto (value : AccountBalanceDto)
  | displayedTransactionDtos (value : List (DisplayedTransactionDto τ))
  | loggerConfig (value : LoggerConfig τ)
  | sendResultDto (value : SendResultDto τ)
  deriving DecidableEq, Repr

namespace Reply

variable {τ σ : Type}

def kind : Reply τ → ReplyKind
  | .unit => .unit
  | .bool _ => .bool
  | .u16 _ => .u16
  | .u64 _ => .u64
  | .string _ => .string
  | .strings _ => .strings
  | .sensitiveSeeds _ => .sensitiveSeeds
  | .optTariNetwork _ => .optTariNetwork
  | .optTipInfo _ => .optTipInfo
  | .scanHandle _ => .scanHandle
  | .walletCreationDetails _ => .walletCreationDetails
  | .sendAllFeeEstimate _ => .sendAllFeeEstimate
  | .feeEstimate _ => .feeEstimate
  | .accountBalanceDto _ => .accountBalanceDto
  | .displayedTransactionDtos _ => .displayedTransactionDtos
  | .loggerConfig _ => .loggerConfig
  | .sendResultDto _ => .sendResultDto

def map (f : τ → σ) : Reply τ → Reply σ
  | .unit => .unit
  | .bool value => .bool value
  | .u16 value => .u16 value
  | .u64 value => .u64 value
  | .string value => .string (f value)
  | .strings value => .strings (value.map f)
  | .sensitiveSeeds value => .sensitiveSeeds value
  | .optTariNetwork value => .optTariNetwork value
  | .optTipInfo value => .optTipInfo (value.map (·.map f))
  | .scanHandle value => .scanHandle (value.map f)
  | .walletCreationDetails value => .walletCreationDetails (value.map f)
  | .sendAllFeeEstimate value => .sendAllFeeEstimate value
  | .feeEstimate value => .feeEstimate value
  | .accountBalanceDto value => .accountBalanceDto value
  | .displayedTransactionDtos value => .displayedTransactionDtos (value.map (·.map f))
  | .loggerConfig value => .loggerConfig (value.map f)
  | .sendResultDto value => .sendResultDto (value.map f)

@[simp] theorem kind_map (f : τ → σ) (reply : Reply τ) : (reply.map f).kind = reply.kind := by
  cases reply <;> rfl

end Reply

/-- What `SseCodec` puts in front: whether the call succeeded. -/
inductive Rust2DartAction where
  | success
  | error
  deriving DecidableEq, Repr

/-- One byte of it, as `SseCodec` has it. -/
def Rust2DartAction.byte : Format Rust2DartAction where
  put
    | success => [0]
    | error => [1]
  get := Reader.tagged Format.byte.get fun
    | 0 => some success
    | 1 => some error
    | _ => none
  get_put := by
    intro action rest
    cases action <;> rfl

/-- What a call came to, with the texts of the other side. -/
def outcomeMap {τ σ : Type} (f : τ → σ) : Except τ (Reply τ) → Except σ (Reply σ)
  | .ok reply => .ok (reply.map f)
  | .error debug => .error (f debug)

/-! ### Rust -/

namespace Rust

section

variable (b : Buffer)

/-- The type of `output_ok` in a call's wire function. -/
def returns {τ : Type} : ApiCall τ → ReplyKind
  | .sensitiveSeedsAutoAccessorGetWords .. | .listWallets | .listWords | .revealSeedWords .. => .strings
  | .sensitiveSeedsAutoAccessorSetWords .. | .changePassphrase .. | .checkpointDatabase | .deleteWallet .. |
    .forceLockWallet .. | .initLogger .. | .renameWallet .. | .rescan .. | .setDatabasePath .. |
    .setLogLevel .. | .startScan .. | .stopScan .. | .unlockWallet .. => .unit
  | .abandonSend .. | .formatMicroTari .. | .getAddress .. | .signMessage .. => .string
  | .birthdayFromDate .. | .birthdayFromHeight .. => .u16
  | .checkNodeHealth .. | .isNodeSynced .. | .lockWallet .. | .verifyMessage .. => .bool
  | .createScanHandle .. => .scanHandle
  | .createWallet .. | .importViewOnlyWallet .. | .importWalletFromKeys .. |
    .restoreWallet .. => .walletCreationDetails
  | .currentNetwork => .optTariNetwork
  | .estimateHeightAtTime .. | .getHeightAtTime .. => .u64
  | .estimateSendAllFee .. => .sendAllFeeEstimate
  | .estimateTransactionFee .. | .estimateTransactionFeeForOutputs .. => .feeEstimate
  | .getBalance .. => .accountBalanceDto
  | .getSeedWords .. => .sensitiveSeeds
  | .getTipInfo .. => .optTipInfo
  | .getTransactions .. => .displayedTransactionDtos
  | .loggerConfigDefault => .loggerConfig
  | .sendTransaction .. => .sendResultDto

/-- Whether its error is an `anyhow::Error`; `()` where the function has none. -/
def fallible {τ : Type} : ApiCall τ → Bool
  | .sensitiveSeedsAutoAccessorGetWords .. | .sensitiveSeedsAutoAccessorSetWords .. | .birthdayFromDate .. |
    .birthdayFromHeight .. | .currentNetwork | .estimateHeightAtTime .. | .formatMicroTari .. | .listWords |
    .loggerConfigDefault | .revealSeedWords .. => false
  | _ => true

def sseEncodeReply : Reply String → Bytes
  | .unit => []
  | .bool value => sseEncodeBool value
  | .u16 value => b.u16.put value
  | .u64 value => b.u64.put value
  | .string value => sseEncodeString b value
  | .strings value => sseEncodeVec b (sseEncodeString b) value
  | .sensitiveSeeds value => sseEncodeSensitiveSeeds b value
  | .optTariNetwork value => sseEncodeOption (sseEncodeTariNetwork b) value
  | .optTipInfo value => sseEncodeOption (sseEncodeTipInfo b) value
  | .scanHandle value => sseEncodeScanHandle b value
  | .walletCreationDetails value => sseEncodeWalletCreationDetails b value
  | .sendAllFeeEstimate value => sseEncodeSendAllFeeEstimate b value
  | .feeEstimate value => sseEncodeFeeEstimate b value
  | .accountBalanceDto value => sseEncodeAccountBalanceDto b value
  | .displayedTransactionDtos value => sseEncodeVec b (sseEncodeDisplayedTransactionDto b) value
  | .loggerConfig value => sseEncodeLoggerConfig b value
  | .sendResultDto value => sseEncodeSendResultDto b value

/-- `transform_result_sse`, and what the handler makes of it. -/
def transformResultSse (action : Format Rust2DartAction) : Except String (Reply String) → Bytes
  | .ok reply => List.flatten [action.put .success, sseEncodeReply b reply]
  | .error debug => List.flatten [action.put .error, sseEncodeError b debug]

/-- What `sink.add` sends. -/
def sinkAdd (action : Format Rust2DartAction) (event : Bytes) : Bytes := List.flatten [action.put .success, event]

end

/-- What the function behind a call can come to: a value of its type, or an error if it has one. -/
structure Outcome (call : ApiCall String) (result : Except String (Reply String)) : Prop where
  returned : ∀ reply, result = .ok reply → reply.kind = returns call
  failed : ∀ debug, result = .error debug → fallible call = true

end Rust

/-! ### Dart -/

namespace Dart

/-- An `SseCodec`. -/
structure SseCodec (α : Type) where
  decodeSuccessData : Reader α
  decodeErrorData : Option (Reader DartString)

/-- A value or a thrown error; `none` where it cannot be decoded. -/
def SseCodec.decodeObject {α : Type} (action : Format Rust2DartAction) (codec : SseCodec α) (bytes : Bytes) :
    Option (Except DartString α) :=
  Reader.decode (do
    let taken ← action.get
    match taken with
    | .success => do
      let value ← codec.decodeSuccessData
      pure (.ok value)
    | .error =>
      match codec.decodeErrorData with
      | none => Reader.ofOption none
      | some decodeErrorData => do
        let error ← decodeErrorData
        pure (.error error)) bytes

section

variable (b : Buffer)

/-- The kind of reply a call's `decodeSuccessData` decodes. -/
def decodes {τ : Type} : ApiCall τ → ReplyKind
  | .sensitiveSeedsAutoAccessorGetWords .. | .listWallets | .listWords | .revealSeedWords .. => .strings
  | .sensitiveSeedsAutoAccessorSetWords .. | .changePassphrase .. | .checkpointDatabase | .deleteWallet .. |
    .forceLockWallet .. | .initLogger .. | .renameWallet .. | .rescan .. | .setDatabasePath .. |
    .setLogLevel .. | .startScan .. | .stopScan .. | .unlockWallet .. => .unit
  | .abandonSend .. | .formatMicroTari .. | .getAddress .. | .signMessage .. => .string
  | .birthdayFromDate .. | .birthdayFromHeight .. => .u16
  | .checkNodeHealth .. | .isNodeSynced .. | .lockWallet .. | .verifyMessage .. => .bool
  | .createScanHandle .. => .scanHandle
  | .createWallet .. | .importViewOnlyWallet .. | .importWalletFromKeys .. |
    .restoreWallet .. => .walletCreationDetails
  | .currentNetwork => .optTariNetwork
  | .estimateHeightAtTime .. | .getHeightAtTime .. => .u64
  | .estimateSendAllFee .. => .sendAllFeeEstimate
  | .estimateTransactionFee .. | .estimateTransactionFeeForOutputs .. => .feeEstimate
  | .getBalance .. => .accountBalanceDto
  | .getSeedWords .. => .sensitiveSeeds
  | .getTipInfo .. => .optTipInfo
  | .getTransactions .. => .displayedTransactionDtos
  | .loggerConfigDefault => .loggerConfig
  | .sendTransaction .. => .sendResultDto

/-- Whether its `decodeErrorData` is `sse_decode_AnyhowException`; `null` where it is not. -/
def decodesErrors {τ : Type} : ApiCall τ → Bool
  | .sensitiveSeedsAutoAccessorGetWords .. | .sensitiveSeedsAutoAccessorSetWords .. | .birthdayFromDate .. |
    .birthdayFromHeight .. | .currentNetwork | .estimateHeightAtTime .. | .formatMicroTari .. | .listWords |
    .loggerConfigDefault | .revealSeedWords .. => false
  | _ => true

def sseDecodeReply : ReplyKind → Reader (Reply DartString)
  | .unit => pure .unit
  | .bool => do
    let value ← sseDecodeBool
    pure (.bool value)
  | .u16 => do
    let value ← b.u16.get
    pure (.u16 value)
  | .u64 => do
    let value ← b.u64.get
    pure (.u64 value)
  | .string => do
    let value ← sseDecodeString b
    pure (.string value)
  | .strings => do
    let value ← sseDecodeList b (sseDecodeString b)
    pure (.strings value)
  | .sensitiveSeeds => do
    let value ← sseDecodeSensitiveSeeds b
    pure (.sensitiveSeeds value)
  | .optTariNetwork => do
    let value ← sseDecodeOpt (sseDecodeTariNetwork b)
    pure (.optTariNetwork value)
  | .optTipInfo => do
    let value ← sseDecodeOpt (sseDecodeTipInfo b)
    pure (.optTipInfo value)
  | .scanHandle => do
    let value ← sseDecodeScanHandle b
    pure (.scanHandle value)
  | .walletCreationDetails => do
    let value ← sseDecodeWalletCreationDetails b
    pure (.walletCreationDetails value)
  | .sendAllFeeEstimate => do
    let value ← sseDecodeSendAllFeeEstimate b
    pure (.sendAllFeeEstimate value)
  | .feeEstimate => do
    let value ← sseDecodeFeeEstimate b
    pure (.feeEstimate value)
  | .accountBalanceDto => do
    let value ← sseDecodeAccountBalanceDto b
    pure (.accountBalanceDto value)
  | .displayedTransactionDtos => do
    let value ← sseDecodeList b (sseDecodeDisplayedTransactionDto b)
    pure (.displayedTransactionDtos value)
  | .loggerConfig => do
    let value ← sseDecodeLoggerConfig b
    pure (.loggerConfig value)
  | .sendResultDto => do
    let value ← sseDecodeSendResultDto b
    pure (.sendResultDto value)

/-- The codec a call is made with. -/
def codecOf (call : ApiCall DartString) : SseCodec (Reply DartString) where
  decodeSuccessData := sseDecodeReply b (decodes call)
  decodeErrorData := if decodesErrors call then some (sseDecodeAnyhowException b) else none

/-- The codec of the sinks of `start_scan` and `rescan`. -/
def scanEventCodec : SseCodec (ScanEventDto DartString) :=
  ⟨sseDecodeScanEventDto b, some (sseDecodeAnyhowException b)⟩

/-- The codec of the sink of `send_transaction`. -/
def sendTransactionEventCodec : SseCodec (SendTransactionEvent DartString) :=
  ⟨sseDecodeSendTransactionEvent b, some (sseDecodeAnyhowException b)⟩

end

end Dart

/-! ## A reply arrives as it was given -/

section

open Replies

variable (b : Buffer) (action : Format Rust2DartAction)

theorem decodes_eq_returns {τ σ : Type} (f : τ → σ) (call : ApiCall τ) :
    Dart.decodes call = Rust.returns (call.map f) := by
  cases call <;> rfl

theorem decodesErrors_eq_fallible {τ σ : Type} (f : τ → σ) (call : ApiCall τ) :
    Dart.decodesErrors call = Rust.fallible (call.map f) := by
  cases call <;> rfl

/-- The decoder of a reply's kind reads that reply. -/
theorem reply_reads (reply : Reply String) :
    Arrives (Dart.sseDecodeReply b reply.kind) (Rust.sseEncodeReply b reply) (reply.map DartString.ofRust) := by
  cases reply with
  | unit => exact .done _
  | bool value => exact (bool_reads value).map _
  | u16 value => exact (b.u16.reads value).map _
  | u64 value => exact (b.u64.reads value).map _
  | string value => exact (string_reads b value).map _
  | strings value => exact (strings_reads b value).map _
  | sensitiveSeeds value => exact (sensitiveSeeds_reads b value).map _
  | optTariNetwork value => exact (optTariNetwork_reads b value).map _
  | optTipInfo value => exact (option_reads (tipInfo_reads b) value).map _
  | scanHandle value => exact (scanHandle_reads b value).map _
  | walletCreationDetails value => exact (walletCreationDetails_reads b value).map _
  | sendAllFeeEstimate value => exact (sendAllFeeEstimate_reads b value).map _
  | feeEstimate value => exact (feeEstimate_reads b value).map _
  | accountBalanceDto value => exact (accountBalanceDto_reads b value).map _
  | displayedTransactionDtos value => exact (displayedTransactionDtos_reads b value).map _
  | loggerConfig value => exact (loggerConfig_reads b value).map _
  | sendResultDto value => exact (sendResultDto_reads b value).map _

theorem decodeObject_success {α : Type} {codec : Dart.SseCodec α} {payload : Bytes} {value : α}
    (h : Arrives codec.decodeSuccessData payload value)
    (hlimit : (List.flatten [action.put .success, payload]).length < messageLimit) :
    codec.decodeObject action (List.flatten [action.put .success, payload]) = some (.ok value) := by
  have hpayload : List.flatten [payload] = payload := by
    rw [List.flatten_cons, List.flatten_nil, List.append_nil]
  refine Reads.decode (Reads.step (action.reads .success) ?_) hlimit
  rw [hpayload]
  exact h.map _

theorem decodeObject_error {α : Type} {codec : Dart.SseCodec α} {payload : Bytes} {error : DartString}
    {decodeErrorData : Reader DartString} (hcodec : codec.decodeErrorData = some decodeErrorData)
    (h : Arrives decodeErrorData payload error)
    (hlimit : (List.flatten [action.put .error, payload]).length < messageLimit) :
    codec.decodeObject action (List.flatten [action.put .error, payload]) = some (.error error) := by
  have hpayload : List.flatten [payload] = payload := by
    rw [List.flatten_cons, List.flatten_nil, List.append_nil]
  refine Reads.decode (Reads.step (action.reads .error) ?_) hlimit
  rw [hpayload]
  simp only [hcodec]
  exact h.map _

/-- Dart gets what the function came to: its value, or its error. -/
theorem decodeObject_transformResultSse {call : ApiCall DartString} {result : Except String (Reply String)}
    (outcome : Rust.Outcome (call.map DartString.toRust) result)
    (hlimit : (Rust.transformResultSse b action result).length < messageLimit) :
    (Dart.codecOf b call).decodeObject action (Rust.transformResultSse b action result) =
      some (outcomeMap DartString.ofRust result) := by
  cases result with
  | ok reply =>
    have hkind : Dart.decodes call = reply.kind := by
      rw [decodes_eq_returns DartString.toRust call, outcome.returned reply rfl]
    apply decodeObject_success action _ hlimit
    show Arrives (Dart.sseDecodeReply b (Dart.decodes call)) (Rust.sseEncodeReply b reply) _
    rw [hkind]
    exact reply_reads b reply
  | error debug =>
    have hdecodes : Dart.decodesErrors call = true := by
      rw [decodesErrors_eq_fallible DartString.toRust call, outcome.failed debug rfl]
    have hcodec : (Dart.codecOf b call).decodeErrorData = some (Dart.sseDecodeAnyhowException b) := by
      show (if Dart.decodesErrors call then some _ else none) = some _
      rw [hdecodes]
      rfl
    exact decodeObject_error action hcodec (error_reads b debug) hlimit

end

end CwTariWallet.FrbGenerated
