/-
# CwTariWallet.FrbGenerated.Arguments -- what Dart encodes and Rust decodes

The `sse_encode_*` of `frb_generated.dart` and the `SseDecode`s of `frb_generated.rs` for every type an argument
can have, each written from its own side; a `box_autoadd` encoder is the encoder of what is in the box.  Then,
for each pair, that Rust reads what Dart wrote (`*_reads`), with the texts it arrives with.
-/
import CwTariWallet.FrbGenerated.Buffer
import CwTariWallet.FrbGenerated.Dtos

namespace CwTariWallet.FrbGenerated

open Codec (Bytes Reader Reads Format)

/-! ## The encoders of Dart -/

namespace Dart

def sseEncodeBool (self : Bool) : Bytes := Format.byte.put (if self then 1 else 0)

/-- Every `sse_encode_opt_*`. -/
def sseEncodeOpt {α : Type} (sseEncodeValue : α → Bytes) (self : Option α) : Bytes :=
  self.elim (sseEncodeBool false) fun value => sseEncodeBool true ++ sseEncodeValue value

section

variable (b : Buffer)

/-- `sse_encode_list_prim_u_8_strict`. -/
def sseEncodeListU8 (self : Bytes) : Bytes := List.flatten [b.i32.put (Int32.ofNat self.length), self]

def sseEncodeString (self : DartString) : Bytes := sseEncodeListU8 b self.utf8Encode

/-- Every `sse_encode_list_*`. -/
def sseEncodeList {α : Type} (sseEncodeItem : α → Bytes) (self : List α) : Bytes :=
  List.flatten [b.i32.put (Int32.ofNat self.length), self.flatMap sseEncodeItem]

/-- The encoder of every enumeration: `self.index`. -/
def sseEncodeIndex {α : Type} [BEq α] (values : List α) (self : α) : Bytes :=
  b.i32.put (Int32.ofNat (values.idxOf self))

/-- A `SensitiveSeeds` as an argument: the pointer `frbInternalSseEncode` gives. -/
def sseEncodeAutoRef (ptr : UInt64) : Bytes := b.u64.put ptr

/-- `TariNetwork.values`. -/
def tariNetworkValues : List Network := [.mainNet, .stageNet, .nextNet, .localNet, .igor, .esmeralda]

def sseEncodeTariNetwork (self : Network) : Bytes := sseEncodeIndex b tariNetworkValues self

/-- `FeePriority.values`. -/
def feePriorityValues : List FeePriority := [.slow, .medium, .fast]

def sseEncodeFeePriority (self : FeePriority) : Bytes := sseEncodeIndex b feePriorityValues self

/-- `LogLevel.values`. -/
def logLevelValues : List LogLevel := [.error, .warn, .info, .debug, .trace, .off]

def sseEncodeLogLevel (self : LogLevel) : Bytes := sseEncodeIndex b logLevelValues self

/-- `ScanPriority.values`. -/
def scanPriorityValues : List ScanPriority := [.foreground, .background]

def sseEncodeScanPriority (self : ScanPriority) : Bytes := sseEncodeIndex b scanPriorityValues self

def sseEncodeLogModuleConfig (self : LogModuleConfig DartString) : Bytes :=
  List.flatten [sseEncodeString b self.target, sseEncodeLogLevel b self.level]

def sseEncodeLoggerConfig (self : LoggerConfig DartString) : Bytes :=
  List.flatten [sseEncodeLogLevel b self.defaultLevel,
    sseEncodeList b (sseEncodeLogModuleConfig b) self.moduleLevels,
    b.u64.put self.maxFileSizeMb,
    b.u64.put self.maxFiles]

def sseEncodeSendRecipient (self : SendRecipient DartString) : Bytes :=
  List.flatten [sseEncodeString b self.address,
    b.u64.put self.amount,
    sseEncodeOpt (sseEncodeString b) self.paymentId]

def sseEncodeMultiSendTransactionDetails (self : MultiSendTransactionDetails DartString) : Bytes :=
  List.flatten [sseEncodeOpt (sseEncodeTariNetwork b) self.network,
    sseEncodeOpt (sseEncodeString b) self.baseUrl,
    sseEncodeString b self.walletName,
    sseEncodeList b (sseEncodeSendRecipient b) self.recipients,
    sseEncodeBool self.sendAll,
    sseEncodeOpt b.u64.put self.confirmationWindow]

def sseEncodeScanHandle (self : ScanHandle DartString) : Bytes :=
  List.flatten [sseEncodeString b self.walletName, b.u64.put self.id]

def sseEncodeScanConfiguration (self : ScanConfiguration DartString) : Bytes :=
  List.flatten [sseEncodeString b self.walletName,
    sseEncodeString b self.baseUrl,
    b.u64.put self.batchSize,
    sseEncodeBool self.continuous,
    b.u64.put self.pollIntervalSeconds,
    b.u64.put self.requiredConfirmations,
    sseEncodeScanPriority b self.priority,
    sseEncodeOpt b.u32.put self.processingThreads,
    sseEncodeOpt b.u32.put self.eventBuffer,
    sseEncodeOpt b.u64.put self.deadlineSeconds,
    sseEncodeOpt b.u64.put self.maxBlocks]

end

end Dart

/-! ## The decoders of Rust -/

namespace Rust

def sseDecodeBool : Reader Bool := do
  let byte ← Format.byte.get
  pure (byte != 0)

/-- Every `SseDecode for Option<_>`. -/
def sseDecodeOption {α : Type} (sseDecodeValue : Reader α) : Reader (Option α) :=
  Reader.option sseDecodeBool sseDecodeValue

section

variable (b : Buffer)

/-- Every `SseDecode for Vec<_>`; a negative length is a loop of no rounds. -/
def sseDecodeVec {α : Type} (sseDecodeItem : Reader α) : Reader (List α) := do
  let len ← b.i32.get
  Reader.times sseDecodeItem len.toNatClampNeg

/-- It panics at bytes that are no UTF-8. -/
def sseDecodeString : Reader String := do
  let inner ← sseDecodeVec b Format.byte.get
  Reader.ofOption (fromUtf8 inner)

/-- `RustOpaqueMoi<_>`: a pointer. -/
def sseDecodeRustOpaque : Reader UInt64 := b.u64.get

def tariNetworkOf : Int32 → Option Network
  | 0 => some .mainNet
  | 1 => some .stageNet
  | 2 => some .nextNet
  | 3 => some .localNet
  | 4 => some .igor
  | 5 => some .esmeralda
  | _ => none

def sseDecodeTariNetwork : Reader Network := Reader.tagged b.i32.get tariNetworkOf

def feePriorityOf : Int32 → Option FeePriority
  | 0 => some .slow
  | 1 => some .medium
  | 2 => some .fast
  | _ => none

def sseDecodeFeePriority : Reader FeePriority := Reader.tagged b.i32.get feePriorityOf

def logLevelOf : Int32 → Option LogLevel
  | 0 => some .error
  | 1 => some .warn
  | 2 => some .info
  | 3 => some .debug
  | 4 => some .trace
  | 5 => some .off
  | _ => none

def sseDecodeLogLevel : Reader LogLevel := Reader.tagged b.i32.get logLevelOf

def scanPriorityOf : Int32 → Option ScanPriority
  | 0 => some .foreground
  | 1 => some .background
  | _ => none

def sseDecodeScanPriority : Reader ScanPriority := Reader.tagged b.i32.get scanPriorityOf

def sseDecodeLogModuleConfig : Reader (LogModuleConfig String) := do
  let target ← sseDecodeString b
  let level ← sseDecodeLogLevel b
  pure { target, level }

def sseDecodeLoggerConfig : Reader (LoggerConfig String) := do
  let defaultLevel ← sseDecodeLogLevel b
  let moduleLevels ← sseDecodeVec b (sseDecodeLogModuleConfig b)
  let maxFileSizeMb ← b.u64.get
  let maxFiles ← b.u64.get
  pure { defaultLevel, moduleLevels, maxFileSizeMb, maxFiles }

def sseDecodeSendRecipient : Reader (SendRecipient String) := do
  let address ← sseDecodeString b
  let amount ← b.u64.get
  let paymentId ← sseDecodeOption (sseDecodeString b)
  pure { address, amount, paymentId }

def sseDecodeMultiSendTransactionDetails : Reader (MultiSendTransactionDetails String) := do
  let network ← sseDecodeOption (sseDecodeTariNetwork b)
  let baseUrl ← sseDecodeOption (sseDecodeString b)
  let walletName ← sseDecodeString b
  let recipients ← sseDecodeVec b (sseDecodeSendRecipient b)
  let sendAll ← sseDecodeBool
  let confirmationWindow ← sseDecodeOption b.u64.get
  pure { network, baseUrl, walletName, recipients, sendAll, confirmationWindow }

def sseDecodeScanHandle : Reader (ScanHandle String) := do
  let walletName ← sseDecodeString b
  let id ← b.u64.get
  pure { walletName, id }

def sseDecodeScanConfiguration : Reader (ScanConfiguration String) := do
  let walletName ← sseDecodeString b
  let baseUrl ← sseDecodeString b
  let batchSize ← b.u64.get
  let continuous ← sseDecodeBool
  let pollIntervalSeconds ← b.u64.get
  let requiredConfirmations ← b.u64.get
  let priority ← sseDecodeScanPriority b
  let processingThreads ← sseDecodeOption b.u32.get
  let eventBuffer ← sseDecodeOption b.u32.get
  let deadlineSeconds ← sseDecodeOption b.u64.get
  let maxBlocks ← sseDecodeOption b.u64.get
  pure { walletName, baseUrl, batchSize, continuous, pollIntervalSeconds, requiredConfirmations, priority,
         processingThreads, eventBuffer, deadlineSeconds, maxBlocks }

end

end Rust

/-! ## Rust reads what Dart wrote -/

namespace Arguments

theorem bool_reads (self : Bool) : Arrives Rust.sseDecodeBool (Dart.sseEncodeBool self) self := by
  cases self with
  | false => exact (Format.byte.reads 0).map (· != 0)
  | true => exact (Format.byte.reads 1).map (· != 0)

theorem option_reads {α β : Type} {r : Reader β} {write : α → Bytes} {f : α → β}
    (h : ∀ a, Arrives r (write a) (f a)) (self : Option α) :
    Arrives (Rust.sseDecodeOption r) (Dart.sseEncodeOpt write self) (self.map f) :=
  .option (bool_reads true) (bool_reads false) h self

theorem option_reads_self {α : Type} {r : Reader α} {write : α → Bytes} (h : ∀ a, Arrives r (write a) a)
    (self : Option α) : Arrives (Rust.sseDecodeOption r) (Dart.sseEncodeOpt write self) self := by
  have hmap := option_reads (f := id) h self
  rwa [Option.map_id] at hmap

variable (b : Buffer)

theorem vec_reads {α β : Type} {r : Reader β} {write : α → Bytes} {f : α → β}
    (hpos : ∀ a, 0 < (write a).length) (h : ∀ a, Arrives r (write a) (f a)) (self : List α) :
    Arrives (Rust.sseDecodeVec b r) (Dart.sseEncodeList b write self) (self.map f) :=
  counted_times b hpos h self

theorem string_reads (self : DartString) :
    Arrives (Rust.sseDecodeString b) (Dart.sseEncodeString b self) self.toRust := by
  have hbytes : Arrives (Rust.sseDecodeVec b Format.byte.get) (Dart.sseEncodeListU8 b self.utf8Encode)
      self.utf8Encode := by
    apply counted_reads b (Nat.le_refl _)
    intro hshort
    rw [toNatClampNeg_ofNat hshort]
    exact Reads.bytes self.utf8Encode
  exact hbytes.mapOption self.fromUtf8_utf8Encode

theorem string_pos (self : DartString) : 0 < (Dart.sseEncodeString b self).length :=
  flatten_pos b _ _

/-- Nor is what starts with a text. -/
theorem flatten_string_pos (self : DartString) (parts : List Bytes) :
    0 < (List.flatten (Dart.sseEncodeString b self :: parts)).length := by
  have hpos := string_pos b self
  rw [List.flatten_cons, List.length_append]
  omega

theorem strings_reads (self : List DartString) :
    Arrives (Rust.sseDecodeVec b (Rust.sseDecodeString b)) (Dart.sseEncodeList b (Dart.sseEncodeString b) self)
      (self.map DartString.toRust) :=
  vec_reads b (string_pos b) (string_reads b) self

theorem optString_reads (self : Option DartString) :
    Arrives (Rust.sseDecodeOption (Rust.sseDecodeString b)) (Dart.sseEncodeOpt (Dart.sseEncodeString b) self)
      (self.map DartString.toRust) :=
  option_reads (string_reads b) self

/-- The tag Rust gives a variant is its index in Dart's enumeration. -/
theorem index_reads {α : Type} [BEq α] {values : List α} {of : Int32 → Option α} {self : α}
    (h : of (Int32.ofNat (values.idxOf self)) = some self) :
    Arrives (Reader.tagged b.i32.get of) (Dart.sseEncodeIndex b values self) self :=
  .tagged (b.i32.reads _) h

theorem tariNetwork_reads (self : Network) :
    Arrives (Rust.sseDecodeTariNetwork b) (Dart.sseEncodeTariNetwork b self) self :=
  index_reads b (by cases self <;> rfl)

theorem feePriority_reads (self : FeePriority) :
    Arrives (Rust.sseDecodeFeePriority b) (Dart.sseEncodeFeePriority b self) self :=
  index_reads b (by cases self <;> rfl)

theorem logLevel_reads (self : LogLevel) :
    Arrives (Rust.sseDecodeLogLevel b) (Dart.sseEncodeLogLevel b self) self :=
  index_reads b (by cases self <;> rfl)

theorem scanPriority_reads (self : ScanPriority) :
    Arrives (Rust.sseDecodeScanPriority b) (Dart.sseEncodeScanPriority b self) self :=
  index_reads b (by cases self <;> rfl)

theorem optTariNetwork_reads (self : Option Network) :
    Arrives (Rust.sseDecodeOption (Rust.sseDecodeTariNetwork b))
      (Dart.sseEncodeOpt (Dart.sseEncodeTariNetwork b) self) self :=
  option_reads_self (tariNetwork_reads b) self

theorem optU32_reads (self : Option UInt32) :
    Arrives (Rust.sseDecodeOption b.u32.get) (Dart.sseEncodeOpt b.u32.put self) self :=
  option_reads_self b.u32.reads self

theorem optU64_reads (self : Option UInt64) :
    Arrives (Rust.sseDecodeOption b.u64.get) (Dart.sseEncodeOpt b.u64.put self) self :=
  option_reads_self b.u64.reads self

theorem logModuleConfig_reads (self : LogModuleConfig DartString) :
    Arrives (Rust.sseDecodeLogModuleConfig b) (Dart.sseEncodeLogModuleConfig b self)
      (self.map DartString.toRust) :=
  .step (string_reads b _) <| .step (logLevel_reads b _) <| .done _

theorem loggerConfig_reads (self : LoggerConfig DartString) :
    Arrives (Rust.sseDecodeLoggerConfig b) (Dart.sseEncodeLoggerConfig b self) (self.map DartString.toRust) :=
  .step (logLevel_reads b _) <|
    .step (vec_reads b (fun _ => flatten_string_pos b _ _) (logModuleConfig_reads b) _) <|
    .step (b.u64.reads _) <| .step (b.u64.reads _) <| .done _

theorem sendRecipient_reads (self : SendRecipient DartString) :
    Arrives (Rust.sseDecodeSendRecipient b) (Dart.sseEncodeSendRecipient b self) (self.map DartString.toRust) :=
  .step (string_reads b _) <| .step (b.u64.reads _) <| .step (optString_reads b _) <| .done _

theorem multiSendTransactionDetails_reads (self : MultiSendTransactionDetails DartString) :
    Arrives (Rust.sseDecodeMultiSendTransactionDetails b) (Dart.sseEncodeMultiSendTransactionDetails b self)
      (self.map DartString.toRust) :=
  .step (optTariNetwork_reads b _) <| .step (optString_reads b _) <| .step (string_reads b _) <|
    .step (vec_reads b (fun _ => flatten_string_pos b _ _) (sendRecipient_reads b) _) <|
    .step (bool_reads _) <| .step (optU64_reads b _) <| .done _

theorem scanHandle_reads (self : ScanHandle DartString) :
    Arrives (Rust.sseDecodeScanHandle b) (Dart.sseEncodeScanHandle b self) (self.map DartString.toRust) :=
  .step (string_reads b _) <| .step (b.u64.reads _) <| .done _

theorem scanConfiguration_reads (self : ScanConfiguration DartString) :
    Arrives (Rust.sseDecodeScanConfiguration b) (Dart.sseEncodeScanConfiguration b self)
      (self.map DartString.toRust) :=
  .step (string_reads b _) <| .step (string_reads b _) <| .step (b.u64.reads _) <| .step (bool_reads _) <|
    .step (b.u64.reads _) <| .step (b.u64.reads _) <| .step (scanPriority_reads b _) <|
    .step (optU32_reads b _) <| .step (optU32_reads b _) <| .step (optU64_reads b _) <|
    .step (optU64_reads b _) <| .done _

end Arguments

end CwTariWallet.FrbGenerated
