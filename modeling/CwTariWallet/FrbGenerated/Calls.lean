/-
# CwTariWallet.FrbGenerated.Calls -- every call of the API as a message

What each function of `RustLibApiImpl` sends, and what the dispatchers of `frb_generated.rs` make of it: the
dispatcher of the call's mode, the wire function of its id, and that function's arguments in the order it
decodes them.  A message of a call arrives as that call (`dispatch_callFfi`).
-/
import CwTariWallet.FrbGenerated.Arguments

namespace CwTariWallet.FrbGenerated

open Codec (Bytes Reader Reads)

/-- A call of the API, with the arguments of one side.  A `SensitiveSeeds` is given by its pointer and a stream's
sink by the text `setupAndSerialize` makes of it. -/
inductive ApiCall (τ : Type) where
  | sensitiveSeedsAutoAccessorGetWords (that : UInt64)
  | sensitiveSeedsAutoAccessorSetWords (that : UInt64) (words : List τ)
  | abandonSend (walletName passphrase transactionId : τ)
  | birthdayFromDate (epochSecs : UInt64)
  | birthdayFromHeight (network : Option Network) (height : UInt64)
  | changePassphrase (walletName oldPassphrase newPassphrase : τ)
  | checkNodeHealth (baseUrl : τ)
  | checkpointDatabase
  | createScanHandle (walletName : τ)
  | createWallet (walletName : τ) (network : Option Network) (passphrase : τ)
  | currentNetwork
  | deleteWallet (walletName : τ)
  | estimateHeightAtTime (network : Option Network) (epochSecs : UInt64)
  | estimateSendAllFee (walletName recipientAddress : τ) (paymentId : Option τ) (network : Option Network)
      (confirmationWindow : Option UInt64)
  | estimateTransactionFee (amount : UInt64) (priority : FeePriority) (baseUrl walletName : τ)
  | estimateTransactionFeeForOutputs (amount : UInt64) (numOutputs : UInt32) (priority : FeePriority)
      (baseUrl walletName : τ)
  | forceLockWallet (walletName : τ)
  | formatMicroTari (microTari : UInt64)
  | getAddress (walletName : τ) (network : Option Network)
  | getBalance (walletName : τ)
  | getHeightAtTime (baseUrl : τ) (epochSecs : UInt64) (network : Option Network)
  | getSeedWords (walletName password : τ)
  | getTipInfo (baseUrl : τ)
  | getTransactions (walletName : τ) (limit offset : Int64)
  | importViewOnlyWallet (walletName viewPrivateKeyHex spendPublicKeyHex : τ) (birthday : UInt16)
      (passphrase : τ) (network : Option Network)
  | importWalletFromKeys (walletName viewPrivateKeyHex spendPrivateKeyHex : τ) (birthday : UInt16)
      (passphrase : τ) (network : Option Network)
  | initLogger (basePath : τ) (config : Option (LoggerConfig τ))
  | isNodeSynced (baseUrl : τ)
  | listWallets
  | listWords
  | lockWallet (walletName : τ)
  | loggerConfigDefault
  | renameWallet (currentWalletName newWalletName : τ)
  | rescan (sink : τ) (handle : ScanHandle τ) (fromHeight : UInt64) (config : ScanConfiguration τ)
  | restoreWallet (walletName : τ) (seedWords : List τ) (passphrase : τ) (network : Option Network)
  | revealSeedWords (handle : UInt64)
  | sendTransaction (sink : τ) (details : MultiSendTransactionDetails τ)
  | setDatabasePath (path : τ)
  | setLogLevel (level : LogLevel)
  | signMessage (walletName message : τ)
  | startScan (sink : τ) (handle : ScanHandle τ) (config : ScanConfiguration τ)
  | stopScan (handle : ScanHandle τ)
  | unlockWallet (dbPath walletName passphrase : τ)
  | verifyMessage (message signature address : τ)
  deriving DecidableEq, Repr

/-- The call with the texts of the other side. -/
def ApiCall.map {τ σ : Type} (f : τ → σ) : ApiCall τ → ApiCall σ
  | .sensitiveSeedsAutoAccessorGetWords that => .sensitiveSeedsAutoAccessorGetWords that
  | .sensitiveSeedsAutoAccessorSetWords that words => .sensitiveSeedsAutoAccessorSetWords that (words.map f)
  | .abandonSend walletName passphrase transactionId =>
    .abandonSend (f walletName) (f passphrase) (f transactionId)
  | .birthdayFromDate epochSecs => .birthdayFromDate epochSecs
  | .birthdayFromHeight network height => .birthdayFromHeight network height
  | .changePassphrase walletName oldPassphrase newPassphrase =>
    .changePassphrase (f walletName) (f oldPassphrase) (f newPassphrase)
  | .checkNodeHealth baseUrl => .checkNodeHealth (f baseUrl)
  | .checkpointDatabase => .checkpointDatabase
  | .createScanHandle walletName => .createScanHandle (f walletName)
  | .createWallet walletName network passphrase => .createWallet (f walletName) network (f passphrase)
  | .currentNetwork => .currentNetwork
  | .deleteWallet walletName => .deleteWallet (f walletName)
  | .estimateHeightAtTime network epochSecs => .estimateHeightAtTime network epochSecs
  | .estimateSendAllFee walletName recipientAddress paymentId network confirmationWindow =>
    .estimateSendAllFee (f walletName) (f recipientAddress) (paymentId.map f) network confirmationWindow
  | .estimateTransactionFee amount priority baseUrl walletName =>
    .estimateTransactionFee amount priority (f baseUrl) (f walletName)
  | .estimateTransactionFeeForOutputs amount numOutputs priority baseUrl walletName =>
    .estimateTransactionFeeForOutputs amount numOutputs priority (f baseUrl) (f walletName)
  | .forceLockWallet walletName => .forceLockWallet (f walletName)
  | .formatMicroTari microTari => .formatMicroTari microTari
  | .getAddress walletName network => .getAddress (f walletName) network
  | .getBalance walletName => .getBalance (f walletName)
  | .getHeightAtTime baseUrl epochSecs network => .getHeightAtTime (f baseUrl) epochSecs network
  | .getSeedWords walletName password => .getSeedWords (f walletName) (f password)
  | .getTipInfo baseUrl => .getTipInfo (f baseUrl)
  | .getTransactions walletName limit offset => .getTransactions (f walletName) limit offset
  | .importViewOnlyWallet walletName viewPrivateKeyHex spendPublicKeyHex birthday passphrase network =>
    .importViewOnlyWallet (f walletName) (f viewPrivateKeyHex) (f spendPublicKeyHex) birthday (f passphrase)
      network
  | .importWalletFromKeys walletName viewPrivateKeyHex spendPrivateKeyHex birthday passphrase network =>
    .importWalletFromKeys (f walletName) (f viewPrivateKeyHex) (f spendPrivateKeyHex) birthday (f passphrase)
      network
  | .initLogger basePath config => .initLogger (f basePath) (config.map (·.map f))
  | .isNodeSynced baseUrl => .isNodeSynced (f baseUrl)
  | .listWallets => .listWallets
  | .listWords => .listWords
  | .lockWallet walletName => .lockWallet (f walletName)
  | .loggerConfigDefault => .loggerConfigDefault
  | .renameWallet currentWalletName newWalletName => .renameWallet (f currentWalletName) (f newWalletName)
  | .rescan sink handle fromHeight config => .rescan (f sink) (handle.map f) fromHeight (config.map f)
  | .restoreWallet walletName seedWords passphrase network =>
    .restoreWallet (f walletName) (seedWords.map f) (f passphrase) network
  | .revealSeedWords handle => .revealSeedWords handle
  | .sendTransaction sink details => .sendTransaction (f sink) (details.map f)
  | .setDatabasePath path => .setDatabasePath (f path)
  | .setLogLevel level => .setLogLevel level
  | .signMessage walletName message => .signMessage (f walletName) (f message)
  | .startScan sink handle config => .startScan (f sink) (handle.map f) (config.map f)
  | .stopScan handle => .stopScan (handle.map f)
  | .unlockWallet dbPath walletName passphrase => .unlockWallet (f dbPath) (f walletName) (f passphrase)
  | .verifyMessage message signature address => .verifyMessage (f message) (f signature) (f address)

/-- `FfiCallMode`: a sync call has no port for its reply. -/
inductive FfiCallMode where
  | sync
  | normal
  deriving DecidableEq, Repr

/-- What `pdeCallFfi` hands to Rust. -/
structure Message where
  mode : FfiCallMode
  funcId : Int32
  bytes : Bytes
  deriving DecidableEq, Repr

/-! ## The calls of Dart -/

namespace Dart

def syncCall (funcId : Int32) (arguments : List Bytes) : Message := ⟨.sync, funcId, arguments.flatten⟩

def normalCall (funcId : Int32) (arguments : List Bytes) : Message := ⟨.normal, funcId, arguments.flatten⟩

section

variable (b : Buffer)

/-- The `callFfi` of each function of `RustLibApiImpl`. -/
def callFfi : ApiCall DartString → Message
  | .sensitiveSeedsAutoAccessorGetWords that => syncCall 1 [sseEncodeAutoRef b that]
  | .sensitiveSeedsAutoAccessorSetWords that words =>
    syncCall 2 [sseEncodeAutoRef b that, sseEncodeList b (sseEncodeString b) words]
  | .abandonSend walletName passphrase transactionId =>
    normalCall 3 [sseEncodeString b walletName, sseEncodeString b passphrase, sseEncodeString b transactionId]
  | .birthdayFromDate epochSecs => syncCall 4 [b.u64.put epochSecs]
  | .birthdayFromHeight network height =>
    syncCall 5 [sseEncodeOpt (sseEncodeTariNetwork b) network, b.u64.put height]
  | .changePassphrase walletName oldPassphrase newPassphrase =>
    normalCall 6 [sseEncodeString b walletName, sseEncodeString b oldPassphrase,
      sseEncodeString b newPassphrase]
  | .checkNodeHealth baseUrl => normalCall 7 [sseEncodeString b baseUrl]
  | .checkpointDatabase => normalCall 8 []
  | .createScanHandle walletName => syncCall 9 [sseEncodeString b walletName]
  | .createWallet walletName network passphrase =>
    normalCall 10 [sseEncodeString b walletName, sseEncodeOpt (sseEncodeTariNetwork b) network,
      sseEncodeString b passphrase]
  | .currentNetwork => syncCall 11 []
  | .deleteWallet walletName => normalCall 12 [sseEncodeString b walletName]
  | .estimateHeightAtTime network epochSecs =>
    syncCall 13 [sseEncodeOpt (sseEncodeTariNetwork b) network, b.u64.put epochSecs]
  | .estimateSendAllFee walletName recipientAddress paymentId network confirmationWindow =>
    normalCall 14 [sseEncodeString b walletName, sseEncodeString b recipientAddress,
      sseEncodeOpt (sseEncodeString b) paymentId, sseEncodeOpt (sseEncodeTariNetwork b) network,
      sseEncodeOpt b.u64.put confirmationWindow]
  | .estimateTransactionFee amount priority baseUrl walletName =>
    normalCall 15 [b.u64.put amount, sseEncodeFeePriority b priority, sseEncodeString b baseUrl,
      sseEncodeString b walletName]
  | .estimateTransactionFeeForOutputs amount numOutputs priority baseUrl walletName =>
    normalCall 16 [b.u64.put amount, b.u32.put numOutputs, sseEncodeFeePriority b priority,
      sseEncodeString b baseUrl, sseEncodeString b walletName]
  | .forceLockWallet walletName => normalCall 17 [sseEncodeString b walletName]
  | .formatMicroTari microTari => normalCall 18 [b.u64.put microTari]
  | .getAddress walletName network =>
    normalCall 19 [sseEncodeString b walletName, sseEncodeOpt (sseEncodeTariNetwork b) network]
  | .getBalance walletName => normalCall 20 [sseEncodeString b walletName]
  | .getHeightAtTime baseUrl epochSecs network =>
    normalCall 21 [sseEncodeString b baseUrl, b.u64.put epochSecs,
      sseEncodeOpt (sseEncodeTariNetwork b) network]
  | .getSeedWords walletName password =>
    normalCall 22 [sseEncodeString b walletName, sseEncodeString b password]
  | .getTipInfo baseUrl => normalCall 23 [sseEncodeString b baseUrl]
  | .getTransactions walletName limit offset =>
    normalCall 24 [sseEncodeString b walletName, b.i64.put limit, b.i64.put offset]
  | .importViewOnlyWallet walletName viewPrivateKeyHex spendPublicKeyHex birthday passphrase network =>
    normalCall 25 [sseEncodeString b walletName, sseEncodeString b viewPrivateKeyHex,
      sseEncodeString b spendPublicKeyHex, b.u16.put birthday, sseEncodeString b passphrase,
      sseEncodeOpt (sseEncodeTariNetwork b) network]
  | .importWalletFromKeys walletName viewPrivateKeyHex spendPrivateKeyHex birthday passphrase network =>
    normalCall 26 [sseEncodeString b walletName, sseEncodeString b viewPrivateKeyHex,
      sseEncodeString b spendPrivateKeyHex, b.u16.put birthday, sseEncodeString b passphrase,
      sseEncodeOpt (sseEncodeTariNetwork b) network]
  | .initLogger basePath config =>
    syncCall 27 [sseEncodeString b basePath, sseEncodeOpt (sseEncodeLoggerConfig b) config]
  | .isNodeSynced baseUrl => normalCall 28 [sseEncodeString b baseUrl]
  | .listWallets => normalCall 29 []
  | .listWords => syncCall 30 []
  | .lockWallet walletName => normalCall 31 [sseEncodeString b walletName]
  | .loggerConfigDefault => normalCall 32 []
  | .renameWallet currentWalletName newWalletName =>
    normalCall 33 [sseEncodeString b currentWalletName, sseEncodeString b newWalletName]
  | .rescan sink handle fromHeight config =>
    normalCall 34 [sseEncodeString b sink, sseEncodeScanHandle b handle, b.u64.put fromHeight,
      sseEncodeScanConfiguration b config]
  | .restoreWallet walletName seedWords passphrase network =>
    normalCall 35 [sseEncodeString b walletName, sseEncodeList b (sseEncodeString b) seedWords,
      sseEncodeString b passphrase, sseEncodeOpt (sseEncodeTariNetwork b) network]
  | .revealSeedWords handle => normalCall 36 [sseEncodeAutoRef b handle]
  | .sendTransaction sink details =>
    normalCall 37 [sseEncodeString b sink, sseEncodeMultiSendTransactionDetails b details]
  | .setDatabasePath path => normalCall 38 [sseEncodeString b path]
  | .setLogLevel level => syncCall 39 [sseEncodeLogLevel b level]
  | .signMessage walletName message => normalCall 40 [sseEncodeString b walletName, sseEncodeString b message]
  | .startScan sink handle config =>
    normalCall 41 [sseEncodeString b sink, sseEncodeScanHandle b handle, sseEncodeScanConfiguration b config]
  | .stopScan handle => normalCall 42 [sseEncodeScanHandle b handle]
  | .unlockWallet dbPath walletName passphrase =>
    normalCall 43 [sseEncodeString b dbPath, sseEncodeString b walletName, sseEncodeString b passphrase]
  | .verifyMessage message signature address =>
    normalCall 44 [sseEncodeString b message, sseEncodeString b signature, sseEncodeString b address]

end

end Dart

/-! ## The wire functions and dispatchers of Rust -/

namespace Rust

section

variable (b : Buffer)

def wireSensitiveSeedsAutoAccessorGetWords : Reader (ApiCall String) := do
  let that ← sseDecodeRustOpaque b
  pure (.sensitiveSeedsAutoAccessorGetWords that)

def wireSensitiveSeedsAutoAccessorSetWords : Reader (ApiCall String) := do
  let that ← sseDecodeRustOpaque b
  let words ← sseDecodeVec b (sseDecodeString b)
  pure (.sensitiveSeedsAutoAccessorSetWords that words)

def wireAbandonSend : Reader (ApiCall String) := do
  let walletName ← sseDecodeString b
  let passphrase ← sseDecodeString b
  let transactionId ← sseDecodeString b
  pure (.abandonSend walletName passphrase transactionId)

def wireBirthdayFromDate : Reader (ApiCall String) := do
  let epochSecs ← b.u64.get
  pure (.birthdayFromDate epochSecs)

def wireBirthdayFromHeight : Reader (ApiCall String) := do
  let network ← sseDecodeOption (sseDecodeTariNetwork b)
  let height ← b.u64.get
  pure (.birthdayFromHeight network height)

def wireChangePassphrase : Reader (ApiCall String) := do
  let walletName ← sseDecodeString b
  let oldPassphrase ← sseDecodeString b
  let newPassphrase ← sseDecodeString b
  pure (.changePassphrase walletName oldPassphrase newPassphrase)

def wireCheckNodeHealth : Reader (ApiCall String) := do
  let baseUrl ← sseDecodeString b
  pure (.checkNodeHealth baseUrl)

def wireCheckpointDatabase : Reader (ApiCall String) := pure .checkpointDatabase

def wireCreateScanHandle : Reader (ApiCall String) := do
  let walletName ← sseDecodeString b
  pure (.createScanHandle walletName)

def wireCreateWallet : Reader (ApiCall String) := do
  let walletName ← sseDecodeString b
  let network ← sseDecodeOption (sseDecodeTariNetwork b)
  let passphrase ← sseDecodeString b
  pure (.createWallet walletName network passphrase)

def wireCurrentNetwork : Reader (ApiCall String) := pure .currentNetwork

def wireDeleteWallet : Reader (ApiCall String) := do
  let walletName ← sseDecodeString b
  pure (.deleteWallet walletName)

def wireEstimateHeightAtTime : Reader (ApiCall String) := do
  let network ← sseDecodeOption (sseDecodeTariNetwork b)
  let epochSecs ← b.u64.get
  pure (.estimateHeightAtTime network epochSecs)

def wireEstimateSendAllFee : Reader (ApiCall String) := do
  let walletName ← sseDecodeString b
  let recipientAddress ← sseDecodeString b
  let paymentId ← sseDecodeOption (sseDecodeString b)
  let network ← sseDecodeOption (sseDecodeTariNetwork b)
  let confirmationWindow ← sseDecodeOption b.u64.get
  pure (.estimateSendAllFee walletName recipientAddress paymentId network confirmationWindow)

def wireEstimateTransactionFee : Reader (ApiCall String) := do
  let amount ← b.u64.get
  let priority ← sseDecodeFeePriority b
  let baseUrl ← sseDecodeString b
  let walletName ← sseDecodeString b
  pure (.estimateTransactionFee amount priority baseUrl walletName)

def wireEstimateTransactionFeeForOutputs : Reader (ApiCall String) := do
  let amount ← b.u64.get
  let numOutputs ← b.u32.get
  let priority ← sseDecodeFeePriority b
  let baseUrl ← sseDecodeString b
  let walletName ← sseDecodeString b
  pure (.estimateTransactionFeeForOutputs amount numOutputs priority baseUrl walletName)

def wireForceLockWallet : Reader (ApiCall String) := do
  let walletName ← sseDecodeString b
  pure (.forceLockWallet walletName)

def wireFormatMicroTari : Reader (ApiCall String) := do
  let microTari ← b.u64.get
  pure (.formatMicroTari microTari)

def wireGetAddress : Reader (ApiCall String) := do
  let walletName ← sseDecodeString b
  let network ← sseDecodeOption (sseDecodeTariNetwork b)
  pure (.getAddress walletName network)

def wireGetBalance : Reader (ApiCall String) := do
  let walletName ← sseDecodeString b
  pure (.getBalance walletName)

def wireGetHeightAtTime : Reader (ApiCall String) := do
  let baseUrl ← sseDecodeString b
  let epochSecs ← b.u64.get
  let network ← sseDecodeOption (sseDecodeTariNetwork b)
  pure (.getHeightAtTime baseUrl epochSecs network)

def wireGetSeedWords : Reader (ApiCall String) := do
  let walletName ← sseDecodeString b
  let password ← sseDecodeString b
  pure (.getSeedWords walletName password)

def wireGetTipInfo : Reader (ApiCall String) := do
  let baseUrl ← sseDecodeString b
  pure (.getTipInfo baseUrl)

def wireGetTransactions : Reader (ApiCall String) := do
  let walletName ← sseDecodeString b
  let limit ← b.i64.get
  let offset ← b.i64.get
  pure (.getTransactions walletName limit offset)

def wireImportViewOnlyWallet : Reader (ApiCall String) := do
  let walletName ← sseDecodeString b
  let viewPrivateKeyHex ← sseDecodeString b
  let spendPublicKeyHex ← sseDecodeString b
  let birthday ← b.u16.get
  let passphrase ← sseDecodeString b
  let network ← sseDecodeOption (sseDecodeTariNetwork b)
  pure (.importViewOnlyWallet walletName viewPrivateKeyHex spendPublicKeyHex birthday passphrase network)

def wireImportWalletFromKeys : Reader (ApiCall String) := do
  let walletName ← sseDecodeString b
  let viewPrivateKeyHex ← sseDecodeString b
  let spendPrivateKeyHex ← sseDecodeString b
  let birthday ← b.u16.get
  let passphrase ← sseDecodeString b
  let network ← sseDecodeOption (sseDecodeTariNetwork b)
  pure (.importWalletFromKeys walletName viewPrivateKeyHex spendPrivateKeyHex birthday passphrase network)

def wireInitLogger : Reader (ApiCall String) := do
  let basePath ← sseDecodeString b
  let config ← sseDecodeOption (sseDecodeLoggerConfig b)
  pure (.initLogger basePath config)

def wireIsNodeSynced : Reader (ApiCall String) := do
  let baseUrl ← sseDecodeString b
  pure (.isNodeSynced baseUrl)

def wireListWallets : Reader (ApiCall String) := pure .listWallets

def wireListWords : Reader (ApiCall String) := pure .listWords

def wireLockWallet : Reader (ApiCall String) := do
  let walletName ← sseDecodeString b
  pure (.lockWallet walletName)

def wireLoggerConfigDefault : Reader (ApiCall String) := pure .loggerConfigDefault

def wireRenameWallet : Reader (ApiCall String) := do
  let currentWalletName ← sseDecodeString b
  let newWalletName ← sseDecodeString b
  pure (.renameWallet currentWalletName newWalletName)

def wireRescan : Reader (ApiCall String) := do
  let sink ← sseDecodeString b
  let handle ← sseDecodeScanHandle b
  let fromHeight ← b.u64.get
  let config ← sseDecodeScanConfiguration b
  pure (.rescan sink handle fromHeight config)

def wireRestoreWallet : Reader (ApiCall String) := do
  let walletName ← sseDecodeString b
  let seedWords ← sseDecodeVec b (sseDecodeString b)
  let passphrase ← sseDecodeString b
  let network ← sseDecodeOption (sseDecodeTariNetwork b)
  pure (.restoreWallet walletName seedWords passphrase network)

def wireRevealSeedWords : Reader (ApiCall String) := do
  let handle ← sseDecodeRustOpaque b
  pure (.revealSeedWords handle)

def wireSendTransaction : Reader (ApiCall String) := do
  let sink ← sseDecodeString b
  let details ← sseDecodeMultiSendTransactionDetails b
  pure (.sendTransaction sink details)

def wireSetDatabasePath : Reader (ApiCall String) := do
  let path ← sseDecodeString b
  pure (.setDatabasePath path)

def wireSetLogLevel : Reader (ApiCall String) := do
  let level ← sseDecodeLogLevel b
  pure (.setLogLevel level)

def wireSignMessage : Reader (ApiCall String) := do
  let walletName ← sseDecodeString b
  let message ← sseDecodeString b
  pure (.signMessage walletName message)

def wireStartScan : Reader (ApiCall String) := do
  let sink ← sseDecodeString b
  let handle ← sseDecodeScanHandle b
  let config ← sseDecodeScanConfiguration b
  pure (.startScan sink handle config)

def wireStopScan : Reader (ApiCall String) := do
  let handle ← sseDecodeScanHandle b
  pure (.stopScan handle)

def wireUnlockWallet : Reader (ApiCall String) := do
  let dbPath ← sseDecodeString b
  let walletName ← sseDecodeString b
  let passphrase ← sseDecodeString b
  pure (.unlockWallet dbPath walletName passphrase)

def wireVerifyMessage : Reader (ApiCall String) := do
  let message ← sseDecodeString b
  let signature ← sseDecodeString b
  let address ← sseDecodeString b
  pure (.verifyMessage message signature address)

/-- `pde_ffi_dispatcher_primary_impl`. -/
def pdeFfiDispatcherPrimary (funcId : Int32) : Reader (ApiCall String) :=
  match funcId with
  | 3 => wireAbandonSend b
  | 6 => wireChangePassphrase b
  | 7 => wireCheckNodeHealth b
  | 8 => wireCheckpointDatabase
  | 10 => wireCreateWallet b
  | 12 => wireDeleteWallet b
  | 14 => wireEstimateSendAllFee b
  | 15 => wireEstimateTransactionFee b
  | 16 => wireEstimateTransactionFeeForOutputs b
  | 17 => wireForceLockWallet b
  | 18 => wireFormatMicroTari b
  | 19 => wireGetAddress b
  | 20 => wireGetBalance b
  | 21 => wireGetHeightAtTime b
  | 22 => wireGetSeedWords b
  | 23 => wireGetTipInfo b
  | 24 => wireGetTransactions b
  | 25 => wireImportViewOnlyWallet b
  | 26 => wireImportWalletFromKeys b
  | 28 => wireIsNodeSynced b
  | 29 => wireListWallets
  | 31 => wireLockWallet b
  | 32 => wireLoggerConfigDefault
  | 33 => wireRenameWallet b
  | 34 => wireRescan b
  | 35 => wireRestoreWallet b
  | 36 => wireRevealSeedWords b
  | 37 => wireSendTransaction b
  | 38 => wireSetDatabasePath b
  | 40 => wireSignMessage b
  | 41 => wireStartScan b
  | 42 => wireStopScan b
  | 43 => wireUnlockWallet b
  | 44 => wireVerifyMessage b
  | _ => Reader.ofOption none

/-- `pde_ffi_dispatcher_sync_impl`. -/
def pdeFfiDispatcherSync (funcId : Int32) : Reader (ApiCall String) :=
  match funcId with
  | 1 => wireSensitiveSeedsAutoAccessorGetWords b
  | 2 => wireSensitiveSeedsAutoAccessorSetWords b
  | 4 => wireBirthdayFromDate b
  | 5 => wireBirthdayFromHeight b
  | 9 => wireCreateScanHandle b
  | 11 => wireCurrentNetwork
  | 13 => wireEstimateHeightAtTime b
  | 27 => wireInitLogger b
  | 30 => wireListWords
  | 39 => wireSetLogLevel b
  | _ => Reader.ofOption none

/-- The wire function a message goes to. -/
def wireOf (message : Message) : Reader (ApiCall String) :=
  match message.mode with
  | .sync => pdeFfiDispatcherSync b message.funcId
  | .normal => pdeFfiDispatcherPrimary b message.funcId

/-- What Rust makes of a message; `none` where it panics.  Every wire function ends with `deserializer.end()`. -/
def dispatch (message : Message) : Option (ApiCall String) := (wireOf b message).decode message.bytes

end

end Rust

/-! ## A call arrives as it was made -/

section

open Arguments

variable (b : Buffer)

/-- The wire function of a call's message reads its arguments, each where it was written. -/
theorem callFfi_reads (call : ApiCall DartString) :
    Arrives (Rust.wireOf b (Dart.callFfi b call)) (Dart.callFfi b call).bytes (call.map DartString.toRust) := by
  cases call with
  | sensitiveSeedsAutoAccessorGetWords | revealSeedWords =>
    exact .step (b.u64.reads _) <| .done _
  | sensitiveSeedsAutoAccessorSetWords =>
    exact .step (b.u64.reads _) <| .step (strings_reads b _) <| .done _
  | abandonSend | changePassphrase | unlockWallet | verifyMessage =>
    exact .step (string_reads b _) <| .step (string_reads b _) <| .step (string_reads b _) <| .done _
  | birthdayFromDate | formatMicroTari =>
    exact .step (b.u64.reads _) <| .done _
  | birthdayFromHeight | estimateHeightAtTime =>
    exact .step (optTariNetwork_reads b _) <| .step (b.u64.reads _) <| .done _
  | checkNodeHealth | createScanHandle | deleteWallet | forceLockWallet | getBalance | getTipInfo |
    isNodeSynced | lockWallet | setDatabasePath =>
    exact .step (string_reads b _) <| .done _
  | checkpointDatabase | currentNetwork | listWallets | listWords | loggerConfigDefault =>
    exact .done _
  | createWallet =>
    exact .step (string_reads b _) <| .step (optTariNetwork_reads b _) <| .step (string_reads b _) <| .done _
  | estimateSendAllFee =>
    exact .step (string_reads b _) <| .step (string_reads b _) <| .step (optString_reads b _) <|
      .step (optTariNetwork_reads b _) <| .step (optU64_reads b _) <| .done _
  | estimateTransactionFee =>
    exact .step (b.u64.reads _) <| .step (feePriority_reads b _) <| .step (string_reads b _) <|
      .step (string_reads b _) <| .done _
  | estimateTransactionFeeForOutputs =>
    exact .step (b.u64.reads _) <| .step (b.u32.reads _) <| .step (feePriority_reads b _) <|
      .step (string_reads b _) <| .step (string_reads b _) <| .done _
  | getAddress =>
    exact .step (string_reads b _) <| .step (optTariNetwork_reads b _) <| .done _
  | getHeightAtTime =>
    exact .step (string_reads b _) <| .step (b.u64.reads _) <| .step (optTariNetwork_reads b _) <| .done _
  | getSeedWords | renameWallet | signMessage =>
    exact .step (string_reads b _) <| .step (string_reads b _) <| .done _
  | getTransactions =>
    exact .step (string_reads b _) <| .step (b.i64.reads _) <| .step (b.i64.reads _) <| .done _
  | importViewOnlyWallet | importWalletFromKeys =>
    exact .step (string_reads b _) <| .step (string_reads b _) <| .step (string_reads b _) <|
      .step (b.u16.reads _) <| .step (string_reads b _) <| .step (optTariNetwork_reads b _) <| .done _
  | initLogger =>
    exact .step (string_reads b _) <| .step (option_reads (loggerConfig_reads b) _) <| .done _
  | rescan =>
    exact .step (string_reads b _) <| .step (scanHandle_reads b _) <| .step (b.u64.reads _) <|
      .step (scanConfiguration_reads b _) <| .done _
  | restoreWallet =>
    exact .step (string_reads b _) <| .step (strings_reads b _) <| .step (string_reads b _) <|
      .step (optTariNetwork_reads b _) <| .done _
  | sendTransaction =>
    exact .step (string_reads b _) <| .step (multiSendTransactionDetails_reads b _) <| .done _
  | setLogLevel =>
    exact .step (logLevel_reads b _) <| .done _
  | startScan =>
    exact .step (string_reads b _) <| .step (scanHandle_reads b _) <| .step (scanConfiguration_reads b _) <|
      .done _
  | stopScan =>
    exact .step (scanHandle_reads b _) <| .done _

variable {b} {call : ApiCall DartString}

/-- Rust runs the function Dart called, on the arguments Dart gave it. -/
theorem dispatch_callFfi (hlimit : (Dart.callFfi b call).bytes.length < messageLimit) :
    Rust.dispatch b (Dart.callFfi b call) = some (call.map DartString.toRust) :=
  (callFfi_reads b call).decode hlimit

/-- A message that lost its end, or has something after it, is no call. -/
theorem dispatch_of_altered (hlimit : (Dart.callFfi b call).bytes.length < messageLimit) {bytes : Bytes}
    (hne : bytes ≠ (Dart.callFfi b call).bytes)
    (haltered : bytes <+: (Dart.callFfi b call).bytes ∨ (Dart.callFfi b call).bytes <+: bytes) :
    Rust.dispatch b { Dart.callFfi b call with bytes := bytes } = none := by
  have hreads := callFfi_reads b call
  rcases haltered with ⟨back, hcut⟩ | ⟨more, hlonger⟩
  · apply hreads.decode_of_prefix hlimit hcut.symm
    rintro rfl
    rw [List.append_nil] at hcut
    exact hne hcut
  · rw [← hlonger]
    apply hreads.decode_of_longer hlimit
    rintro rfl
    rw [List.append_nil] at hlonger
    exact hne hlonger.symm

/-- `lock_wallet` of the wallet `w`, without its last byte. -/
theorem dispatch_of_altered_lockWallet :
    Rust.dispatch (Buffer.native .little) ⟨.normal, 31, [1, 0, 0, 0]⟩ = none :=
  @dispatch_of_altered (Buffer.native .little) (.lockWallet [0x77]) (by decide) [1, 0, 0, 0] (by decide)
    (Or.inl (by decide))

end

end CwTariWallet.FrbGenerated
