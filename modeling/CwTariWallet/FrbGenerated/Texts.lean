/-
# CwTariWallet.FrbGenerated.Texts -- what happens to the texts of a call, a reply or an event

Numbers and enumerations cross as they are; a text may not.  `texts` lists those of a call, and two ways to carry
a call across agree exactly where they agree on each of them (`ApiCall.map_eq_iff`); what Rust sends can be told
from what Dart gets exactly where each text can (`Reply.map_map_eq_iff`, `ScanEventDto.map_map_eq_iff`,
`SendTransactionEvent.map_map_eq_iff`).  So a call that Dart makes
of texts Rust handed out arrives as Rust would have made it unless one of them starts with a byte-order mark
(`dispatch_echo_iff`), and two calls of Dart are one message only if they differ in broken surrogates alone
(`eq_of_callFfi_eq`).
-/
import CwTariWallet.FrbGenerated.Rpc

namespace CwTariWallet.FrbGenerated

section

variable {τ σ : Type}

/-! ## The texts of a call -/

def LogModuleConfig.texts (self : LogModuleConfig τ) : List τ := [self.target]

def LoggerConfig.texts (self : LoggerConfig τ) : List τ := self.moduleLevels.flatMap LogModuleConfig.texts

def SendRecipient.texts (self : SendRecipient τ) : List τ := [self.address] ++ self.paymentId.toList

def MultiSendTransactionDetails.texts (self : MultiSendTransactionDetails τ) : List τ :=
  self.baseUrl.toList ++ [self.walletName] ++ self.recipients.flatMap SendRecipient.texts

def ScanHandle.texts (self : ScanHandle τ) : List τ := [self.walletName]

def ScanConfiguration.texts (self : ScanConfiguration τ) : List τ := [self.walletName, self.baseUrl]

def ApiCall.texts : ApiCall τ → List τ
  | .sensitiveSeedsAutoAccessorGetWords _ => []
  | .sensitiveSeedsAutoAccessorSetWords _ words => words
  | .abandonSend walletName passphrase transactionId => [walletName, passphrase, transactionId]
  | .birthdayFromDate _ => []
  | .birthdayFromHeight _ _ => []
  | .changePassphrase walletName oldPassphrase newPassphrase => [walletName, oldPassphrase, newPassphrase]
  | .checkNodeHealth baseUrl => [baseUrl]
  | .checkpointDatabase => []
  | .createScanHandle walletName => [walletName]
  | .createWallet walletName _ passphrase => [walletName, passphrase]
  | .currentNetwork => []
  | .deleteWallet walletName => [walletName]
  | .estimateHeightAtTime _ _ => []
  | .estimateSendAllFee walletName recipientAddress paymentId _ _ =>
    [walletName, recipientAddress] ++ paymentId.toList
  | .estimateTransactionFee _ _ baseUrl walletName => [baseUrl, walletName]
  | .estimateTransactionFeeForOutputs _ _ _ baseUrl walletName => [baseUrl, walletName]
  | .forceLockWallet walletName => [walletName]
  | .formatMicroTari _ => []
  | .getAddress walletName _ => [walletName]
  | .getBalance walletName => [walletName]
  | .getHeightAtTime baseUrl _ _ => [baseUrl]
  | .getSeedWords walletName password => [walletName, password]
  | .getTipInfo baseUrl => [baseUrl]
  | .getTransactions walletName _ _ => [walletName]
  | .importViewOnlyWallet walletName viewPrivateKeyHex spendPublicKeyHex _ passphrase _ =>
    [walletName, viewPrivateKeyHex, spendPublicKeyHex, passphrase]
  | .importWalletFromKeys walletName viewPrivateKeyHex spendPrivateKeyHex _ passphrase _ =>
    [walletName, viewPrivateKeyHex, spendPrivateKeyHex, passphrase]
  | .initLogger basePath config => [basePath] ++ config.toList.flatMap LoggerConfig.texts
  | .isNodeSynced baseUrl => [baseUrl]
  | .listWallets => []
  | .listWords => []
  | .lockWallet walletName => [walletName]
  | .loggerConfigDefault => []
  | .renameWallet currentWalletName newWalletName => [currentWalletName, newWalletName]
  | .rescan sink handle _ config => [sink] ++ handle.texts ++ config.texts
  | .restoreWallet walletName seedWords passphrase _ => [walletName] ++ seedWords ++ [passphrase]
  | .revealSeedWords _ => []
  | .sendTransaction sink details => [sink] ++ details.texts
  | .setDatabasePath path => [path]
  | .setLogLevel _ => []
  | .signMessage walletName message => [walletName, message]
  | .startScan sink handle config => [sink] ++ handle.texts ++ config.texts
  | .stopScan handle => handle.texts
  | .unlockWallet dbPath walletName passphrase => [dbPath, walletName, passphrase]
  | .verifyMessage message signature address => [message, signature, address]

/-! ## Two ways to carry a call across -/

variable {f g : τ → σ}

theorem option_map_eq_iff {α β : Type} {f g : α → β} (self : Option α) :
    self.map f = self.map g ↔ ∀ a ∈ self.toList, f a = g a := by
  cases self with
  | none => exact iff_of_true rfl fun a ha => nomatch ha
  | some a => simp

theorem LogModuleConfig.map_eq_iff (self : LogModuleConfig τ) :
    self.map f = self.map g ↔ ∀ t ∈ self.texts, f t = g t := by
  simp [map, texts]

theorem LoggerConfig.map_eq_iff (self : LoggerConfig τ) :
    self.map f = self.map g ↔ ∀ t ∈ self.texts, f t = g t := by
  simp [map, texts, List.forall_mem_flatMap, LogModuleConfig.map_eq_iff, -List.mem_flatMap]

theorem SendRecipient.map_eq_iff (self : SendRecipient τ) :
    self.map f = self.map g ↔ ∀ t ∈ self.texts, f t = g t := by
  simp [map, texts, option_map_eq_iff]

theorem MultiSendTransactionDetails.map_eq_iff (self : MultiSendTransactionDetails τ) :
    self.map f = self.map g ↔ ∀ t ∈ self.texts, f t = g t := by
  simp [map, texts, option_map_eq_iff, List.forall_mem_flatMap, List.forall_mem_append, SendRecipient.map_eq_iff,
    -List.mem_flatMap, -List.mem_append]

theorem ScanHandle.map_eq_iff (self : ScanHandle τ) : self.map f = self.map g ↔ ∀ t ∈ self.texts, f t = g t := by
  simp [map, texts]

theorem ScanConfiguration.map_eq_iff (self : ScanConfiguration τ) :
    self.map f = self.map g ↔ ∀ t ∈ self.texts, f t = g t := by
  simp [map, texts]

theorem ApiCall.map_eq_iff (call : ApiCall τ) : call.map f = call.map g ↔ ∀ t ∈ call.texts, f t = g t := by
  cases call <;>
    simp [map, texts, option_map_eq_iff, List.forall_mem_flatMap, List.forall_mem_append, LoggerConfig.map_eq_iff,
      MultiSendTransactionDetails.map_eq_iff, ScanHandle.map_eq_iff, ScanConfiguration.map_eq_iff,
      -List.mem_flatMap, -List.mem_append]

/-! ### One after the other -/

variable {ρ : Type} {h : σ → ρ}

theorem LoggerConfig.map_map (self : LoggerConfig τ) : (self.map f).map h = self.map (h ∘ f) := by
  simp [map, LogModuleConfig.map]

theorem MultiSendTransactionDetails.map_map (self : MultiSendTransactionDetails τ) :
    (self.map f).map h = self.map (h ∘ f) := by
  simp [map, SendRecipient.map]

theorem ApiCall.map_map (call : ApiCall τ) : (call.map f).map h = call.map (h ∘ f) := by
  cases call <;>
    simp [map, LoggerConfig.map_map, MultiSendTransactionDetails.map_map, ScanHandle.map, ScanConfiguration.map,
      Function.comp_def]

theorem LoggerConfig.map_id (self : LoggerConfig τ) : self.map id = self := by
  simp [map, LogModuleConfig.map]

theorem MultiSendTransactionDetails.map_id (self : MultiSendTransactionDetails τ) : self.map id = self := by
  simp [map, SendRecipient.map]

theorem ApiCall.map_id (call : ApiCall τ) : call.map id = call := by
  cases call <;>
    simp [map, LoggerConfig.map_id, MultiSendTransactionDetails.map_id, ScanHandle.map, ScanConfiguration.map]

/-- There and back leaves a call as it was exactly where it leaves its texts. -/
theorem ApiCall.map_map_eq_iff {h : σ → τ} (call : ApiCall τ) :
    (call.map f).map h = call ↔ ∀ t ∈ call.texts, h (f t) = t := by
  rw [ApiCall.map_map]
  calc call.map (h ∘ f) = call
    _ ↔ call.map (h ∘ f) = call.map id := by rw [ApiCall.map_id]
    _ ↔ ∀ t ∈ call.texts, h (f t) = t := call.map_eq_iff

end

section

variable {τ σ : Type}

/-! ## The texts of a reply and of an event -/

def BlockchainInfoDto.texts (self : BlockchainInfoDto τ) : List τ := [self.timestamp]

def CounterpartyInfoDto.texts (self : CounterpartyInfoDto τ) : List τ := [self.address, self.addressEmoji]

def FeeInfoDto.texts (self : FeeInfoDto τ) : List τ := [self.amountDisplay]

def DisplayedTransactionDto.texts (self : DisplayedTransactionDto τ) : List τ :=
  [self.id, self.amountDisplay] ++ self.message.toList ++
    self.counterparty.toList.flatMap CounterpartyInfoDto.texts ++ self.blockchain.texts ++
    self.fee.toList.flatMap FeeInfoDto.texts ++ self.payrefs

def TransactionsReadyDto.texts (self : TransactionsReadyDto τ) : List τ :=
  self.transactions.flatMap DisplayedTransactionDto.texts

def TransactionsUpdatedDto.texts (self : TransactionsUpdatedDto τ) : List τ :=
  self.updatedTransactions.flatMap DisplayedTransactionDto.texts

def ReorgDetectedDto.texts (self : ReorgDetectedDto τ) : List τ :=
  self.cancelledTransactionIds ++ self.reorganizedTransactions.flatMap DisplayedTransactionDto.texts

def ScanEventDto.texts : ScanEventDto τ → List τ
  | .transactionsReady ready => ready.texts
  | .transactionsUpdated updated => updated.texts
  | .reorgDetected reorg => reorg.texts
  | .error text => [text]
  | _ => []

def SendTransactionEvent.texts (self : SendTransactionEvent τ) : List τ := [self.details]

def SendResultDto.texts (self : SendResultDto τ) : List τ :=
  self.transaction.texts ++ self.note.toList ++ self.nodeReason.toList

def TipInfo.texts (self : TipInfo τ) : List τ := [self.bestBlockHash]

def WalletCreationDetails.texts (self : WalletCreationDetails τ) : List τ :=
  [self.tariAddress, self.spendPublicKeyHex, self.viewPrivateKeyHex]

def Reply.texts : Reply τ → List τ
  | .string value => [value]
  | .strings value => value
  | .optTipInfo value => value.toList.flatMap TipInfo.texts
  | .scanHandle value => value.texts
  | .walletCreationDetails value => value.texts
  | .displayedTransactionDtos value => value.flatMap DisplayedTransactionDto.texts
  | .loggerConfig value => value.texts
  | .sendResultDto value => value.texts
  | _ => []

/-! ### There and back -/

variable {f : τ → σ} {h : σ → τ}

theorem list_map_eq_self_iff {α : Type} {f : α → α} (self : List α) :
    self.map f = self ↔ ∀ a ∈ self, f a = a := by
  have hid := List.map_inj_left (f := f) (g := id) (l := self)
  rwa [List.map_id] at hid

theorem option_map_eq_self_iff {α : Type} {f : α → α} (self : Option α) :
    self.map f = self ↔ ∀ a ∈ self.toList, f a = a := by
  have hid := option_map_eq_iff (f := f) (g := id) self
  rwa [Option.map_id] at hid

theorem LogModuleConfig.map_map_eq_iff (self : LogModuleConfig τ) :
    (self.map f).map h = self ↔ ∀ t ∈ self.texts, h (f t) = t := by
  cases self
  simp [map, texts]

theorem LoggerConfig.map_map_eq_iff (self : LoggerConfig τ) :
    (self.map f).map h = self ↔ ∀ t ∈ self.texts, h (f t) = t := by
  cases self
  simp [map, texts, list_map_eq_self_iff, List.forall_mem_flatMap, LogModuleConfig.map_map_eq_iff,
    -List.mem_flatMap]

theorem ScanHandle.map_map_eq_iff (self : ScanHandle τ) :
    (self.map f).map h = self ↔ ∀ t ∈ self.texts, h (f t) = t := by
  cases self
  simp [map, texts]

theorem BlockchainInfoDto.map_map_eq_iff (self : BlockchainInfoDto τ) :
    (self.map f).map h = self ↔ ∀ t ∈ self.texts, h (f t) = t := by
  cases self
  simp [map, texts]

theorem CounterpartyInfoDto.map_map_eq_iff (self : CounterpartyInfoDto τ) :
    (self.map f).map h = self ↔ ∀ t ∈ self.texts, h (f t) = t := by
  cases self
  simp [map, texts]

theorem FeeInfoDto.map_map_eq_iff (self : FeeInfoDto τ) :
    (self.map f).map h = self ↔ ∀ t ∈ self.texts, h (f t) = t := by
  cases self
  simp [map, texts]

theorem DisplayedTransactionDto.map_map_eq_iff (self : DisplayedTransactionDto τ) :
    (self.map f).map h = self ↔ ∀ t ∈ self.texts, h (f t) = t := by
  cases self
  simp [map, texts, option_map_eq_self_iff, list_map_eq_self_iff, List.forall_mem_flatMap,
    List.forall_mem_append, BlockchainInfoDto.map_map_eq_iff, CounterpartyInfoDto.map_map_eq_iff,
    FeeInfoDto.map_map_eq_iff, -List.mem_flatMap, -List.mem_append]

theorem TransactionsReadyDto.map_map_eq_iff (self : TransactionsReadyDto τ) :
    (self.map f).map h = self ↔ ∀ t ∈ self.texts, h (f t) = t := by
  cases self
  simp [map, texts, list_map_eq_self_iff, List.forall_mem_flatMap,
    DisplayedTransactionDto.map_map_eq_iff, -List.mem_flatMap]

theorem TransactionsUpdatedDto.map_map_eq_iff (self : TransactionsUpdatedDto τ) :
    (self.map f).map h = self ↔ ∀ t ∈ self.texts, h (f t) = t := by
  cases self
  simp [map, texts, list_map_eq_self_iff, List.forall_mem_flatMap,
    DisplayedTransactionDto.map_map_eq_iff, -List.mem_flatMap]

theorem ReorgDetectedDto.map_map_eq_iff (self : ReorgDetectedDto τ) :
    (self.map f).map h = self ↔ ∀ t ∈ self.texts, h (f t) = t := by
  cases self
  simp [map, texts, list_map_eq_self_iff, List.forall_mem_flatMap, List.forall_mem_append,
    DisplayedTransactionDto.map_map_eq_iff, -List.mem_flatMap, -List.mem_append]

theorem ScanEventDto.map_map_eq_iff (self : ScanEventDto τ) :
    (self.map f).map h = self ↔ ∀ t ∈ self.texts, h (f t) = t := by
  cases self <;>
    simp [map, texts, TransactionsReadyDto.map_map_eq_iff, TransactionsUpdatedDto.map_map_eq_iff,
      ReorgDetectedDto.map_map_eq_iff]

theorem SendTransactionEvent.map_map_eq_iff (self : SendTransactionEvent τ) :
    (self.map f).map h = self ↔ ∀ t ∈ self.texts, h (f t) = t := by
  cases self
  simp [map, texts]

theorem SendResultDto.map_map_eq_iff (self : SendResultDto τ) :
    (self.map f).map h = self ↔ ∀ t ∈ self.texts, h (f t) = t := by
  cases self
  simp [map, texts, option_map_eq_self_iff, List.forall_mem_append, DisplayedTransactionDto.map_map_eq_iff,
    -List.mem_append]

theorem TipInfo.map_map_eq_iff (self : TipInfo τ) :
    (self.map f).map h = self ↔ ∀ t ∈ self.texts, h (f t) = t := by
  cases self
  simp [map, texts]

theorem WalletCreationDetails.map_map_eq_iff (self : WalletCreationDetails τ) :
    (self.map f).map h = self ↔ ∀ t ∈ self.texts, h (f t) = t := by
  cases self
  simp [map, texts]

theorem Reply.map_map_eq_iff (self : Reply τ) : (self.map f).map h = self ↔ ∀ t ∈ self.texts, h (f t) = t := by
  cases self <;>
    simp [map, texts, option_map_eq_self_iff, list_map_eq_self_iff, List.forall_mem_flatMap,
      ScanHandle.map_map_eq_iff, WalletCreationDetails.map_map_eq_iff, TipInfo.map_map_eq_iff,
      DisplayedTransactionDto.map_map_eq_iff, LoggerConfig.map_map_eq_iff, SendResultDto.map_map_eq_iff,
      -List.mem_flatMap]

end

/-! ## What a call of Dart becomes -/

section

variable {b : Buffer}

/-- A call made of texts Rust handed out arrives as itself, unless a text in it starts with a byte-order mark. -/
theorem dispatch_echo_iff {call : ApiCall String}
    (hlimit : (Dart.callFfi b (call.map DartString.ofRust)).bytes.length < messageLimit) :
    Rust.dispatch b (Dart.callFfi b (call.map DartString.ofRust)) = some call ↔
      ∀ text ∈ call.texts, text.toList.head? ≠ some byteOrderMark := by
  rw [dispatch_callFfi hlimit, Option.some_inj, ApiCall.map_map_eq_iff]
  constructor
  · intro h text htext
    exact (DartString.toRust_ofRust_iff text).mp (h text htext)
  · intro h text htext
    exact (DartString.toRust_ofRust_iff text).mpr (h text htext)

/-- The name of a wallet that Rust listed as `\uFEFFw` does not come back. -/
theorem dispatch_echo_iff_byteOrderMark :
    Rust.dispatch (Buffer.native .little) (Dart.callFfi (Buffer.native .little)
      ((ApiCall.lockWallet (String.ofList [byteOrderMark, 'w'])).map DartString.ofRust)) ≠
        some (.lockWallet (String.ofList [byteOrderMark, 'w'])) := by
  have hname : DartString.ofRust (String.ofList [byteOrderMark, 'w']) = [0x77] := by
    rw [DartString.ofRust, String.toList_ofList]
    decide
  intro h
  have hecho := (dispatch_echo_iff (by
    rw [ApiCall.map, hname]
    decide)).mp h _ List.mem_cons_self
  rw [String.toList_ofList] at hecho
  exact hecho rfl

/-- No two calls without broken surrogates are one message. -/
theorem eq_of_callFfi_eq {c d : ApiCall DartString} (hlimit : (Dart.callFfi b c).bytes.length < messageLimit)
    (hc : ∀ text ∈ c.texts, Utf16.wellFormed text = true) (hd : ∀ text ∈ d.texts, Utf16.wellFormed text = true)
    (h : Dart.callFfi b c = Dart.callFfi b d) : c = d := by
  -- a text without broken surrogates can be made again from what arrives for it
  have hback : ∀ call : ApiCall DartString, (∀ text ∈ call.texts, Utf16.wellFormed text = true) →
      (call.map DartString.toRust).map (fun text => Utf16.encode text.toList) = call := by
    intro call hwell
    rw [ApiCall.map_map_eq_iff]
    intro text htext
    rw [DartString.toRust, String.toList_ofList]
    exact Utf16.encode_decode text (hwell text htext)
  have hsame : c.map DartString.toRust = d.map DartString.toRust := by
    have hc_arrives := dispatch_callFfi hlimit
    rw [h] at hlimit hc_arrives
    rw [dispatch_callFfi hlimit] at hc_arrives
    exact (Option.some.inj hc_arrives).symm
  rw [← hback c hc, hsame, hback d hd]

/-- A message of `lock_wallet` names one wallet. -/
theorem eq_of_callFfi_eq_lockWallet :
    (ApiCall.lockWallet [0x77] : ApiCall DartString) = .lockWallet [0x77] :=
  eq_of_callFfi_eq (b := Buffer.native .big) (by decide) (by decide) (by decide) rfl

end

end CwTariWallet.FrbGenerated
