/-
# CwTariWallet.Api.WalletCreation -- wallets created, restored and imported

The four entry points of `src/api/wallet.rs` that add an account, with the address construction of
`src/domain/address.rs` and the key derivation of `src/domain/keys.rs`.  Seeds, keys and addresses belong
to the crates behind them (`Crates`); `init_with_*` adds the account it is given, or fails and adds none.
Three of the entry points have everything they return in hand before that write.  `import_view_only_wallet`
parses the keys and builds the address behind it, so a wallet can be there that the caller was told is not
(`creation_allOrNothing_iff`).
-/
import CwTariWallet.Api.Db
import CwTariWallet.Api.LogText
import CwTariWallet.CommitPoint
import CwTariWallet.Domain.Validation

namespace CwTariWallet

open CommitPoint

/-! ## What other crates do -/

/-- The seeds, keys and addresses of the Tari crates, and what those and minotari make of their arguments;
an error is its text. -/
structure Crates where
  CipherSeed : Type
  SeedWords : Type
  SeedWordsWallet : Type
  KeyManager : Type
  PrivateKey : Type
  CompressedPublicKey : Type
  Address : Type
  setNetworkIfChoiceValid : Network → Except String Unit
  random : CipherSeed
  seedWordsFromStr : String → Except String SeedWords
  cipherSeedFromMnemonic : SeedWords → Except String CipherSeed
  birthday : CipherSeed → UInt16
  /-- `to_mnemonic`, joined with spaces. -/
  toMnemonic : CipherSeed → Except String String
  constructNew : CipherSeed → Except String SeedWordsWallet
  keyManagerNew : SeedWordsWallet → Except String KeyManager
  privateViewKey : KeyManager → PrivateKey
  spendPubKey : KeyManager → CompressedPublicKey
  privateKeyFromHex : String → Except String PrivateKey
  publicKeyFromHex : String → Except String CompressedPublicKey
  fromSecretKey : PrivateKey → CompressedPublicKey
  newDualAddress : CompressedPublicKey → CompressedPublicKey → Network → Except String Address
  toBase58 : Address → String
  publicSpendKey : Address → CompressedPublicKey
  privateKeyToHex : PrivateKey → String
  publicKeyToHex : CompressedPublicKey → String
  initWithSeedWords : WalletDatabase → CipherSeed → Passphrase → WalletName → Except String Unit
  initWithViewKey : WalletDatabase → String → String → Passphrase → UInt16 → WalletName → Except String Unit
  initWithSpendAndViewKeys :
    WalletDatabase → String → String → Passphrase → UInt16 → Network → WalletName → Except String Address

/-! ## Address and keys -/

/-- `SensitiveSeeds`. -/
structure SensitiveSeeds where
  words : List String
  deriving DecidableEq, Repr

/-- `WalletCreationDetails`. -/
structure WalletCreationDetails where
  tariAddress : String
  walletBirthday : UInt16
  spendPublicKeyHex : String
  viewPrivateKeyHex : String
  seedWords : Option SensitiveSeeds
  deriving DecidableEq, Repr

/-- `WalletAddressDetails`. -/
structure WalletAddressDetails where
  tariAddress : String
  spendPublicKeyHex : String
  viewPrivateKeyHex : String
  deriving DecidableEq, Repr

/-- `split_hidden_words`. -/
def splitHiddenWords (words : String) : List String :=
  (words.splitToList isWhitespace).filter fun word => decide (word ≠ "")

section

variable (crates : Crates)

/-- `construct_wallet_address_details`. -/
def constructWalletAddressDetails (publicSpendKey : crates.CompressedPublicKey)
    (privateViewKey : crates.PrivateKey) (network : Network) : Except WalletError WalletAddressDetails :=
  match crates.newDualAddress (crates.fromSecretKey privateViewKey) publicSpendKey network with
  | .error _ => .error (.internal "Failed to generate Tari address")
  | .ok address =>
    .ok ⟨crates.toBase58 address, crates.publicKeyToHex publicSpendKey, crates.privateKeyToHex privateViewKey⟩

/-- `key_manager_from_cipher_seed`. -/
def keyManagerFromCipherSeed (seed : crates.CipherSeed) : Except WalletError crates.KeyManager :=
  match crates.constructNew seed with
  | .error e => .error (.wallet ("Wallet construction failed: " ++ e))
  | .ok wallet =>
    match crates.keyManagerNew wallet with
    | .error e => .error (.wallet ("Key Manager failed: " ++ e))
    | .ok keyManager => .ok keyManager

/-- `build_creation_details`. -/
def buildCreationDetails (publicSpendKey : crates.CompressedPublicKey) (privateViewKey : crates.PrivateKey)
    (birthday : UInt16) (network : Network) (seedWords : Option SensitiveSeeds) :
    Except BridgeError WalletCreationDetails :=
  match constructWalletAddressDetails crates publicSpendKey privateViewKey network with
  | .error e => .error e
  | .ok address =>
    .ok ⟨address.tariAddress, birthday, address.spendPublicKeyHex, address.viewPrivateKeyHex, seedWords⟩

/-- `generate_details_from_seed`. -/
def generateDetailsFromSeed (seed : crates.CipherSeed) (network : Network) :
    Except BridgeError WalletCreationDetails :=
  match keyManagerFromCipherSeed crates seed with
  | .error e => .error e
  | .ok keyManager =>
    match crates.toMnemonic seed with
    | .error e => .error (.upstream e)
    | .ok mnemonic =>
      buildCreationDetails crates (crates.spendPubKey keyManager) (crates.privateViewKey keyManager)
        (crates.birthday seed) network (some ⟨splitHiddenWords mnemonic⟩)

/-! ## The entry points -/

/-- The database files. -/
abbrev Files := PathBuf → WalletDatabase

abbrev Creation := Fallible Files BridgeError

/-- `apply_network`. -/
def applyNetwork (network : Network) : Creation Unit :=
  attempt ((crates.setNetworkIfChoiceValid network).mapError .upstream)

/-- An `init_with_*` call on the file at `path`: it adds the account, or adds nothing and fails. -/
def initWith {α : Type} (init : WalletDatabase → Except String α) (path : PathBuf) (walletName : WalletName)
    (passphrase : Passphrase) (viewOnly : Bool) (failed : String → BridgeError) : Creation α :=
  ExceptT.mk fun files =>
    match init (files path) with
    | .error text => (.error (failed text), files)
    | .ok a => (.ok a, Function.update files path ((files path).addAccount walletName passphrase viewOnly))

variable (db : DbState)

/-- `create_wallet`. -/
def createWallet (walletName : WalletName) (network : Option Network) (passphrase : Passphrase) :
    Creation WalletCreationDetails := do
  let network := parseNetwork network
  applyNetwork crates network
  let seed := crates.random
  let dbPath ← attempt db.getDbPath
  let details ← attempt (generateDetailsFromSeed crates seed network)
  initWith (crates.initWithSeedWords · seed passphrase walletName) dbPath walletName passphrase false
    fun _ => .context "Failed to init wallet"
  return details

/-- `restore_wallet`. -/
def restoreWallet (walletName : WalletName) (seedWords : List String) (passphrase : Passphrase)
    (network : Option Network) : Creation WalletCreationDetails := do
  let network := parseNetwork network
  applyNetwork crates network
  let mnemonic ← attempt ((crates.seedWordsFromStr (" ".intercalate seedWords)).mapError
    fun _ => BridgeError.context "Invalid seed words")
  let seed ← attempt ((crates.cipherSeedFromMnemonic mnemonic).mapError
    fun _ => BridgeError.context "Invalid cipher seed")
  let dbPath ← attempt db.getDbPath
  let details ← attempt (generateDetailsFromSeed crates seed network)
  initWith (crates.initWithSeedWords · seed passphrase walletName) dbPath walletName passphrase false
    fun _ => .context "Failed to init wallet"
  return details

/-- What `import_view_only_wallet` does once the account is there. -/
def viewOnlyDetails (viewPrivateKeyHex spendPublicKeyHex : String) (birthday : UInt16) (network : Network) :
    Except BridgeError WalletCreationDetails :=
  match crates.privateKeyFromHex viewPrivateKeyHex with
  | .error _ => .error (WalletError.internal "Invalid hex for view key")
  | .ok viewKey =>
    match crates.publicKeyFromHex spendPublicKeyHex with
    | .error _ => .error (WalletError.internal "Invalid hex for spend key")
    | .ok spendKey => buildCreationDetails crates spendKey viewKey birthday network none

/-- `import_view_only_wallet`. -/
def importViewOnlyWallet (walletName : WalletName) (viewPrivateKeyHex spendPublicKeyHex : String)
    (birthday : UInt16) (passphrase : Passphrase) (network : Option Network) :
    Creation WalletCreationDetails := do
  let network := parseNetwork network
  applyNetwork crates network
  let dbPath ← attempt db.getDbPath
  initWith (crates.initWithViewKey · viewPrivateKeyHex spendPublicKeyHex passphrase birthday walletName)
    dbPath walletName passphrase true fun _ => .context "Failed to init view-only wallet"
  attempt (viewOnlyDetails crates viewPrivateKeyHex spendPublicKeyHex birthday network)

/-- `import_wallet_from_keys`. -/
def importWalletFromKeys (walletName : WalletName) (viewPrivateKeyHex spendPrivateKeyHex : String)
    (birthday : UInt16) (passphrase : Passphrase) (network : Option Network) :
    Creation WalletCreationDetails := do
  let network := parseNetwork network
  applyNetwork crates network
  let dbPath ← attempt db.getDbPath
  let address ← initWith (crates.initWithSpendAndViewKeys · viewPrivateKeyHex spendPrivateKeyHex passphrase
    birthday network walletName) dbPath walletName passphrase false
      fun text => WalletError.wallet ("Failed to import wallet from keys: " ++ text)
  return ⟨crates.toBase58 address, birthday, crates.publicKeyToHex (crates.publicSpendKey address),
    viewPrivateKeyHex, none⟩

end

/-- A call of one of the entry points. -/
inductive CreationRequest where
  | createWallet (walletName : WalletName) (network : Option Network) (passphrase : Passphrase)
  | restoreWallet (walletName : WalletName) (seedWords : List String) (passphrase : Passphrase)
      (network : Option Network)
  | importViewOnlyWallet (walletName : WalletName) (viewPrivateKeyHex spendPublicKeyHex : String)
      (birthday : UInt16) (passphrase : Passphrase) (network : Option Network)
  | importWalletFromKeys (walletName : WalletName) (viewPrivateKeyHex spendPrivateKeyHex : String)
      (birthday : UInt16) (passphrase : Passphrase) (network : Option Network)

namespace CreationRequest

def walletName : CreationRequest → WalletName
  | createWallet walletName .. | restoreWallet walletName .. | importViewOnlyWallet walletName ..
  | importWalletFromKeys walletName .. => walletName

/-- The request carried out. -/
def run (crates : Crates) (db : DbState) : CreationRequest → Creation WalletCreationDetails
  | createWallet walletName network passphrase =>
    CwTariWallet.createWallet crates db walletName network passphrase
  | restoreWallet walletName seedWords passphrase network =>
    CwTariWallet.restoreWallet crates db walletName seedWords passphrase network
  | importViewOnlyWallet walletName viewHex spendHex birthday passphrase network =>
    CwTariWallet.importViewOnlyWallet crates db walletName viewHex spendHex birthday passphrase network
  | importWalletFromKeys walletName viewHex spendHex birthday passphrase network =>
    CwTariWallet.importWalletFromKeys crates db walletName viewHex spendHex birthday passphrase network

/-- A view-only import whose keys minotari takes, and the parsers or the address construction here refuse. -/
def RefusedLate (crates : Crates) (db : DbState) (files : Files) : CreationRequest → Prop
  | importViewOnlyWallet walletName viewHex spendHex birthday passphrase network =>
    crates.setNetworkIfChoiceValid (parseNetwork network) = .ok () ∧
      ∃ path, db.getDbPath = .ok path ∧
        crates.initWithViewKey (files path) viewHex spendHex passphrase birthday walletName = .ok () ∧
        ((∃ text, crates.privateKeyFromHex viewHex = .error text) ∨
          (∃ text, crates.publicKeyFromHex spendHex = .error text) ∨
          ∃ viewKey spendKey text, crates.privateKeyFromHex viewHex = .ok viewKey ∧
            crates.publicKeyFromHex spendHex = .ok spendKey ∧
            crates.newDualAddress (crates.fromSecretKey viewKey) spendKey (parseNetwork network) = .error text)
  | _ => False

end CreationRequest

/-! ## All or nothing -/

/-- Exactly one account has been added, and it is named `walletName`. -/
def Added (walletName : WalletName) (files files' : Files) : Prop :=
  ∃ path passphrase viewOnly,
    files' = Function.update files path ((files path).addAccount walletName passphrase viewOnly)

/-- An added account is a change. -/
theorem update_addAccount_ne (files : Files) (path : PathBuf) (walletName : WalletName)
    (passphrase : Passphrase) (viewOnly : Bool) :
    Function.update files path ((files path).addAccount walletName passphrase viewOnly) ≠ files := by
  intro h
  have hpath := congrFun h path
  rw [Function.update_self] at hpath
  have hnext := congrArg WalletDatabase.nextAccountId hpath
  exact Nat.succ_ne_self _ hnext

section

variable {α : Type} {init : WalletDatabase → Except String α} {path : PathBuf} {walletName : WalletName}
  {passphrase : Passphrase} {viewOnly : Bool} {failed : String → BridgeError} {files : Files}

theorem exec_initWith_of_ok {a : α} (h : init (files path) = .ok a) :
    exec (initWith init path walletName passphrase viewOnly failed) files =
      (.ok a, Function.update files path ((files path).addAccount walletName passphrase viewOnly)) := by
  show (match init (files path) with
    | .error text => _
    | .ok a => _) = _
  rw [h]

theorem exec_initWith_of_error {text : String} (h : init (files path) = .error text) :
    exec (initWith init path walletName passphrase viewOnly failed) files = (.error (failed text), files) := by
  show (match init (files path) with
    | .error text => _
    | .ok a => _) = _
  rw [h]

/-- Once the account is written, all is well just if what is left to do succeeds. -/
theorem allOrNothing_initWith {β : Type} {f : α → Creation β} (hf : ∀ a, Keeps (f a)) :
    AllOrNothing (Added walletName) (initWith init path walletName passphrase viewOnly failed >>= f) files ↔
      ∀ a, init (files path) = .ok a →
        ∃ b, (exec (f a)
          (Function.update files path ((files path).addAccount walletName passphrase viewOnly))).1 = .ok b := by
  cases hinit : init (files path) with
  | error text =>
    constructor
    · intro _ a ha
      cases ha
    · intro _
      exact allOrNothing_bind_of_error (exec_initWith_of_error hinit)
  | ok a =>
    rw [allOrNothing_commit (exec_initWith_of_ok hinit) ⟨path, passphrase, viewOnly, rfl⟩
      (update_addAccount_ne files path walletName passphrase viewOnly) (hf a)]
    constructor
    · intro h a' ha'
      cases ha'
      exact h
    · intro h
      exact h a rfl

/-- Where nothing that can fail is left, all is well. -/
theorem allOrNothing_initWith_pure {β : Type} {f : α → β} :
    AllOrNothing (Added walletName)
      (initWith init path walletName passphrase viewOnly failed >>= fun a => pure (f a)) files := by
  rw [allOrNothing_initWith fun a => Keeps.pure (f a)]
  intro a _
  exact ⟨f a, rfl⟩

end

/-- The details of a view-only wallet can be had just if both keys parse and give an address. -/
theorem viewOnlyDetails_eq_ok_iff (crates : Crates) (viewHex spendHex : String) (birthday : UInt16)
    (network : Network) : (∃ details, viewOnlyDetails crates viewHex spendHex birthday network = .ok details) ↔
      ¬ ((∃ text, crates.privateKeyFromHex viewHex = .error text) ∨
        (∃ text, crates.publicKeyFromHex spendHex = .error text) ∨
        ∃ viewKey spendKey text, crates.privateKeyFromHex viewHex = .ok viewKey ∧
          crates.publicKeyFromHex spendHex = .ok spendKey ∧
          crates.newDualAddress (crates.fromSecretKey viewKey) spendKey network = .error text) := by
  unfold viewOnlyDetails buildCreationDetails constructWalletAddressDetails
  cases hview : crates.privateKeyFromHex viewHex with
  | error text => simp
  | ok viewKey =>
    cases hspend : crates.publicKeyFromHex spendHex with
    | error text => simp
    | ok spendKey =>
      cases haddress : crates.newDualAddress (crates.fromSecretKey viewKey) spendKey network with
      | error text => simp [haddress]
      | ok address => simp [haddress]

variable (crates : Crates) (db : DbState) (files : Files)

theorem createWallet_allOrNothing (walletName : WalletName) (network : Option Network)
    (passphrase : Passphrase) :
    AllOrNothing (Added walletName) (createWallet crates db walletName network passphrase) files := by
  apply AllOrNothing.after (Keeps.attempt _)
  intro _
  apply AllOrNothing.after (Keeps.attempt _)
  intro path
  apply AllOrNothing.after (Keeps.attempt _)
  intro details
  exact allOrNothing_initWith_pure

theorem restoreWallet_allOrNothing (walletName : WalletName) (seedWords : List String)
    (passphrase : Passphrase) (network : Option Network) :
    AllOrNothing (Added walletName) (restoreWallet crates db walletName seedWords passphrase network) files := by
  apply AllOrNothing.after (Keeps.attempt _)
  intro _
  apply AllOrNothing.after (Keeps.attempt _)
  intro mnemonic
  apply AllOrNothing.after (Keeps.attempt _)
  intro seed
  apply AllOrNothing.after (Keeps.attempt _)
  intro path
  apply AllOrNothing.after (Keeps.attempt _)
  intro details
  exact allOrNothing_initWith_pure

theorem importWalletFromKeys_allOrNothing (walletName : WalletName) (viewHex spendHex : String)
    (birthday : UInt16) (passphrase : Passphrase) (network : Option Network) :
    AllOrNothing (Added walletName)
      (importWalletFromKeys crates db walletName viewHex spendHex birthday passphrase network) files := by
  apply AllOrNothing.after (Keeps.attempt _)
  intro _
  apply AllOrNothing.after (Keeps.attempt _)
  intro path
  exact allOrNothing_initWith_pure

theorem importViewOnlyWallet_allOrNothing_iff (walletName : WalletName) (viewHex spendHex : String)
    (birthday : UInt16) (passphrase : Passphrase) (network : Option Network) :
    AllOrNothing (Added walletName)
        (importViewOnlyWallet crates db walletName viewHex spendHex birthday passphrase network) files ↔
      ¬ (CreationRequest.importViewOnlyWallet walletName viewHex spendHex birthday passphrase
        network).RefusedLate crates db files := by
  unfold importViewOnlyWallet CreationRequest.RefusedLate
  cases hnetwork : crates.setNetworkIfChoiceValid (parseNetwork network) with
  | error text =>
    have hfails : exec (applyNetwork crates (parseNetwork network)) files = (.error (.upstream text), files) := by
      rw [applyNetwork, exec_attempt, hnetwork]
      rfl
    refine iff_of_true (allOrNothing_bind_of_error hfails) ?_
    rintro ⟨hok, -⟩
    rw [hnetwork] at hok
    cases hok
  | ok u =>
    have hpasses : exec (applyNetwork crates (parseNetwork network)) files = (.ok (), files) := by
      rw [applyNetwork, exec_attempt, hnetwork]
      rfl
    rw [allOrNothing_bind_of_ok hpasses]
    cases hpath : db.getDbPath with
    | error e =>
      refine iff_of_true (allOrNothing_bind_of_error (exec_attempt (.error e) files)) ?_
      rintro ⟨-, path, hok, -⟩
      cases hok
    | ok path =>
      rw [allOrNothing_bind_of_ok (exec_attempt (.ok path) files),
        allOrNothing_initWith fun _ => Keeps.attempt _]
      simp only [exec_attempt, viewOnlyDetails_eq_ok_iff]
      constructor
      · rintro h ⟨-, path', hpath', hinit, hrefused⟩
        obtain rfl : path = path' := by simpa using hpath'
        exact h () hinit hrefused
      · intro h u hinit hrefused
        exact h ⟨hnetwork, path, rfl, hinit, hrefused⟩

/-- An entry point that adds a wallet adds it and returns Ok, or adds none and fails, unless it is a
view-only import of keys that minotari takes and the parsers behind the write do not. -/
theorem creation_allOrNothing_iff (request : CreationRequest) :
    AllOrNothing (Added request.walletName) (request.run crates db) files ↔
      ¬ request.RefusedLate crates db files := by
  cases request with
  | createWallet walletName network passphrase =>
    exact iff_of_true (createWallet_allOrNothing crates db files walletName network passphrase) id
  | restoreWallet walletName seedWords passphrase network =>
    exact iff_of_true (restoreWallet_allOrNothing crates db files walletName seedWords passphrase network) id
  | importViewOnlyWallet walletName viewHex spendHex birthday passphrase network =>
    exact importViewOnlyWallet_allOrNothing_iff crates db files walletName viewHex spendHex birthday passphrase
      network
  | importWalletFromKeys walletName viewHex spendHex birthday passphrase network =>
    exact iff_of_true (importWalletFromKeys_allOrNothing crates db files walletName viewHex spendHex birthday
      passphrase network) id

/-- Crates that take every key for a wallet and parse none. -/
def strictCrates : Crates where
  CipherSeed := Unit
  SeedWords := Unit
  SeedWordsWallet := Unit
  KeyManager := Unit
  PrivateKey := Unit
  CompressedPublicKey := Unit
  Address := Unit
  setNetworkIfChoiceValid _ := .ok ()
  random := ()
  seedWordsFromStr _ := .ok ()
  cipherSeedFromMnemonic _ := .ok ()
  birthday _ := 0
  toMnemonic _ := .ok "abandon"
  constructNew _ := .ok ()
  keyManagerNew _ := .ok ()
  privateViewKey _ := ()
  spendPubKey _ := ()
  privateKeyFromHex _ := .error "Invalid hex"
  publicKeyFromHex _ := .error "Invalid hex"
  fromSecretKey _ := ()
  newDualAddress _ _ _ := .ok ()
  toBase58 _ := "address"
  publicSpendKey _ := ()
  privateKeyToHex _ := "07"
  publicKeyToHex _ := "0b"
  initWithSeedWords _ _ _ _ := .ok ()
  initWithViewKey _ _ _ _ _ _ := .ok ()
  initWithSpendAndViewKeys _ _ _ _ _ _ _ := .ok ()

/-- Then the import fails, and the wallet is there. -/
theorem not_creation_allOrNothing : ¬ ∀ (crates : Crates) (db : DbState) (files : Files)
    (request : CreationRequest), AllOrNothing (Added request.walletName) (request.run crates db) files := by
  intro hall
  have himport := hall strictCrates { DbState.initial with path := some ⟨["wallet.db"]⟩ }
    (fun _ => ⟨[], 0, fun _ => none, fun _ => none⟩) (.importViewOnlyWallet "main" "07" "0b" 0 "secret" none)
  have hkept := himport.1 (WalletError.internal "Invalid hex for view key") rfl
  exact update_addAccount_ne _ _ _ _ _ hkept

end CwTariWallet
