/-
# CwTariWallet.Api.WalletBackup -- a wallet comes back from what its creation returned

`create_wallet` and `restore_wallet` hand the caller the wallet's seed words, one by one; `restore_wallet` takes
them back, joined with spaces.  Its view key and spend key come back as hex, and `import_view_only_wallet` takes
them.  Whatever of the mnemonic and the hex codecs the crates promise (`Crates.RoundTrips`), nothing is lost on
this side of them: the words restore the seed that was written, with the details that were returned, and the
keys import them without the words (`creation_comesBack`).
-/
import CwTariWallet.Api.WalletCreation
import Mathlib.Data.String.Basic

namespace CwTariWallet

open CommitPoint

/-! ## Words -/

/-- Splitting takes apart what joining put together, where no word is empty or holds a separator. -/
theorem filter_splitOnP_intercalate {α : Type} [DecidableEq α] {p : α → Bool} {sep : α} (hsep : p sep = true)
    {words : List (List α)} (hwords : ∀ word ∈ words, word ≠ [] ∧ ∀ c ∈ word, p c = false) :
    ((([sep].intercalate words).splitOnP p).filter fun word => decide (word ≠ [])) = words := by
  induction words with
  | nil => rfl
  | cons word rest ih =>
    obtain ⟨hne, hclean⟩ := hwords word List.mem_cons_self
    have hrest := ih fun other hother => hwords other (List.mem_cons_of_mem word hother)
    cases rest with
    | nil =>
      rw [List.intercalate_singleton, List.splitOnP_eq_singleton hclean]
      simp [hne]
    | cons next others =>
      rw [List.intercalate_cons_cons, List.append_assoc, List.singleton_append,
        List.splitOnP_append_cons_of_forall_mem hclean sep hsep, List.filter_cons_of_pos (by simpa using hne),
        hrest]

/-- A word as a mnemonic has it. -/
def IsWord (word : String) : Prop := word ≠ "" ∧ ∀ c ∈ word.toList, isWhitespace c = false

instance (word : String) : Decidable (IsWord word) :=
  have := List.decidableBAll (fun c => isWhitespace c = false) word.toList
  inferInstanceAs (Decidable (word ≠ "" ∧ ∀ c ∈ word.toList, isWhitespace c = false))

theorem splitHiddenWords_intercalate {words : List String} (hwords : ∀ word ∈ words, IsWord word) :
    splitHiddenWords (" ".intercalate words) = words := by
  have hlists : ∀ word ∈ words.map String.toList, word ≠ [] ∧ ∀ c ∈ word, isWhitespace c = false := by
    intro word hword
    obtain ⟨text, htext, rfl⟩ := List.mem_map.mp hword
    obtain ⟨hne, hclean⟩ := hwords text htext
    exact ⟨fun h => hne (String.toList_eq_nil_iff.mp h), hclean⟩
  have hsplit := filter_splitOnP_intercalate (by decide : isWhitespace ' ' = true) hlists
  have hnonempty : ((fun word => decide (word ≠ "")) ∘ String.ofList) = fun word => decide (word ≠ []) := by
    funext word
    simp
  unfold splitHiddenWords
  rw [String.splitToList_of_valid, String.toList_intercalate, List.filter_map, hnonempty]
  show List.map String.ofList (List.filter _ (List.splitOnP _ (List.intercalate [' '] _))) = words
  rw [hsplit, List.map_map]
  exact (List.map_congr_left fun word _ => String.ofList_toList).trans (List.map_id words)

/-! ## What the crates promise -/

/-- Mnemonics and hex come back as they went. -/
structure Crates.RoundTrips (crates : Crates) : Prop where
  /-- A mnemonic is words with one space between them. -/
  words : ∀ {seed text}, crates.toMnemonic seed = .ok text →
    ∃ words, text = " ".intercalate words ∧ ∀ word ∈ words, IsWord word
  seeds : ∀ {seed text}, crates.toMnemonic seed = .ok text → ∃ mnemonic,
    crates.seedWordsFromStr text = .ok mnemonic ∧ crates.cipherSeedFromMnemonic mnemonic = .ok seed
  privateKeys : ∀ key, crates.privateKeyFromHex (crates.privateKeyToHex key) = .ok key
  publicKeys : ∀ key, crates.publicKeyFromHex (crates.publicKeyToHex key) = .ok key

/-! ## The writes alone -/

section

variable (crates : Crates) (db : DbState) (walletName : WalletName) (passphrase : Passphrase)
  (network : Option Network) (details : WalletCreationDetails)

/-- `seed` written under the name, with nothing left to work out. -/
def writeSeed (seed : crates.CipherSeed) : Creation WalletCreationDetails := do
  applyNetwork crates (parseNetwork network)
  let dbPath ← attempt db.getDbPath
  initWith (crates.initWithSeedWords · seed passphrase walletName) dbPath walletName passphrase false
    fun _ => .context "Failed to init wallet"
  return details

/-- The keys of `details` written under the name, with nothing left to work out. -/
def writeViewKey : Creation WalletCreationDetails := do
  applyNetwork crates (parseNetwork network)
  let dbPath ← attempt db.getDbPath
  initWith (crates.initWithViewKey · details.viewPrivateKeyHex details.spendPublicKeyHex passphrase
    details.walletBirthday walletName) dbPath walletName passphrase true
      fun _ => .context "Failed to init view-only wallet"
  return { details with seedWords := none }

end

namespace CreationRequest

def network : CreationRequest → Option Network
  | createWallet _ network _ => network
  | restoreWallet _ _ _ network => network
  | importViewOnlyWallet _ _ _ _ _ network => network
  | importWalletFromKeys _ _ _ _ _ network => network

def passphrase : CreationRequest → Passphrase
  | createWallet _ _ passphrase => passphrase
  | restoreWallet _ _ passphrase _ => passphrase
  | importViewOnlyWallet _ _ _ _ passphrase _ => passphrase
  | importWalletFromKeys _ _ _ _ passphrase _ => passphrase

/-- Whether minotari works out the details. -/
def fromKeys : CreationRequest → Bool
  | importWalletFromKeys .. => true
  | _ => false

end CreationRequest

section

variable {crates : Crates} {db : DbState} {details : WalletCreationDetails} {files files' : Files}

theorem attempt_ok_bind {α β : Type} (a : α) (f : α → Creation β) :
    ((attempt (.ok a) : Creation α) >>= f) = f a := rfl

/-- Details that were built can be built again from the keys they show. -/
theorem viewOnlyDetails_of_built (hcrates : crates.RoundTrips) {spendKey : crates.CompressedPublicKey}
    {viewKey : crates.PrivateKey} {birthday : UInt16} {network : Network} {words : Option SensitiveSeeds}
    (h : buildCreationDetails crates spendKey viewKey birthday network words = .ok details) :
    viewOnlyDetails crates details.viewPrivateKeyHex details.spendPublicKeyHex details.walletBirthday network =
      .ok { details with seedWords := none } := by
  unfold buildCreationDetails constructWalletAddressDetails at h
  cases haddress : crates.newDualAddress (crates.fromSecretKey viewKey) spendKey network with
  | error text =>
    rw [haddress] at h
    cases h
  | ok address =>
    rw [haddress] at h
    cases h
    unfold viewOnlyDetails buildCreationDetails constructWalletAddressDetails
    rw [hcrates.privateKeys, hcrates.publicKeys]
    dsimp only
    rw [haddress]

/-- What was worked out from a seed shows the words of its mnemonic. -/
theorem generateDetails_shows {seed : crates.CipherSeed} {network : Network}
    (h : generateDetailsFromSeed crates seed network = .ok details) : ∃ text, crates.toMnemonic seed = .ok text ∧
      details.seedWords = some ⟨splitHiddenWords text⟩ ∧ ∃ spendKey viewKey birthday words,
        buildCreationDetails crates spendKey viewKey birthday network words = .ok details := by
  unfold generateDetailsFromSeed at h
  cases hkeys : keyManagerFromCipherSeed crates seed with
  | error e =>
    rw [hkeys] at h
    cases h
  | ok keyManager =>
    rw [hkeys] at h
    cases htext : crates.toMnemonic seed with
    | error e =>
      rw [htext] at h
      cases h
    | ok text =>
      rw [htext] at h
      refine ⟨text, rfl, ?_, _, _, _, _, h⟩
      unfold buildCreationDetails at h
      dsimp only at h
      split at h <;> cases h
      rfl

/-- The words shown are the mnemonic again once joined, and the seed comes of them. -/
theorem seed_of_shown (hcrates : crates.RoundTrips) {seed : crates.CipherSeed} {text : String}
    (h : crates.toMnemonic seed = .ok text) : ∃ mnemonic,
      crates.seedWordsFromStr (" ".intercalate (splitHiddenWords text)) = .ok mnemonic ∧
        crates.cipherSeedFromMnemonic mnemonic = .ok seed := by
  obtain ⟨words, rfl, hwords⟩ := hcrates.words h
  rw [splitHiddenWords_intercalate hwords]
  exact hcrates.seeds h

variable {walletName : WalletName} {passphrase : Passphrase} {network : Option Network}

/-- Restoring from the words shown for a seed writes that seed. -/
theorem restoreWallet_of_shown (hcrates : crates.RoundTrips) {seed : crates.CipherSeed} {shown : SensitiveSeeds}
    (h : generateDetailsFromSeed crates seed (parseNetwork network) = .ok details)
    (hshown : details.seedWords = some shown) :
    restoreWallet crates db walletName shown.words passphrase network =
      writeSeed crates db walletName passphrase network details seed := by
  obtain ⟨text, htext, hwords, -⟩ := generateDetails_shows h
  obtain rfl : shown = ⟨splitHiddenWords text⟩ := Option.some.inj (hshown.symm.trans hwords)
  obtain ⟨mnemonic, hmnemonic, hseed⟩ := seed_of_shown hcrates htext
  unfold restoreWallet writeSeed
  rw [hmnemonic]
  simp only [Except.mapError, attempt_ok_bind]
  rw [hseed]
  simp only [attempt_ok_bind, h]

/-- Importing the keys shown writes them. -/
theorem importViewOnlyWallet_of_shown
    (h : viewOnlyDetails crates details.viewPrivateKeyHex details.spendPublicKeyHex details.walletBirthday
      (parseNetwork network) = .ok { details with seedWords := none }) :
    importViewOnlyWallet crates db walletName details.viewPrivateKeyHex details.spendPublicKeyHex
        details.walletBirthday passphrase network =
      writeViewKey crates db walletName passphrase network details := by
  unfold importViewOnlyWallet writeViewKey
  dsimp only
  rw [h]
  rfl

/-- A step that only computes leaves the files alone. -/
theorem exec_attempt_bind_eq_ok {α β : Type} {r : Except BridgeError α} {f : α → Creation β} {b : β}
    (h : exec (attempt r >>= f) files = (.ok b, files')) :
    ∃ a, r = .ok a ∧ exec (f a) files = (.ok b, files') := by
  rw [exec_bind, exec_attempt] at h
  cases r with
  | error e => cases h
  | ok a => exact ⟨a, rfl, h⟩

/-- What is returned behind the last write is what was at hand before it. -/
theorem exec_initWith_return {α β : Type} {x : Creation α} {b b' : β}
    (h : exec (x >>= fun _ => pure b) files = (.ok b', files')) : b = b' := by
  rw [exec_bind] at h
  cases hexec : exec x files with
  | mk r files'' =>
    rw [hexec] at h
    cases r with
    | error e => cases h
    | ok a =>
      cases h
      rfl

theorem createWallet_ok
    (h : exec (createWallet crates db walletName network passphrase) files = (.ok details, files')) :
    generateDetailsFromSeed crates crates.random (parseNetwork network) = .ok details ∧
      exec (writeSeed crates db walletName passphrase network details crates.random) files =
        (.ok details, files') := by
  obtain ⟨u, hnetwork, h⟩ := exec_attempt_bind_eq_ok h
  obtain ⟨dbPath, hpath, h⟩ := exec_attempt_bind_eq_ok h
  obtain ⟨details', hdetails, h⟩ := exec_attempt_bind_eq_ok h
  obtain rfl : details' = details := exec_initWith_return h
  refine ⟨hdetails, ?_⟩
  unfold writeSeed applyNetwork
  rw [hnetwork, hpath]
  exact h

theorem restoreWallet_ok {seedWords : List String}
    (h : exec (restoreWallet crates db walletName seedWords passphrase network) files = (.ok details, files')) :
    ∃ seed, generateDetailsFromSeed crates seed (parseNetwork network) = .ok details ∧
      exec (writeSeed crates db walletName passphrase network details seed) files = (.ok details, files') := by
  obtain ⟨u, hnetwork, h⟩ := exec_attempt_bind_eq_ok h
  obtain ⟨mnemonic, -, h⟩ := exec_attempt_bind_eq_ok h
  obtain ⟨seed, -, h⟩ := exec_attempt_bind_eq_ok h
  obtain ⟨dbPath, hpath, h⟩ := exec_attempt_bind_eq_ok h
  obtain ⟨details', hdetails, h⟩ := exec_attempt_bind_eq_ok h
  obtain rfl : details' = details := exec_initWith_return h
  refine ⟨seed, hdetails, ?_⟩
  unfold writeSeed applyNetwork
  rw [hnetwork, hpath]
  exact h

theorem importViewOnlyWallet_ok {viewHex spendHex : String} {birthday : UInt16}
    (h : exec (importViewOnlyWallet crates db walletName viewHex spendHex birthday passphrase network) files =
      (.ok details, files')) : ∃ spendKey viewKey,
        buildCreationDetails crates spendKey viewKey birthday (parseNetwork network) none = .ok details := by
  obtain ⟨u, -, h⟩ := exec_attempt_bind_eq_ok h
  obtain ⟨dbPath, -, h⟩ := exec_attempt_bind_eq_ok h
  rw [exec_bind] at h
  split at h
  · cases h
  · rw [exec_attempt] at h
    have hdetails := (Prod.mk.inj h).1
    unfold viewOnlyDetails at hdetails
    split at hdetails
    · cases hdetails
    · split at hdetails
      · cases hdetails
      · exact ⟨_, _, hdetails⟩

/-- Whatever wallet was made, what its creation returned brings it back.  The seed words restore the seed that
was written: short of the network, the path and minotari's own write nothing can fail, and the details are the
same.  The keys, unless minotari worked them out itself, import it in the same way, without the words. -/
theorem creation_comesBack (hcrates : crates.RoundTrips) (request : CreationRequest)
    (h : exec (request.run crates db) files = (.ok details, files')) :
    (∀ shown, details.seedWords = some shown → ∃ seed,
      exec (writeSeed crates db request.walletName request.passphrase request.network details seed) files =
          (.ok details, files') ∧
        ∀ db' walletName passphrase,
          restoreWallet crates db' walletName shown.words passphrase request.network =
            writeSeed crates db' walletName passphrase request.network details seed) ∧
      (request.fromKeys = false → ∀ db' walletName passphrase,
        importViewOnlyWallet crates db' walletName details.viewPrivateKeyHex details.spendPublicKeyHex
            details.walletBirthday passphrase request.network =
          writeViewKey crates db' walletName passphrase request.network details) := by
  cases request with
  | createWallet walletName network passphrase =>
    obtain ⟨hdetails, hwrites⟩ := createWallet_ok h
    refine ⟨fun shown hshown => ⟨_, hwrites, fun db' name pass => ?_⟩, fun _ db' name pass => ?_⟩
    · exact restoreWallet_of_shown hcrates hdetails hshown
    · obtain ⟨text, -, -, spendKey, viewKey, birthday, words, hbuilt⟩ := generateDetails_shows hdetails
      exact importViewOnlyWallet_of_shown (viewOnlyDetails_of_built hcrates hbuilt)
  | restoreWallet walletName seedWords passphrase network =>
    obtain ⟨seed, hdetails, hwrites⟩ := restoreWallet_ok h
    refine ⟨fun shown hshown => ⟨seed, hwrites, fun db' name pass => ?_⟩, fun _ db' name pass => ?_⟩
    · exact restoreWallet_of_shown hcrates hdetails hshown
    · obtain ⟨text, -, -, spendKey, viewKey, birthday, words, hbuilt⟩ := generateDetails_shows hdetails
      exact importViewOnlyWallet_of_shown (viewOnlyDetails_of_built hcrates hbuilt)
  | importViewOnlyWallet walletName viewHex spendHex birthday passphrase network =>
    obtain ⟨spendKey, viewKey, hbuilt⟩ := importViewOnlyWallet_ok h
    refine ⟨fun shown hshown => ?_, fun _ db' name pass => ?_⟩
    · -- a view-only wallet shows no words
      unfold buildCreationDetails at hbuilt
      split at hbuilt <;> cases hbuilt
      cases hshown
    · exact importViewOnlyWallet_of_shown (viewOnlyDetails_of_built hcrates hbuilt)
  | importWalletFromKeys walletName viewHex spendHex birthday passphrase network =>
    refine ⟨fun shown hshown => ?_, fun hkeys => ?_⟩
    · obtain ⟨u, -, h⟩ := exec_attempt_bind_eq_ok h
      obtain ⟨dbPath, -, h⟩ := exec_attempt_bind_eq_ok h
      rw [exec_bind] at h
      split at h <;> cases h
      cases hshown
    · cases hkeys

end

/-! ### One wallet -/

def oneWalletWords : List String :=
  ["void", "come", "effort", "suffer", "camp", "survey", "warrior", "heavy", "shoot", "primary", "clutch",
    "crush", "open", "amazing", "screen", "patrol", "group", "space", "point", "ten", "exist", "slush",
    "involve", "unfold"]

/-- The view key 7. -/
def oneWalletViewKey : String := "0700000000000000000000000000000000000000000000000000000000000000"

/-- The point of the spend key 11. -/
def oneWalletSpendKey : String := "bce83f8ba5dd2fa572864c24ba1810f9522bc6004afe95877ac73241cafdab42"

def oneWalletDetails : WalletCreationDetails where
  tariAddress := "1275wmA8j3bwNkY4hWGyjkq3ccB2EDZC4DEApYn1MP3B6Ds6jFLC61ZBt4DpYEXHBcY661rKwMfXb91F6RbUMZgvaWV"
  walletBirthday := 1500
  spendPublicKeyHex := oneWalletSpendKey
  viewPrivateKeyHex := oneWalletViewKey
  seedWords := some ⟨oneWalletWords⟩

/-- Crates with one wallet in them. -/
def oneWallet : Crates := { strictCrates with
  birthday := fun _ => oneWalletDetails.walletBirthday
  seedWordsFromStr := fun text =>
    if text = " ".intercalate oneWalletWords then .ok () else .error "Invalid mnemonic"
  toMnemonic := fun _ => .ok (" ".intercalate oneWalletWords)
  privateKeyFromHex := fun hex => if hex = oneWalletViewKey then .ok () else .error "Invalid hex"
  publicKeyFromHex := fun hex => if hex = oneWalletSpendKey then .ok () else .error "Invalid hex"
  toBase58 := fun _ => oneWalletDetails.tariAddress
  privateKeyToHex := fun _ => oneWalletViewKey
  publicKeyToHex := fun _ => oneWalletSpendKey }

theorem oneWallet_words : ∀ word ∈ oneWalletWords, IsWord word := by decide

theorem oneWallet_roundTrips : oneWallet.RoundTrips where
  words h := by
    cases h
    exact ⟨oneWalletWords, rfl, oneWallet_words⟩
  seeds h := by
    cases h
    exact ⟨(), by simp [oneWallet], rfl⟩
  privateKeys _ := by
    simp only [oneWallet, if_true]
    rfl
  publicKeys _ := by
    simp only [oneWallet, if_true]
    rfl

/-- A wallet is created in an empty file, and comes back under another name and passphrase, from its words and
from its keys. -/
theorem creation_comesBack_oneWallet :
    (∃ seed, restoreWallet oneWallet DbState.initial "again" oneWalletWords "other" none =
      writeSeed oneWallet DbState.initial "again" "other" none oneWalletDetails seed) ∧
    importViewOnlyWallet oneWallet DbState.initial "watch" oneWalletViewKey oneWalletSpendKey 1500 "other" none =
      writeViewKey oneWallet DbState.initial "watch" "other" none oneWalletDetails := by
  let files : Files := fun _ => ⟨[], 0, fun _ => none, fun _ => none⟩
  have hshown : splitHiddenWords (" ".intercalate oneWalletWords) = oneWalletWords :=
    splitHiddenWords_intercalate oneWallet_words
  have hcreated : ∃ files', exec (CreationRequest.run oneWallet
      { DbState.initial with path := some ⟨["wallet.db"]⟩ } (.createWallet "main" none "secret")) files =
        (.ok oneWalletDetails, files') := by
    rw [oneWalletDetails, ← hshown]
    exact ⟨_, rfl⟩
  obtain ⟨files', hcreated⟩ := hcreated
  obtain ⟨hwords, hkeys⟩ := creation_comesBack oneWallet_roundTrips _ hcreated
  obtain ⟨seed, -, hrestored⟩ := hwords _ rfl
  exact ⟨⟨seed, hrestored _ _ _⟩, hkeys rfl _ _ _⟩

end CwTariWallet
