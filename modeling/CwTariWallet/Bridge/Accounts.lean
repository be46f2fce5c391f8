/-
# CwTariWallet.Bridge.Accounts -- new accounts, and a wallet's address

`create_wallet`, `restore_wallet`, `import_view_only_wallet` and `import_wallet_from_keys` add an account
to the file of `get_db_path`; they differ in what they work out before and after.  `get_address` is the
shortest of the calls that read a wallet's keys through its session: it passes an empty passphrase, and
minotari falls back to decrypting with that when there is no session.
-/
import CwTariWallet.Bridge.Shared

namespace CwTariWallet

/-- `apply_network`. -/
def Shared.applyNetwork (σ : Shared) (network : Network) : Except BridgeError Unit × Shared :=
  match σ.network.setIfChoiceValid network with
  | .error text => (.error (.upstream text), σ)
  | .ok set => (.ok (), { σ with network := set })

/-! ## New accounts -/

/-- What a new account is made from. -/
inductive AccountSource where
  /-- `create_wallet`: a random seed. -/
  | randomSeed
  /-- `restore_wallet`: seed words. -/
  | seedWords
  /-- `import_view_only_wallet`. -/
  | viewKey
  /-- `import_wallet_from_keys`. -/
  | keys
  deriving DecidableEq, Repr

/-- Where a call that adds an account stands. -/
inductive CreateAt where
  | network
  /-- `restore_wallet`: about to parse the seed words. -/
  | parse
  | dbPath
  /-- About to derive the details from the seed. -/
  | details (file : PathBuf)
  /-- About to call minotari's `init_with_*`. -/
  | init (file : PathBuf)
  /-- `import_view_only_wallet`: about to parse the keys for the details. -/
  | finish
  | returned (r : Except BridgeError Unit)
  deriving DecidableEq, Repr

structure CreateWallet where
  walletName : WalletName
  network : Option Network
  passphrase : Passphrase
  source : AccountSource
  pos : CreateAt
  deriving DecidableEq, Repr

namespace CreateWallet

def goto (c : CreateWallet) (pos : CreateAt) : CreateWallet := { c with pos := pos }

/-- The error of a failed `init_with_*`. -/
def initError (source : AccountSource) (text : String) : BridgeError :=
  match source with
  | .randomSeed | .seedWords => .context "Failed to init wallet" [text]
  | .viewKey => .context "Failed to init view-only wallet" [text]
  | .keys => .wallet (.wallet ("Failed to import wallet from keys: " ++ text))

def next (ch : Choice) (σ : Shared) (c : CreateWallet) : Option (CreateWallet × Shared) :=
  match c.pos with
  | .network =>
    match σ.applyNetwork (parseNetwork c.network) with
    | (.error e, σ) => some (c.goto (.returned (.error e)), σ)
    | (.ok (), σ) =>
      some (c.goto (match c.source with
        | .seedWords => .parse
        | _ => .dbPath), σ)
  | .parse =>
    match ch.upstream with
    | some text => some (c.goto (.returned (.error (.context text ch.causes))), σ)
    | none => some (c.goto .dbPath, σ)
  | .dbPath =>
    match σ.db.getDbPath with
    | .error e => some (c.goto (.returned (.error e)), σ)
    | .ok file =>
      some (c.goto (match c.source with
        | .randomSeed | .seedWords => .details file
        | .viewKey | .keys => .init file), σ)
  | .details file =>
    match ch.upstream with
    | some text => some (c.goto (.returned (.error (.upstream text))), σ)
    | none => some (c.goto (.init file), σ)
  | .init file =>
    match ch.upstream with
    | some text => some (c.goto (.returned (.error (initError c.source text))), σ)
    | none =>
      -- A file has one account of a name.
      if ((σ.files file).getAccountByName c.walletName).isSome then none
      else
        some (c.goto (match c.source with
            | .viewKey => .finish
            | _ => .returned (.ok ())),
          σ.setFile file
            ((σ.files file).addAccount c.walletName c.passphrase (decide (c.source = .viewKey))))
  | .finish =>
    match ch.upstream with
    | some text => some (c.goto (.returned (.error (.upstream text))), σ)
    | none => some (c.goto (.returned (.ok ())), σ)
  | .returned _ => none

end CreateWallet

/-! ## `get_address` -/

/-- Where a `get_address` call stands. -/
inductive AddressAt where
  | network
  | conn
  /-- `unlocked_account`: about to read the account row. -/
  | account (file : PathBuf)
  /-- `unlocked_account`: about to ask `is_unlocked`. -/
  | check (file : PathBuf)
  /-- `with_session`: about to read the address with an empty passphrase. -/
  | read (file : PathBuf)
  /-- `with_session`: about to ask `is_unlocked` again. -/
  | checkAgain (file : PathBuf) (address : Except BridgeError String)
  | returned (r : Except BridgeError String)
  deriving DecidableEq, Repr

/-- A `get_address` call.  `live` is history: whether the session was live when the keys were read. -/
structure GetAddress where
  walletName : WalletName
  network : Option Network
  pos : AddressAt
  live : Option Bool := none
  deriving DecidableEq, Repr

namespace GetAddress

def goto (a : GetAddress) (pos : AddressAt) : GetAddress := { a with pos := pos }

def next (ch : Choice) (σ : Shared) (a : GetAddress) : Option (GetAddress × Shared) :=
  match a.pos with
  | .network =>
    match σ.applyNetwork (parseNetwork a.network) with
    | (.error e, σ) => some (a.goto (.returned (.error e)), σ)
    | (.ok (), σ) => some (a.goto .conn, σ)
  | .conn =>
    match σ.getDbConnection ch with
    | .error e => some (a.goto (.returned (.error e)), σ)
    | .ok file => some (a.goto (.account file), σ)
  | .account file =>
    match ch.dbError with
    | some e => some (a.goto (.returned (.error (.wallet (.database e.text)))), σ)
    | none =>
      match (σ.files file).getAccountByName a.walletName with
      | none => some (a.goto (.returned (.error (.wallet .noAccounts))), σ)
      | some _ => some (a.goto (.check file), σ)
  | .check file =>
    match σ.isUnlocked file a.walletName ch with
    | .error e => some (a.goto (.returned (.error (.wallet (.database e.text)))), σ)
    | .ok false => some (a.goto (.returned (.error (.wallet .locked))), σ)
    | .ok true => some (a.goto (.read file), σ)
  | .read file =>
    -- Without a session minotari falls back to decrypting with the empty passphrase.
    let address : Except BridgeError String := match ch.upstream with
      | some text => .error (.upstream text)
      | none => .ok ch.address
    some ({ a with pos := .checkAgain file address, live := some (σ.keys a.walletName).isSome }, σ)
  | .checkAgain file address =>
    match σ.isUnlocked file a.walletName ch with
    | .error e => some (a.goto (.returned (.error (.wallet (.database e.text)))), σ)
    | .ok false => some (a.goto (.returned (.error (.wallet .locked))), σ)
    | .ok true => some (a.goto (.returned address), σ)
  | .returned _ => none

end GetAddress

end CwTariWallet
