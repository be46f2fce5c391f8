/-
# CwTariWallet.Api.Error -- the crate's error type and what Dart sees of it

`WalletError` reaches Dart only through `anyhow::Error`, and Dart only sees the `Display` string.
An `anyhow::Error` of the bridge is a `WalletError`, a `.context(...)` line, or an upstream error
passed on with its own text.
-/

namespace CwTariWallet

/-- `WalletError`, the crate-internal error type. -/
inductive WalletError where
  | notInitialized
  | noAccounts
  | invalidNetwork (value : String)
  | invalidAddress (details : String)
  | invalidSeedWords (details : String)
  | invalidPassphrase
  | wallet (details : String)
  | signing (details : String)
  | network (details : String)
  | database (details : String)
  | aborted
  | scan (details : String)
  | internal (details : String)
  | locked
  | sameName
  | foregroundScanActive
  deriving DecidableEq, Repr

/-- The `#[error("…")]` strings. -/
def WalletError.display : WalletError → String
  | .notInitialized => "Database is not initialized"
  | .noAccounts => "No accounts found for this wallet"
  | .invalidNetwork value => "Invalid network option: " ++ value
  | .invalidAddress details => "Invalid Recipient Address: " ++ details
  | .invalidSeedWords details => "Invalid Seed Words: " ++ details
  | .invalidPassphrase => "Invalid Passphrase"
  | .wallet details => "Wallet Error: " ++ details
  | .signing details => "Signing Error: " ++ details
  | .network details => "Network Error: " ++ details
  | .database details => "Database Error: " ++ details
  | .aborted => "Aborted by User"
  | .scan details => "Sink error: " ++ details
  | .internal details => details
  | .locked => "Wallet is locked"
  | .sameName => "The new wallet name is the same as the current one"
  | .foregroundScanActive => "A foreground scan of this wallet is already running"

/-- The `anyhow::Error` a bridge function returns.  `causes` are the errors behind it, the nearest first; a
`WalletError` has none. -/
inductive BridgeError where
  | wallet (e : WalletError)
  | context (message : String) (causes : List String := [])
  | upstream (text : String) (causes : List String := [])
  deriving DecidableEq, Repr

/-- `Display`. -/
def BridgeError.display : BridgeError → String
  | .wallet e => e.display
  | .context message _ => message
  | .upstream text _ => text

def BridgeError.causes : BridgeError → List String
  | .wallet _ => []
  | .context _ causes => causes
  | .upstream _ causes => causes

/-- A cause with its lines indented, numbered when there are several. -/
def indented (number : Option Nat) (cause : String) : String :=
  match number with
  | some n =>
    String.ofList (List.replicate (5 - (toString n).length) ' ') ++ toString n ++ ": " ++
      "\n       ".intercalate (cause.splitOn "\n")
  | none => "    " ++ "\n    ".intercalate (cause.splitOn "\n")

/-- The part of anyhow's `{:?}` below the message. -/
def causedBy : List String → String
  | [] => ""
  | [cause] => "\n\nCaused by:\n" ++ indented none cause
  | causes =>
    "\n\nCaused by:\n" ++ "\n".intercalate (causes.zipIdx.map fun cause => indented (some cause.2) cause.1)

/-- `{:?}`, which is what an error is sent to Dart as. -/
def BridgeError.debug (e : BridgeError) : String := e.display ++ causedBy e.causes

instance : Coe WalletError BridgeError := ⟨.wallet⟩

end CwTariWallet
