/-
# CwTariWallet.Domain.Validation -- what a send accepts

`parse_network`, `validate_recipient`, `validate_recipient_count` and `validate_inputs`.  Parsing a
base58 address is the `tari_common_types` crate's business; here it is a parameter.
-/
import CwTariWallet.Api.Error
import CwTariWallet.Minotari

namespace CwTariWallet

/-- A Tari network. -/
inductive Network where
  | mainNet
  | stageNet
  | nextNet
  | localNet
  | igor
  | esmeralda
  deriving DecidableEq, Repr

/-- `Network`'s `Display`. -/
def Network.display : Network → String
  | .mainNet => "mainnet"
  | .stageNet => "stagenet"
  | .nextNet => "nextnet"
  | .localNet => "localnet"
  | .igor => "igor"
  | .esmeralda => "esmeralda"

/-- A parsed address: the network it carries and its text. -/
structure TariAddress where
  network : Network
  base58 : String
  deriving DecidableEq, Repr

/-- `parse_network`: `None` is MainNet. -/
def parseNetwork (network : Option Network) : Network := network.getD .mainNet

@[simp]
theorem parseNetwork_none : parseNetwork none = .mainNet := rfl

@[simp]
theorem parseNetwork_some (network : Network) : parseNetwork (some network) = network := rfl

/-- One payee of a send; `amount` is in microTari. -/
structure SendRecipient where
  address : String
  amount : UInt64
  paymentId : Option String
  deriving DecidableEq, Repr

/-- Inputs to `send_transaction`. -/
structure MultiSendTransactionDetails where
  network : Option Network
  baseUrl : Option String
  walletName : WalletName
  recipients : List SendRecipient
  sendAll : Bool
  confirmationWindow : Option UInt64
  deriving DecidableEq, Repr

/-- minotari's `Recipient`. -/
structure Recipient where
  address : TariAddress
  amount : UInt64
  paymentId : Option String
  deriving DecidableEq, Repr

/-- Validated, typed inputs for building a transaction. -/
structure ValidatedInputs where
  network : Network
  recipients : List Recipient
  confirmations : UInt64
  deriving DecidableEq, Repr

/-- `DEFAULT_CONFIRMATION_WINDOW`. -/
def defaultConfirmationWindow : UInt64 := 3

/-- `DEFAULT_BASE_URL`. -/
def defaultBaseUrl : String := "https://rpc.tari.com"

section

variable (fromBase58 : String → Except String TariAddress)

/-- `validate_recipient`. -/
def validateRecipient (network : Network) (address : String) (amount : UInt64) (sendAll : Bool) :
    Except WalletError TariAddress :=
  match fromBase58 address with
  | .error text => .error (.invalidAddress text)
  | .ok parsed =>
    if parsed.network ≠ network then
      .error (.invalidAddress ("address network (" ++ parsed.network.display ++
        ") does not match the configured network (" ++ network.display ++ ")"))
    else if amount = 0 ∧ sendAll = false then
      .error (.wallet "Amount must be greater than zero")
    else .ok parsed

/-- `validate_recipient_count`. -/
def validateRecipientCount (count : Nat) (sendAll : Bool) : Except WalletError Unit :=
  if count = 0 then .error (.wallet "At least one recipient is required")
  else if sendAll = true ∧ count ≠ 1 then .error (.wallet "A send-all pays exactly one recipient")
  else .ok ()

/-- The loop of `validate_inputs`. -/
def validateRecipients (network : Network) (sendAll : Bool) :
    List SendRecipient → Except WalletError (List Recipient)
  | [] => .ok []
  | r :: rest =>
    match validateRecipient fromBase58 network r.address r.amount sendAll with
    | .error e => .error e
    | .ok address =>
      match validateRecipients network sendAll rest with
      | .error e => .error e
      | .ok recipients => .ok (⟨address, r.amount, r.paymentId⟩ :: recipients)

/-- `validate_inputs`. -/
def validateInputs (details : MultiSendTransactionDetails) : Except WalletError ValidatedInputs :=
  let network := parseNetwork details.network
  match validateRecipientCount details.recipients.length details.sendAll with
  | .error e => .error e
  | .ok () =>
    match validateRecipients fromBase58 network details.sendAll details.recipients with
    | .error e => .error e
    | .ok recipients =>
      .ok ⟨network, recipients, details.confirmationWindow.getD defaultConfirmationWindow⟩

end

end CwTariWallet
