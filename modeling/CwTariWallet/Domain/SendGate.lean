/-
# CwTariWallet.Domain.SendGate -- which sends are let through, and whom they pay

`validate_inputs` goes through the recipients in order and stops at the first that it refuses.  What it
lets through is exactly what is valid payee by payee (`Valid`), with every payee in its place
(`validateInputs_exact`).  The amounts are looked at one at a time, so nothing is said of their total
(`total_exact_iff`).
-/
import CwTariWallet.Domain.Validation
import Mathlib.Algebra.Group.Action.Defs
import Mathlib.Algebra.Order.BigOperators.Group.List
import Mathlib.Algebra.Order.Ring.Nat
import Mathlib.Data.List.Forall2

namespace CwTariWallet

namespace SendGate

section

variable (fromBase58 : String → Except String TariAddress)

/-! ## What is asked of a payee -/

/-- The payee's address parses as `parsed`, on the right network, and there is something to pay. -/
structure Accepts (network : Network) (sendAll : Bool) (r : SendRecipient) (parsed : TariAddress) : Prop where
  parses : fromBase58 r.address = .ok parsed
  network_eq : parsed.network = network
  amount_ne : sendAll = false → r.amount ≠ 0

/-- Why a payee is refused: of two reasons, the address. -/
inductive Refuses (network : Network) (sendAll : Bool) (r : SendRecipient) : WalletError → Prop where
  | address {text} : fromBase58 r.address = .error text →
      Refuses network sendAll r (.invalidAddress text)
  | network {parsed} : fromBase58 r.address = .ok parsed → parsed.network ≠ network →
      Refuses network sendAll r (.invalidAddress ("address network (" ++ parsed.network.display ++
        ") does not match the configured network (" ++ network.display ++ ")"))
  | amount {parsed} : fromBase58 r.address = .ok parsed → parsed.network = network → sendAll = false →
      r.amount = 0 → Refuses network sendAll r (.wallet "Amount must be greater than zero")

variable {fromBase58} {network : Network} {sendAll : Bool} {r : SendRecipient} {parsed : TariAddress}

theorem validateRecipient_eq_ok :
    validateRecipient fromBase58 network r.address r.amount sendAll = .ok parsed ↔
      Accepts fromBase58 network sendAll r parsed := by
  unfold validateRecipient
  cases hparse : fromBase58 r.address with
  | error text =>
    constructor
    · intro h
      cases h
    · intro h
      have hok := h.parses
      rw [hparse] at hok
      cases hok
  | ok address =>
    simp only
    constructor
    · intro h
      split_ifs at h with hnetwork hamount
      cases h
      refine ⟨hparse, not_not.mp hnetwork, fun hall hzero => hamount ⟨hzero, hall⟩⟩
    · intro h
      obtain rfl : address = parsed := by
        have hok := h.parses
        rw [hparse] at hok
        cases hok
        rfl
      rw [if_neg (not_not.mpr h.network_eq), if_neg (fun hzero => h.amount_ne hzero.2 hzero.1)]

theorem refuses_of_error {e : WalletError}
    (h : validateRecipient fromBase58 network r.address r.amount sendAll = .error e) :
    Refuses fromBase58 network sendAll r e := by
  unfold validateRecipient at h
  cases hparse : fromBase58 r.address with
  | error text =>
    rw [hparse] at h
    cases h
    exact .address hparse
  | ok address =>
    rw [hparse] at h
    simp only at h
    split_ifs at h with hnetwork hamount
    · cases h
      exact .network hparse hnetwork
    · cases h
      exact .amount hparse (not_not.mp hnetwork) hamount.2 hamount.1

/-- A refused payee is not a valid one. -/
theorem Refuses.not_accepts {e : WalletError} (h : Refuses fromBase58 network sendAll r e) :
    ¬ Accepts fromBase58 network sendAll r parsed := by
  intro ⟨hparses, hnetwork, hamount⟩
  cases h with
  | address hbad =>
    rw [hparses] at hbad
    cases hbad
  | network hok hother =>
    rw [hparses] at hok
    cases hok
    exact hother hnetwork
  | amount _ _ hall hzero => exact hamount hall hzero

/-! ## The list of payees -/

/-- What the sender is handed for one payee. -/
structure Pays (fromBase58 : String → Except String TariAddress) (network : Network) (sendAll : Bool)
    (r : SendRecipient) (p : Recipient) : Prop where
  accepts : Accepts fromBase58 network sendAll r p.address
  amount_eq : p.amount = r.amount
  paymentId_eq : p.paymentId = r.paymentId

/-- No payee is dropped. -/
theorem exists_pays {rs : List SendRecipient} {ps : List Recipient}
    (h : List.Forall₂ (Pays fromBase58 network sendAll) rs ps) :
    ∀ r ∈ rs, ∃ p, Pays fromBase58 network sendAll r p := by
  induction h with
  | nil =>
    intro r hr
    cases hr
  | @cons q p rs ps hq _ ih =>
    intro r hr
    rcases List.mem_cons.mp hr with rfl | hr
    · exact ⟨p, hq⟩
    · exact ih r hr

theorem validateRecipients_eq_ok {rs : List SendRecipient} {ps : List Recipient} :
    validateRecipients fromBase58 network sendAll rs = .ok ps ↔
      List.Forall₂ (Pays fromBase58 network sendAll) rs ps := by
  induction rs generalizing ps with
  | nil =>
    rw [List.forall₂_nil_left_iff, validateRecipients, Except.ok.injEq]
    exact eq_comm
  | cons r rs ih =>
    constructor
    · intro h
      rw [validateRecipients] at h
      cases hr : validateRecipient fromBase58 network r.address r.amount sendAll with
      | error e => rw [hr] at h; cases h
      | ok address =>
        cases hrs : validateRecipients fromBase58 network sendAll rs with
        | error e => rw [hr, hrs] at h; cases h
        | ok rest =>
          rw [hr, hrs] at h
          cases h
          exact .cons ⟨validateRecipient_eq_ok.mp hr, rfl, rfl⟩ (ih.mp hrs)
    · intro h
      cases h with
      | @cons _ p _ rest hr hrs =>
        obtain ⟨address, amount, paymentId⟩ := p
        obtain ⟨haccepts, rfl, rfl⟩ := hr
        rw [validateRecipients, validateRecipient_eq_ok.mpr haccepts, ih.mpr hrs]

/-- The first payee that is refused decides. -/
theorem validateRecipients_eq_error {rs : List SendRecipient} {e : WalletError}
    (h : validateRecipients fromBase58 network sendAll rs = .error e) :
    ∃ before r after, rs = before ++ r :: after ∧
      (∀ q ∈ before, ∃ parsed, Accepts fromBase58 network sendAll q parsed) ∧
      Refuses fromBase58 network sendAll r e := by
  induction rs with
  | nil => cases h
  | cons r rs ih =>
    rw [validateRecipients] at h
    cases hr : validateRecipient fromBase58 network r.address r.amount sendAll with
    | error e' =>
      rw [hr] at h
      cases h
      exact ⟨[], r, rs, rfl, fun q hq => (by cases hq), refuses_of_error hr⟩
    | ok address =>
      cases hrs : validateRecipients fromBase58 network sendAll rs with
      | ok rest => rw [hr, hrs] at h; cases h
      | error e' =>
        rw [hr, hrs] at h
        cases h
        obtain ⟨before, q, after, rfl, hbefore, hrefuses⟩ := ih hrs
        refine ⟨r :: before, q, after, rfl, ?_, hrefuses⟩
        intro q' hq'
        rcases List.mem_cons.mp hq' with rfl | hq'
        · exact ⟨address, validateRecipient_eq_ok.mp hr⟩
        · exact hbefore q' hq'

/-! ## The request -/

/-- The number of payees is one that the kind of send allows. -/
def ValidCount (details : MultiSendTransactionDetails) : Prop :=
  details.recipients ≠ [] ∧ (details.sendAll = true → details.recipients.length = 1)

theorem validateRecipientCount_eq_ok {details : MultiSendTransactionDetails} :
    validateRecipientCount details.recipients.length details.sendAll = .ok () ↔ ValidCount details := by
  unfold validateRecipientCount ValidCount
  constructor
  · intro h
    split_ifs at h with hzero hmany
    constructor
    · intro hnil
      exact hzero (by rw [hnil]; rfl)
    · intro hall
      by_contra hne
      exact hmany ⟨hall, hne⟩
  · rintro ⟨hne, hone⟩
    have hzero : details.recipients.length ≠ 0 := fun h => hne (List.length_eq_zero_iff.mp h)
    rw [if_neg hzero, if_neg (fun hmany => hmany.2 (hone hmany.1))]

variable (fromBase58)

/-- A send that should be let through. -/
structure Valid (details : MultiSendTransactionDetails) : Prop where
  count : ValidCount details
  recipients : ∀ r ∈ details.recipients,
    ∃ parsed, Accepts fromBase58 (parseNetwork details.network) details.sendAll r parsed

variable {fromBase58} {details : MultiSendTransactionDetails}

theorem validateInputs_eq_ok {v : ValidatedInputs} (h : validateInputs fromBase58 details = .ok v) :
    ValidCount details ∧ v.network = parseNetwork details.network ∧
      List.Forall₂ (Pays fromBase58 (parseNetwork details.network) details.sendAll) details.recipients
        v.recipients := by
  unfold validateInputs at h
  cases hcount : validateRecipientCount details.recipients.length details.sendAll with
  | error e => rw [hcount] at h; cases h
  | ok u =>
    rw [hcount] at h
    simp only at h
    cases hrs : validateRecipients fromBase58 (parseNetwork details.network) details.sendAll
      details.recipients with
    | error e => rw [hrs] at h; cases h
    | ok ps =>
      rw [hrs] at h
      cases h
      exact ⟨validateRecipientCount_eq_ok.mp hcount, rfl, validateRecipients_eq_ok.mp hrs⟩

theorem validateInputs_eq_error {e : WalletError} (h : validateInputs fromBase58 details = .error e)
    (hcount : ValidCount details) : ∃ before r after, details.recipients = before ++ r :: after ∧
      (∀ q ∈ before, ∃ parsed, Accepts fromBase58 (parseNetwork details.network) details.sendAll q parsed) ∧
      Refuses fromBase58 (parseNetwork details.network) details.sendAll r e := by
  unfold validateInputs at h
  rw [validateRecipientCount_eq_ok.mpr hcount] at h
  simp only at h
  cases hrs : validateRecipients fromBase58 (parseNetwork details.network) details.sendAll
    details.recipients with
  | ok ps => rw [hrs] at h; cases h
  | error e' =>
    rw [hrs] at h
    cases h
    exact validateRecipients_eq_error hrs

theorem exists_ok_of_valid (h : Valid fromBase58 details) : ∃ v, validateInputs fromBase58 details = .ok v := by
  cases hv : validateInputs fromBase58 details with
  | ok v => exact ⟨v, rfl⟩
  | error e =>
    obtain ⟨before, r, after, hsplit, -, hrefuses⟩ := validateInputs_eq_error hv h.count
    obtain ⟨parsed, haccepts⟩ := h.recipients r (by rw [hsplit]; simp)
    exact absurd haccepts hrefuses.not_accepts

variable (fromBase58 details)

/-- A send is let through just if it is valid; then every payee is handed on, in order, with its parsed
address, its amount and its payment id.  With a valid number of payees, the error is that of the first one
that is not valid. -/
theorem validateInputs_exact :
    ((∃ v, validateInputs fromBase58 details = .ok v) ↔ Valid fromBase58 details) ∧
      (∀ v, validateInputs fromBase58 details = .ok v → v.network = parseNetwork details.network ∧
        List.Forall₂ (Pays fromBase58 (parseNetwork details.network) details.sendAll) details.recipients
          v.recipients) ∧
      ∀ e, validateInputs fromBase58 details = .error e → ValidCount details →
        ∃ before r after, details.recipients = before ++ r :: after ∧
          (∀ q ∈ before,
            ∃ parsed, Accepts fromBase58 (parseNetwork details.network) details.sendAll q parsed) ∧
          (∀ parsed, ¬ Accepts fromBase58 (parseNetwork details.network) details.sendAll r parsed) ∧
          Refuses fromBase58 (parseNetwork details.network) details.sendAll r e := by
  refine ⟨⟨?_, ?_⟩, ?_, ?_⟩
  · rintro ⟨v, hv⟩
    obtain ⟨hcount, -, hpays⟩ := validateInputs_eq_ok hv
    refine ⟨hcount, fun r hr => ?_⟩
    obtain ⟨p, hp⟩ := exists_pays hpays r hr
    exact ⟨p.address, hp.accepts⟩
  · exact exists_ok_of_valid
  · intro v hv
    exact (validateInputs_eq_ok hv).2
  · intro e he hcount
    obtain ⟨before, r, after, hsplit, hbefore, hrefuses⟩ := validateInputs_eq_error he hcount
    exact ⟨before, r, after, hsplit, hbefore, fun parsed => hrefuses.not_accepts, hrefuses⟩

end

/-! ## The total -/

/-- What the amounts come to. -/
def trueTotal (amounts : List UInt64) : Nat := (amounts.map UInt64.toNat).sum

/-- What adding them one to the other gives where an overflow is not trapped. -/
def wrappedTotal (amounts : List UInt64) : UInt64 := amounts.foldl (fun total amount => total + amount) 0

/-- The amounts come to less than 2^64, and adding them up gives what they come to. -/
def TotalExact (amounts : List UInt64) : Prop :=
  trueTotal amounts < 2 ^ 64 ∧ (wrappedTotal amounts).toNat = trueTotal amounts

theorem trueTotal_cons (x : UInt64) (xs : List UInt64) : trueTotal (x :: xs) = x.toNat + trueTotal xs := by
  simp [trueTotal]

/-- The wrapped total is the true one up to a multiple of 2^64. -/
theorem wrappedTotal_toNat (amounts : List UInt64) :
    (wrappedTotal amounts).toNat = trueTotal amounts % 2 ^ 64 := by
  have hfold : ∀ (xs : List UInt64) (total : UInt64),
      (xs.foldl (fun total amount => total + amount) total).toNat = (total.toNat + trueTotal xs) % 2 ^ 64 := by
    intro xs
    induction xs with
    | nil =>
      intro total
      exact (Nat.mod_eq_of_lt total.toNat_lt).symm
    | cons x xs ih =>
      intro total
      rw [List.foldl_cons, ih, UInt64.toNat_add, trueTotal_cons, Nat.mod_add_mod, Nat.add_assoc]
  rw [wrappedTotal, hfold, UInt64.toNat_zero, Nat.zero_add]

theorem totalExact_iff (amounts : List UInt64) : TotalExact amounts ↔ trueTotal amounts < 2 ^ 64 := by
  constructor
  · intro hexact
    exact hexact.1
  · intro hlt
    refine ⟨hlt, ?_⟩
    rw [wrappedTotal_toNat, Nat.mod_eq_of_lt hlt]

/-- At most `amounts.length` times the most there is in one place. -/
theorem trueTotal_le {amounts : List UInt64} {most : UInt64} (h : ∀ amount ∈ amounts, amount ≤ most) :
    trueTotal amounts ≤ amounts.length * most.toNat := by
  have hle : ∀ n ∈ amounts.map UInt64.toNat, n ≤ most.toNat := by
    intro n hn
    obtain ⟨amount, hamount, rfl⟩ := List.mem_map.mp hn
    exact UInt64.le_iff_toNat_le.mp (h amount hamount)
  have hsum := List.sum_le_card_nsmul (amounts.map UInt64.toNat) most.toNat hle
  rwa [List.length_map, smul_eq_mul] at hsum

theorem trueTotal_replicate (n : Nat) (amount : UInt64) :
    trueTotal (List.replicate n amount) = n * amount.toNat := by
  simp [trueTotal]

/-- The amounts that are handed on are those of the request. -/
theorem amounts_eq {fromBase58 : String → Except String TariAddress} {network : Network} {sendAll : Bool}
    {rs : List SendRecipient} {ps : List Recipient} (h : List.Forall₂ (Pays fromBase58 network sendAll) rs ps) :
    ps.map (·.amount) = rs.map (·.amount) := by
  induction h with
  | nil => rfl
  | cons hp _ ih => rw [List.map_cons, List.map_cons, hp.amount_eq, ih]

/-- A request that pays `n` times the same amount to the same address. -/
def repeated (address : String) (network : Network) (n : Nat) (amount : UInt64) :
    MultiSendTransactionDetails :=
  ⟨some network, none, "main", List.replicate n ⟨address, amount, none⟩, false, none⟩

theorem valid_repeated {fromBase58 : String → Except String TariAddress} {address : String} {parsed : TariAddress}
    (hparses : fromBase58 address = .ok parsed) {n : Nat} {amount : UInt64} (hn : n ≠ 0) (hamount : amount ≠ 0) :
    Valid fromBase58 (repeated address parsed.network n amount) := by
  constructor
  · refine ⟨fun hnil => hn ?_, fun hall => by cases hall⟩
    exact (List.replicate_eq_nil_iff _).mp hnil
  · intro r hr
    obtain rfl := List.eq_of_mem_replicate hr
    exact ⟨parsed, hparses, (parseNetwork_some _).symm, fun _ => hamount⟩

/-- The gate looks at one amount at a time, so how many payments of what size may come together is left to the
caller: of the requests with at most `n` payments of at most `most` each, all that are let through have an exact
total if and only if `n` times `most` is below 2^64. -/
theorem total_exact_iff {fromBase58 : String → Except String TariAddress} {address : String}
    {parsed : TariAddress} (hparses : fromBase58 address = .ok parsed) (n : Nat) (most : UInt64) :
    (∀ details v, details.sendAll = false → details.recipients.length ≤ n →
      (∀ r ∈ details.recipients, r.amount ≤ most) → validateInputs fromBase58 details = .ok v →
        TotalExact (v.recipients.map (·.amount))) ↔
      n * most.toNat < 2 ^ 64 := by
  constructor
  · intro hall
    by_contra hlarge
    have hn : n ≠ 0 := by
      rintro rfl
      simp at hlarge
    have hmost : most ≠ 0 := by
      rintro rfl
      simp at hlarge
    -- The request that pays the most each time is let through too.
    obtain ⟨v, hv⟩ := exists_ok_of_valid (valid_repeated hparses hn hmost)
    have hexact := hall _ v rfl (by simp [repeated])
      (fun r hr => UInt64.le_of_eq (by rw [List.eq_of_mem_replicate hr])) hv
    rw [totalExact_iff, amounts_eq (validateInputs_eq_ok hv).2.2] at hexact
    simp only [repeated, List.map_replicate, trueTotal_replicate] at hexact
    exact hlarge hexact
  · intro hsmall details v _ hcount hsize hv
    rw [totalExact_iff, amounts_eq (validateInputs_eq_ok hv).2.2]
    have htotal : trueTotal (details.recipients.map (·.amount)) ≤ details.recipients.length * most.toNat := by
      have hle : ∀ amount ∈ details.recipients.map (·.amount), amount ≤ most := fun amount hamount => by
        obtain ⟨r, hr, rfl⟩ := List.mem_map.mp hamount
        exact hsize r hr
      simpa only [List.length_map] using trueTotal_le hle
    calc trueTotal (details.recipients.map (·.amount))
        ≤ details.recipients.length * most.toNat := htotal
      _ ≤ n * most.toNat := Nat.mul_le_mul_right _ hcount
      _ < 2 ^ 64 := hsmall

/-- A parser that takes every text for a MainNet address. -/
def parsesAll (text : String) : Except String TariAddress := .ok ⟨.mainNet, text⟩

/-- 878 payments of up to 21 billion Tari each still add up; one more may not. -/
theorem total_exact_iff_supply :
    (∀ details v, details.sendAll = false → details.recipients.length ≤ 878 →
      (∀ r ∈ details.recipients, r.amount ≤ 21000000000000000) →
        validateInputs parsesAll details = .ok v → TotalExact (v.recipients.map (·.amount))) ∧
    ¬ ∀ details v, details.sendAll = false → details.recipients.length ≤ 879 →
      (∀ r ∈ details.recipients, r.amount ≤ 21000000000000000) →
        validateInputs parsesAll details = .ok v → TotalExact (v.recipients.map (·.amount)) := by
  have hparses : parsesAll "address" = .ok ⟨.mainNet, "address"⟩ := rfl
  refine ⟨(total_exact_iff hparses 878 21000000000000000).mpr (by decide), ?_⟩
  exact fun hall => absurd ((total_exact_iff hparses 879 21000000000000000).mp hall) (by decide)

/-- Two payees of 2^63 microTari each are let through, and their amounts add up to nothing. -/
theorem not_total_exact : ¬ ∀ fromBase58 details v, details.sendAll = false →
    validateInputs fromBase58 details = .ok v → TotalExact (v.recipients.map (·.amount)) := by
  intro hall
  have hparses : parsesAll "address" = .ok ⟨.mainNet, "address"⟩ := rfl
  have hvalid : Valid parsesAll (repeated "address" .mainNet 2 9223372036854775808) := by
    refine valid_repeated hparses ?_ ?_ <;> decide
  obtain ⟨v, hv⟩ := exists_ok_of_valid hvalid
  have hexact := hall parsesAll _ v rfl hv
  rw [totalExact_iff, amounts_eq (validateInputs_eq_ok hv).2.2] at hexact
  exact absurd hexact (by decide)

end SendGate

end CwTariWallet
