/-
# CwTariWallet.Api.Scanner -- `SCAN_STATE` and its critical sections

The handles, the scans about to start and the slot of each wallet of `src/api/scanner.rs`, with every
function that runs under the state's lock.  A controller's token, superseded flag and `stopped` token
are shared handles that outlive the map entry; they are kept apart, under the name of the scan that
made them.
-/
import CwTariWallet.Api.Error
import CwTariWallet.Api.ScanEvents
import CwTariWallet.Interleaving
import CwTariWallet.Minotari
import CwTariWallet.Table
import Mathlib.Data.Finset.Basic

namespace CwTariWallet

open Interleaving (CallId)

/-- Names one scan.  Its fields are public, so a caller can also make one up. -/
structure ScanHandle where
  walletName : WalletName
  id : Nat
  deriving DecidableEq, Repr

/-- Who a scan is for. -/
inductive ScanPriority where
  | foreground
  | background
  deriving DecidableEq, Repr

/-- A running scan, in its wallet's slot.  `scan` is the call that made its tokens. -/
structure ScanController where
  id : Nat
  priority : ScanPriority
  scan : CallId
  deriving DecidableEq, Repr

/-- The cancellation token, the superseded flag and the `stopped` token one scan makes. -/
structure ScanTokens where
  cancelled : Bool := false
  superseded : Bool := false
  stopped : Bool := false
  deriving DecidableEq, Repr

/-- The tokens of every scan. -/
abbrev TokenMap := CallId → ScanTokens

namespace TokenMap

/-- `token.cancel()`. -/
def cancel (tokens : TokenMap) (c : CallId) : TokenMap :=
  Function.update tokens c { tokens c with cancelled := true }

/-- `superseded.store(true)`. -/
def supersede (tokens : TokenMap) (c : CallId) : TokenMap :=
  Function.update tokens c { tokens c with superseded := true }

/-- A scan is replaced: superseded, unless it was being stopped anyway, and cancelled. -/
def replace (tokens : TokenMap) (c : CallId) : TokenMap :=
  (if (tokens c).cancelled then tokens else tokens.supersede c).cancel c

/-- The drop guard of `run_scan`: `stopped` fires. -/
def stop (tokens : TokenMap) (c : CallId) : TokenMap :=
  Function.update tokens c { tokens c with stopped := true }

section

variable (tokens : TokenMap) (c d : CallId)

@[simp]
theorem cancel_cancelled : (tokens.cancel c d).cancelled = (decide (d = c) || (tokens d).cancelled) := by
  by_cases h : d = c <;> simp [cancel, h]

@[simp]
theorem cancel_stopped : (tokens.cancel c d).stopped = (tokens d).stopped := by
  by_cases h : d = c <;> simp [cancel, h]

@[simp]
theorem cancel_superseded : (tokens.cancel c d).superseded = (tokens d).superseded := by
  by_cases h : d = c <;> simp [cancel, h]

@[simp]
theorem supersede_cancelled : (tokens.supersede c d).cancelled = (tokens d).cancelled := by
  by_cases h : d = c <;> simp [supersede, h]

@[simp]
theorem supersede_stopped : (tokens.supersede c d).stopped = (tokens d).stopped := by
  by_cases h : d = c <;> simp [supersede, h]

@[simp]
theorem replace_cancelled :
    (tokens.replace c d).cancelled = (decide (d = c) || (tokens d).cancelled) := by
  unfold replace
  split <;> simp

@[simp]
theorem replace_stopped : (tokens.replace c d).stopped = (tokens d).stopped := by
  unfold replace
  split <;> simp

@[simp]
theorem replace_superseded :
    (tokens.replace c d).superseded =
      (decide (d = c) && !(tokens c).cancelled || (tokens d).superseded) := by
  unfold replace supersede
  by_cases hcancelled : (tokens c).cancelled = true
  · simp [hcancelled]
  · by_cases h : d = c <;> simp [hcancelled, h]

@[simp]
theorem stop_superseded : (tokens.stop c d).superseded = (tokens d).superseded := by
  by_cases h : d = c <;> simp [stop, h]

@[simp]
theorem stop_cancelled : (tokens.stop c d).cancelled = (tokens d).cancelled := by
  by_cases h : d = c <;> simp [stop, h]

@[simp]
theorem stop_stopped : (tokens.stop c d).stopped = (decide (d = c) || (tokens d).stopped) := by
  by_cases h : d = c <;> simp [stop, h]

end

end TokenMap

structure ScanState where
  /-- Handles from `create_scan_handle` that have not started a scan. -/
  issued : Finset Nat
  /-- Handles stopped before their scan started. -/
  stoppedBeforeStart : Finset Nat
  /-- Scans started but not in their slot yet, by id. -/
  starting : Table Nat WalletName
  /-- The running scan of each wallet. -/
  running : Table WalletName ScanController

/-- What `claim_and_scan` finds of its handle. -/
inductive Claim where
  | stoppedBefore
  | used
  | claimed
  deriving DecidableEq, Repr

namespace ScanState

/-- `SCAN_STATE` as the process starts. -/
def initial : ScanState := ⟨∅, ∅, ∅, ∅⟩

/-- The state step of `create_scan_handle`. -/
def issue (state : ScanState) (id : Nat) : ScanState :=
  { state with issued := insert id state.issued }

/-- The state step of `claim_and_scan`. -/
def claim (state : ScanState) (handle : ScanHandle) : Claim × ScanState :=
  if handle.id ∈ state.stoppedBeforeStart then
    (.stoppedBefore, { state with stoppedBeforeStart := state.stoppedBeforeStart.erase handle.id })
  else if handle.id ∈ state.issued then
    (.claimed, { state with
      issued := state.issued.erase handle.id
      starting := state.starting.insert handle.id handle.walletName })
  else (.used, state)

/-- The state step of `stop_scan`: the scan to wait for, if there is one. -/
def stopScan (state : ScanState) (tokens : TokenMap) (handle : ScanHandle) :
    Option CallId × ScanState × TokenMap :=
  if handle.id ∈ state.issued then
    (none, { state with
      issued := state.issued.erase handle.id
      stoppedBeforeStart := insert handle.id state.stoppedBeforeStart }, tokens)
  else if (state.starting.lookup handle.id).isSome then
    (none, { state with starting := state.starting.erase handle.id }, tokens)
  else
    match state.running.lookup handle.walletName with
    | some controller =>
      if controller.id = handle.id then
        (some controller.scan, state, tokens.cancel controller.scan)
      else (none, state, tokens)
    | none => (none, state, tokens)

/-- `cancel_wallet_scans`: cancel the wallet's running scan and any of its scans not started yet,
without waiting.  Returns the running scan, if there is one. -/
def cancelWalletScans (state : ScanState) (tokens : TokenMap) (walletName : WalletName) :
    Option CallId × ScanState × TokenMap :=
  let state := { state with
    starting := Table.retain (fun _ wallet => decide (wallet ≠ walletName)) state.starting }
  match state.running.lookup walletName with
  | some controller => (some controller.scan, state, tokens.cancel controller.scan)
  | none => (none, state, tokens)

/-- `clear_scan_if_current`: clear the slot only if it still holds scan `id`. -/
def clearScanIfCurrent (state : ScanState) (walletName : WalletName) (id : Nat) : ScanState :=
  if (state.running.lookup walletName).any fun c => decide (c.id = id) then
    { state with running := state.running.erase walletName }
  else state

/-- `take_slot`: put `controller` in `wallet_name`'s slot by the priority rules, returning the scan it
replaced (already cancelled and, unless it was being stopped anyway, marked superseded). -/
def takeSlot (state : ScanState) (tokens : TokenMap) (walletName : WalletName)
    (controller : ScanController) :
    Except WalletError (Option ScanController × ScanState × TokenMap) :=
  let refused := (state.running.lookup walletName).any fun current =>
    decide (current.priority = .foreground) && decide (controller.priority = .background) &&
      !(tokens current.scan).cancelled && !(tokens current.scan).stopped
  if refused then .error .foregroundScanActive
  else
    let previous := state.running.lookup walletName
    let state := { state with running := state.running.insert walletName controller }
    match previous with
    | none => .ok (none, state, tokens)
    | some old => .ok (some old, state, tokens.replace old.scan)

/-- The end of `claim_and_scan`: forget the id. -/
def unstart (state : ScanState) (id : Nat) : ScanState :=
  { state with starting := state.starting.erase id }

/-! ## What the critical sections do -/

/-- A handle is claimed only if it was issued and not stopped before. -/
theorem claim_cases {state state' : ScanState} {handle : ScanHandle} {r : Claim}
    (h : state.claim handle = (r, state')) :
    (r = .stoppedBefore ∧ state' = { state with
        stoppedBeforeStart := state.stoppedBeforeStart.erase handle.id }) ∨
      (r = .used ∧ state' = state) ∨
      (r = .claimed ∧ handle.id ∈ state.issued ∧ state' = { state with
        issued := state.issued.erase handle.id
        starting := state.starting.insert handle.id handle.walletName }) := by
  unfold claim at h
  split at h
  · obtain ⟨rfl, rfl⟩ := Prod.mk.inj h
    exact Or.inl ⟨rfl, rfl⟩
  split at h <;> obtain ⟨rfl, rfl⟩ := Prod.mk.inj h
  · exact Or.inr (Or.inr ⟨rfl, ‹_›, rfl⟩)
  · exact Or.inr (Or.inl ⟨rfl, rfl⟩)

/-- A scan that gets the slot replaces whoever was there. -/
theorem takeSlot_ok {state state' : ScanState} {tokens tokens' : TokenMap} {w : WalletName}
    {controller : ScanController} {previous : Option ScanController}
    (h : state.takeSlot tokens w controller = .ok (previous, state', tokens')) :
    previous = state.running.lookup w ∧
      state' = { state with running := state.running.insert w controller } ∧
      tokens' = previous.elim tokens fun old => tokens.replace old.scan := by
  simp only [takeSlot] at h
  split at h
  · cases h
  · cases hprev : state.running.lookup w <;> simp only [hprev] at h <;>
      obtain ⟨rfl, rfl, rfl⟩ := by simpa [eq_comm] using h
    · simp
    · simp

/-- Cancelling a wallet's scans cancels the one in its slot and forgets the ones about to start. -/
theorem cancelWalletScans_eq (state : ScanState) (tokens : TokenMap) (w : WalletName) :
    state.cancelWalletScans tokens w =
      ((state.running.lookup w).map (·.scan),
        { state with
          starting := Table.retain (fun _ wallet => decide (wallet ≠ w)) state.starting },
        (state.running.lookup w).elim tokens fun c => tokens.cancel c.scan) := by
  unfold cancelWalletScans
  cases h : state.running.lookup w <;> simp [h]

/-- `stop_scan` withdraws a handle, keeps a scan from its slot, cancels the scan in the slot, or finds
nothing to stop. -/
theorem stopScan_cases {state state' : ScanState} {tokens tokens' : TokenMap} {h : ScanHandle}
    {waitFor : Option CallId} (hs : state.stopScan tokens h = (waitFor, state', tokens')) :
    (h.id ∈ state.issued ∧ waitFor = none ∧ tokens' = tokens ∧ state' = { state with
        issued := state.issued.erase h.id
        stoppedBeforeStart := insert h.id state.stoppedBeforeStart }) ∨
      (h.id ∉ state.issued ∧ (state.starting.lookup h.id).isSome = true ∧ waitFor = none ∧
        tokens' = tokens ∧ state' = { state with starting := state.starting.erase h.id }) ∨
      (∃ k, state.running.lookup h.walletName = some k ∧ k.id = h.id ∧ waitFor = some k.scan ∧
        tokens' = tokens.cancel k.scan ∧ state' = state) ∨
      (h.id ∉ state.issued ∧ state.starting.lookup h.id = none ∧
        (∀ k, state.running.lookup h.walletName = some k → k.id ≠ h.id) ∧ waitFor = none ∧
        tokens' = tokens ∧ state' = state) := by
  unfold stopScan at hs
  split at hs
  · obtain ⟨rfl, rfl, rfl⟩ := by simpa [eq_comm] using hs
    exact Or.inl ⟨‹_›, rfl, rfl, rfl⟩
  rename_i hissued
  split at hs
  · obtain ⟨rfl, rfl, rfl⟩ := by simpa [eq_comm] using hs
    exact Or.inr (Or.inl ⟨hissued, ‹_›, rfl, rfl, rfl⟩)
  rename_i hstarting
  have hnone : state.starting.lookup h.id = none := Option.not_isSome_iff_eq_none.mp hstarting
  split at hs
  · rename_i k hk
    split at hs <;> obtain ⟨rfl, rfl, rfl⟩ := by simpa [eq_comm] using hs
    · exact Or.inr (Or.inr (Or.inl ⟨k, hk, ‹_›, rfl, rfl, rfl⟩))
    · rename_i hid
      refine Or.inr (Or.inr (Or.inr ⟨hissued, hnone, fun k' hk' => ?_, rfl, rfl, rfl⟩))
      rwa [← Option.some.inj (hk.symm.trans hk')]
  · rename_i hrun
    obtain ⟨rfl, rfl, rfl⟩ := by simpa [eq_comm] using hs
    refine Or.inr (Or.inr (Or.inr ⟨hissued, hnone, fun k' hk' => ?_, rfl, rfl, rfl⟩))
    rw [hrun] at hk'
    cases hk'

/-- `stop_scan` never touches a slot. -/
theorem stopScan_running {state state' : ScanState} {tokens tokens' : TokenMap} {h : ScanHandle}
    {waitFor : Option CallId} (hs : state.stopScan tokens h = (waitFor, state', tokens')) :
    state'.running = state.running ∧ (∀ id ∈ state'.issued, id ∈ state.issued) ∧
      (tokens' = tokens ∨ ∃ c, tokens' = tokens.cancel c) := by
  rcases stopScan_cases hs with ⟨-, -, rfl, rfl⟩ | ⟨-, -, -, rfl, rfl⟩ | ⟨k, -, -, -, rfl, rfl⟩ |
    ⟨-, -, -, -, rfl, rfl⟩
  · exact ⟨rfl, fun id hid => Finset.mem_of_mem_erase hid, Or.inl rfl⟩
  · exact ⟨rfl, fun _ hid => hid, Or.inl rfl⟩
  · exact ⟨rfl, fun _ hid => hid, Or.inr ⟨_, rfl⟩⟩
  · exact ⟨rfl, fun _ hid => hid, Or.inl rfl⟩

/-- `stop_scan` starts nothing. -/
theorem stopScan_starting {state state' : ScanState} {tokens tokens' : TokenMap} {h : ScanHandle}
    {waitFor : Option CallId} (hs : state.stopScan tokens h = (waitFor, state', tokens')) {id : Nat}
    {wallet : WalletName} (hid : state'.starting.lookup id = some wallet) :
    state.starting.lookup id = some wallet := by
  rcases stopScan_cases hs with ⟨-, -, -, rfl⟩ | ⟨-, -, -, -, rfl⟩ | ⟨k, -, -, -, -, rfl⟩ |
    ⟨-, -, -, -, -, rfl⟩
  · exact hid
  · rw [Table.lookup_erase_eq] at hid
    split at hid
    · cases hid
    · exact hid
  · exact hid
  · exact hid

end ScanState

/-- `check_rescan_height`: the database stores heights as `i64`. -/
def checkRescanHeight (fromHeight : Nat) : Except BridgeError Unit :=
  if fromHeight ≤ 9223372036854775807 then .ok ()
  else .error (.wallet (.database ("Rescan height " ++ toString fromHeight ++ " is out of range")))

/-- `stopped_event`: the terminal event of a scan stopped before the scanner ran. -/
def stoppedEvent (superseded : Bool) : ScanEventDto :=
  if superseded then .superseded else .cancelled

end CwTariWallet
