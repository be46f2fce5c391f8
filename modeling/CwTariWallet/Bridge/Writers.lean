/-
# CwTariWallet.Bridge.Writers -- one writer at a time

The scan that works and the maintenance operation that writes keep each other, and themselves, out:
however many scans of a wallet have replaced one another, at most one call writes (`writer_unique`).
-/
import CwTariWallet.Bridge.SlotRefinement

namespace CwTariWallet

open Interleaving

variable {ok : Guard Shared Call} {s : World} {w : WalletName}

/-- A scan inside `scan_in_slot`, past its first look at the token. -/
def ScanAt.inside : ScanAt → Bool
  | .sweepConn | .sweep _ | .rollbackConn _ | .rollback _ _ | .secondCheck | .running | .draining _
  | .readSuperseded => true
  | _ => false

/-- A call that writes `w`: a scan at work, or a maintenance operation whose write is in progress. -/
def Call.writes (w : WalletName) : Call → Bool
  | .scan s => s.walletName = w && s.pos.inside
  | .withWalletLocked m => m.walletName = w && match m.pos with
    | .change _ | .settle _ _ => true
    | _ => false
  | .changePassphrase p => p.walletName = w && match p.pos with
    | .write _ | .settle _ _ => true
    | _ => false
  | .abandonSend a => a.walletName = w && match a.pos with
    | .abandon _ _ => true
    | _ => false
  | _ => false

theorem ScanAt.slotPhase_of_inside {p : ScanAt} (h : p.inside = true) : p.slotPhase = .inside := by
  cases p <;> first | rfl | cases h

theorem Call.slotPhase_of_writes {call : Call} (h : call.writes w = true) :
    call.slotPhase w = .inside ∨ call.slotPhase w = .quiet := by
  cases call <;> simp only [writes, Bool.and_eq_true, decide_eq_true_eq, Bool.false_eq_true] at h
  case scan x =>
    obtain ⟨rfl, h⟩ := h
    exact Or.inl (by simp [slotPhase, ScanAt.slotPhase_of_inside h])
  case withWalletLocked m =>
    obtain ⟨v, change, pos⟩ := m
    obtain ⟨rfl, h⟩ := h
    cases pos with
    | change _ | settle _ _ => exact Or.inr (by simp [slotPhase, WithLockedAt.slotPhase])
    | _ => cases h
  case changePassphrase p =>
    obtain ⟨v, old, new, pos⟩ := p
    obtain ⟨rfl, h⟩ := h
    cases pos with
    | write _ | settle _ _ => exact Or.inr (by simp [slotPhase, ChangeAt.slotPhase])
    | _ => cases h
  case abandonSend a =>
    obtain ⟨v, passphrase, transactionId, pos⟩ := a
    obtain ⟨rfl, h⟩ := h
    cases pos with
    | abandon _ _ => exact Or.inr (by simp [slotPhase, AbandonAt.slotPhase])
    | _ => cases h

theorem slotPhase_config (ok : Guard Shared Call) {c : CallId} {call : Call} (hc : s.calls c = some call) :
    ((slotHom ok w).config s).calls c = some (call.slotPhase w) := by
  simp [System.Hom.config_calls, hc, slotHom]

/-- At most one call writes a wallet. -/
theorem writer_unique (h : system.Reach ok s) {c d : CallId} {call call' : Call}
    (hc : s.calls c = some call) (hcw : call.writes w = true)
    (hd : s.calls d = some call') (hdw : call'.writes w = true) : c = d := by
  have hT := (slotHom ok w).reach_any h
  have hc' := slotPhase_config ok (w := w) hc
  have hd' := slotPhase_config ok (w := w) hd
  rcases Call.slotPhase_of_writes hcw with hp | hp <;>
    rcases Call.slotPhase_of_writes hdw with hq | hq <;> rw [hp] at hc' <;> rw [hq] at hd'
  · exact SlotProtocol.active_unique hT hc' rfl rfl hd' rfl rfl
  · cases SlotProtocol.not_active_of_quiet hT hd' hc'
  · cases SlotProtocol.not_active_of_quiet hT hc' hd'
  · exact SlotProtocol.maintenance_unique hT hc' rfl hd' rfl

/-- A `start_scan` of "main" from `create_scan_handle` (call `h`) to where it waits for its slot. -/
def startsScan (h c : CallId) (id : Nat) : List (Act Call Choice) :=
  .start h (.createScanHandle ⟨"main", .fetch⟩) :: go h 2 ++
    .start c (.scan ⟨⟨"main", id⟩, "main", .foreground, false, none, .claim, none, {}, none, none, none⟩) ::
      go c 8

/-- A scan that was replaced clears its slot and ends, and the one that replaced it works. -/
def scanReplaced : Option World :=
  (replayOnly 5 fun _ => true).exec fresh (unlocks 0 firstPath ++ startsScan 1 2 0 ++ go 2 2 ++
    startsScan 3 4 1 ++ go 2 8 ++ go 4 3)

theorem writer_unique_scanReplaced :
    ∃ s, scanReplaced = some s ∧
      ∀ d call, s.calls d = some call → call.writes "main" = true → 4 = d := by
  obtain ⟨s, hs⟩ := Option.isSome_iff_exists.mp (by decide : scanReplaced.isSome = true)
  have hwrites : (scanReplaced.bind fun s => s.calls 4).map (Call.writes "main") = some true := by
    decide
  rw [hs, Option.bind_some, Option.map_eq_some_iff] at hwrites
  obtain ⟨call, hcall, hw⟩ := hwrites
  have hreach : system.Reach (only fun _ => true) s := replayOnly_sound.reach fresh_init hs
  exact ⟨s, hs, fun d call' hd hd' => writer_unique hreach hcall hw hd hd'⟩

end CwTariWallet
