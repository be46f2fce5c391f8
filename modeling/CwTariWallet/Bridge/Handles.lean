/-
# CwTariWallet.Bridge.Handles -- one handle, one scan

A handle's id goes from `issued` to `starting` to a slot, or to `stopped_before_start`; four collections,
changed by five operations that each take the lock for themselves.  An id is only ever in one of them, one
call at most gets it past the claim, a stop that comes before the slot keeps the scan from it for good,
and when the call that claimed it has returned nothing is left of it (`one_handle_one_scan`).

What carries all of it: an id that was taken down from `issued` never comes up again (`World.Spent`).
-/
import CwTariWallet.Bridge.ScanStops

namespace CwTariWallet

open Interleaving

variable {ok : Guard Shared Call} {s : World} {id : Nat}
variable {me m : CallId} {ch : Choice} {σ σ' : Shared} {l l' : Call}

/-! ## Ids that are used up -/

/-- The id was handed out, and is up for claiming no more. -/
def World.Spent (s : World) (id : Nat) : Prop :=
  TicketProtocol.Spent ((ticketHom fun _ _ => True).config s) id

/-- No call holds the id. -/
def World.Unclaimed (s : World) (id : Nat) : Prop :=
  ∀ c call, s.calls c = some call → call.ticket ≠ .claimed id

theorem reach_any (h : system.Reach ok s) : system.Reach (fun _ _ => True) s :=
  h.mono fun _ _ _ => trivial

theorem ticket_config {c : CallId} {call : Call} (hc : s.calls c = some call) :
    ((ticketHom fun _ _ => True).config s).calls c = some call.ticket := by
  simp [System.Hom.config_calls, hc, ticketHom]

theorem World.Spent.not_issued (h : s.Spent id) : id ∉ s.shared.scans.issued := h.down

theorem World.Spent.move {e : Event Call} {t : World} (h : s.Spent id) (hs : system.Reach ok s)
    (hmove : system.Move e s t) : t.Spent id :=
  TicketProtocol.Spent.move h ((ticketHom fun _ _ => True).move (reach_any hs) trivial hmove)

theorem spent_of_claimed (h : system.Reach ok s) {c : CallId} {call : Call}
    (hc : s.calls c = some call) (ht : call.ticket = .claimed id) : s.Spent id := by
  refine TicketProtocol.spent_of_claimed ((ticketHom _).reach_any (reach_any h)) (c := c) ?_
  rw [ticket_config hc, ht]

/-- A call comes to hold an id only while it is up. -/
theorem ScanStep.issued_of_claimed {call call' : Call} (h : ScanStep me call σ call' σ')
    (ht : call'.ticket = .claimed id) : call.ticket = .claimed id ∨ id ∈ σ.scans.issued := by
  have hticket := h.ticketStep
  generalize hp : call.ticket = p at hticket
  generalize hv : σ.ticketView = v at hticket
  generalize hv' : σ'.ticketView = v' at hticket
  rw [ht] at hticket
  cases hticket with
  | tick _ => exact Or.inl rfl
  | claim hissued =>
    subst hv
    exact Or.inr hissued

/-- An unclaimed id that is used up stays unclaimed. -/
theorem World.Unclaimed.step (h : s.Unclaimed id) (hspent : s.Spent id) (hm : s.calls m = some l)
    (hstep : l.next m ch s.shared = some (l', σ')) : World.Unclaimed (s.put m l' σ') id := by
  intro c call hc ht
  rcases Config.put_calls_eq_some hc with ⟨rfl, rfl⟩ | ⟨-, hc⟩
  · rcases (Call.scanStep hstep).issued_of_claimed ht with hold | hissued
    · exact h _ _ hm hold
    · exact hspent.not_issued hissued
  · exact h c call hc ht

theorem World.Unclaimed.start (h : s.Unclaimed id) (hl : system.start l) :
    World.Unclaimed (s.put m l s.shared) id := by
  intro c call hc ht
  rcases Config.put_calls_eq_some hc with ⟨rfl, rfl⟩ | ⟨-, hc⟩
  · have hout : call.ticket = .out := (ticketHom fun _ _ => True).start hl
    rw [hout] at ht
    cases ht
  · exact h c call hc ht

/-! ## Where an id is -/

/-- A scan keeps its id in `starting` until it forgets it. -/
theorem ScanStep.starting_kept {call call' : Call} (h : ScanStep me call σ call' σ')
    (ht : call.ticket = .claimed id) (hslot : call.slot = none) {v : WalletName}
    (hv : σ'.scans.starting.lookup id = some v) :
    call'.ticket = .claimed id ∧ call'.slot = none := by
  have herased {y : Scan} {state : ScanState} (hy : (Call.scan y).ticket = .claimed id)
      (hv : (state.unstart y.handle.id).starting.lookup id = some v) : False := by
    have hid : y.handle.id = id := by
      simp only [Call.ticket] at hy
      split at hy <;> cases hy <;> rfl
    rw [ScanState.unstart, hid, Table.lookup_erase_eq, if_pos rfl] at hv
    cases hv
  cases h with
  | same _ hticket hsame => exact ⟨hticket.trans ht, hsame.trans hslot⟩
  | cancelWallet _ hout _ _ =>
    rw [hout] at ht
    cases ht
  | enter _ _ => exact (herased ht hv).elim
  | refuse _ => exact (herased ht hv).elim
  | unstart _ => exact (herased ht hv).elim
  | claim hpos _ _ | stoppedBefore hpos | stop hpos =>
    simp [Call.ticket, hpos, ScanAt.stage] at ht
  | clear hpos _ => simp [Call.slot, hpos, ScanAt.stage] at hslot
  | cancelSelf hactive _ _ _ => simp [Call.slot, hactive] at hslot
  | mint hpos => simp [Call.ticket, hpos] at ht
  | issue hpos => simp [Call.ticket, hpos] at ht
  | stopScan _ _ _ => cases ht

/-- An id comes into `starting` with the scan that claims it. -/
theorem ScanStep.starting_new {call call' : Call} (h : ScanStep me call σ call' σ')
    (hbefore : σ.scans.starting.lookup id = none) {v : WalletName}
    (hv : σ'.scans.starting.lookup id = some v) : call'.ticket = .claimed id ∧ call'.slot = none := by
  rcases h.starting_origin hv with hold | ⟨y, rfl, hpos, rfl, -, hissued⟩
  · rw [hbefore] at hold
    cases hold
  · cases h with
    | claim _ _ _ => exact ⟨rfl, rfl⟩
    | same hσ _ _ =>
      rw [hσ.scans, hbefore] at hv
      cases hv
    | cancelWallet hσ _ _ _ =>
      rw [hσ.scans, Shared.cancelWalletScans_eq] at hv
      have hold := (Table.lookup_retain_eq_some.mp hv).1
      rw [hbefore] at hold
      cases hold
    | stoppedBefore _ => cases hbefore.symm.trans hv
    | cancelSelf hactive _ _ _ =>
      rw [hpos] at hactive
      cases hactive
    | enter hother _ | refuse hother | clear hother _ | unstart hother | stop hother =>
      rw [hpos] at hother
      cases hother

/-- An id in `starting` is held by a scan that is in no slot. -/
theorem starting_held (h : system.Reach ok s) :
    ∀ id v, s.shared.scans.starting.lookup id = some v →
      ∃ c call, s.calls c = some call ∧ call.ticket = .claimed id ∧ call.slot = none := by
  refine h.invariant (I := fun s : World => ∀ id v, s.shared.scans.starting.lookup id = some v →
    ∃ c call, s.calls c = some call ∧ call.ticket = .claimed id ∧ call.slot = none) ?_ ?_ ?_
  · rintro σ ⟨files, tariCommon, rfl⟩ id v hv
    cases hv
  · intro s m l _ ih _ hfree _ id v hv
    obtain ⟨c, call, hc, hfacts⟩ := ih id v hv
    exact ⟨c, call, Config.put_calls_of_free hfree hc, hfacts⟩
  · rintro s m l l' σ' _ ih _ hm ⟨ch, hstep⟩ id v hv
    have hscan := Call.scanStep hstep
    cases hbefore : s.shared.scans.starting.lookup id with
    | some v' =>
      obtain ⟨c, call, hc, ht, hslot⟩ := ih id v' hbefore
      by_cases hcm : c = m
      · subst hcm
        obtain rfl := Option.some.inj (hm.symm.trans hc)
        exact ⟨c, l', Config.put_calls_self _ _ _ _, hscan.starting_kept ht hslot hv⟩
      · exact ⟨c, call, by rw [Config.put_calls_ne _ _ _ hcm]; exact hc, ht, hslot⟩
    | none => exact ⟨m, l', Config.put_calls_self _ _ _ _, hscan.starting_new hbefore hv⟩

/-- What is stopped before its start was up until then. -/
theorem ScanStep.stopped_origin {call call' : Call} (h : ScanStep me call σ call' σ')
    (hid : id ∈ σ'.scans.stoppedBeforeStart) : id ∈ σ.scans.stoppedBeforeStart ∨
      id ∈ σ.scans.issued ∧ id ∉ σ'.scans.issued ∧ call.ticket = .out ∧ call'.ticket = .out ∧
        σ'.scanId = σ.scanId := by
  cases h with
  | same hσ _ _ => exact Or.inl (hσ.scans ▸ hid)
  | cancelWallet hσ _ _ _ =>
    rw [hσ.scans, Shared.cancelWalletScans_eq] at hid
    exact Or.inl hid
  | @stopScan y _ _ _ _ hstop hout _ =>
    obtain ⟨-, rfl⟩ := Prod.mk.inj hstop
    have hstate : σ.scans.stopScan σ.tokens y.handle = (_, _, _) := rfl
    rcases ScanState.stopScan_cases hstate with ⟨hissued, -, -, heq⟩ | ⟨-, -, -, -, heq⟩ |
      ⟨-, -, -, -, -, heq⟩ | ⟨-, -, -, -, -, heq⟩
    · dsimp only at hid
      rw [heq] at hid
      rcases Finset.mem_insert.mp hid with rfl | hold
      · refine Or.inr ⟨hissued, ?_, rfl, hout, rfl⟩
        dsimp only
        rw [heq]
        exact Finset.notMem_erase _ _
      · exact Or.inl hold
    · dsimp only at hid
      rw [heq] at hid
      exact Or.inl hid
    · dsimp only at hid
      rw [heq] at hid
      exact Or.inl hid
    · dsimp only at hid
      rw [heq] at hid
      exact Or.inl hid
  | stoppedBefore _ => exact Or.inl (Finset.mem_of_mem_erase hid)
  | clear _ _ =>
    left
    simpa [ScanState.clearScanIfCurrent, apply_ite ScanState.stoppedBeforeStart] using hid
  | _ => exact Or.inl hid

/-- A handle that was stopped before its scan started is used up, and nobody holds it. -/
theorem stopped_spent (h : system.Reach ok s) :
    ∀ id ∈ s.shared.scans.stoppedBeforeStart, s.Spent id ∧ s.Unclaimed id := by
  refine h.invariant (I := fun s : World => ∀ id ∈ s.shared.scans.stoppedBeforeStart,
    s.Spent id ∧ s.Unclaimed id) ?_ ?_ ?_
  · rintro σ ⟨files, tariCommon, rfl⟩ id hid
    cases hid
  · intro s m l hs ih _ hfree hl id hid
    obtain ⟨hspent, hunclaimed⟩ := ih id hid
    exact ⟨hspent.move hs (.start hfree hl), hunclaimed.start hl⟩
  · rintro s m l l' σ' hs ih _ hm ⟨ch, hstep⟩ id hid
    rcases (Call.scanStep hstep).stopped_origin hid with hold | ⟨hissued, hdown, hout, hout', hsame⟩
    · obtain ⟨hspent, hunclaimed⟩ := ih id hold
      exact ⟨hspent.move hs (.step hm ⟨ch, hstep⟩), hunclaimed.step hspent hm hstep⟩
    · -- It was up, so nobody held it.
      have hfree := TicketProtocol.free_of_issued ((ticketHom _).reach_any (reach_any hs)) hissued
      have hnone {p : TicketProtocol.Phase} (hp : p.id = some id) :
          ∀ c call, (s.put m l' σ').calls c = some call → call.ticket ≠ p := by
        rintro c call hc rfl
        rcases Config.put_calls_eq_some hc with ⟨rfl, rfl⟩ | ⟨-, hc⟩
        · rw [hout'] at hp
          cases hp
        · exact hfree.2 c call.ticket (ticket_config hc) hp
      refine ⟨⟨?_, hdown, fun c hc => ?_⟩, hnone rfl⟩
      · show id < σ'.scanId
        rw [hsame]
        exact hfree.1
      · obtain ⟨call, hcall, hticket⟩ := Option.map_eq_some_iff.mp hc
        exact hnone rfl c call hcall hticket

/-- The collections of `SCAN_STATE` an id can be in. -/
inductive Place where
  | issued
  | stoppedBeforeStart
  | starting
  | running
  deriving DecidableEq

def ScanState.Holds (state : ScanState) (id : Nat) : Place → Prop
  | .issued => id ∈ state.issued
  | .stoppedBeforeStart => id ∈ state.stoppedBeforeStart
  | .starting => (state.starting.lookup id).isSome = true
  | .running => ∃ w k, state.running.lookup w = some k ∧ k.id = id

/-- An id in a slot is held by the scan in it. -/
theorem running_held (h : system.Reach ok s) (hid : s.shared.scans.Holds id .running) :
    ∃ c call w, s.calls c = some call ∧ call.ticket = .claimed id ∧ call.slot = some (w, id) := by
  obtain ⟨w, k, hk, rfl⟩ := hid
  obtain ⟨call, hcall, hslot⟩ := running_sound h w k hk
  exact ⟨k.scan, call, w, hcall, Call.ticket_of_slot hslot, hslot⟩

/-- An id that some call holds is in neither of the first two collections. -/
theorem not_up_of_claimed (h : system.Reach ok s) {c : CallId} {call : Call}
    (hc : s.calls c = some call) (ht : call.ticket = .claimed id) :
    ¬ s.shared.scans.Holds id .issued ∧ ¬ s.shared.scans.Holds id .stoppedBeforeStart :=
  ⟨(spent_of_claimed h hc ht).not_issued, fun hstopped => (stopped_spent h id hstopped).2 c call hc ht⟩

/-- An id is in one collection at most. -/
theorem place_unique (h : system.Reach ok s) {p q : Place} (hp : s.shared.scans.Holds id p)
    (hq : s.shared.scans.Holds id q) : p = q := by
  have hstopped : s.shared.scans.Holds id .stoppedBeforeStart → ¬ s.shared.scans.Holds id .issued :=
    fun hid => (stopped_spent h id hid).1.not_issued
  have hstarting (hid : s.shared.scans.Holds id .starting) :
      ¬ s.shared.scans.Holds id .issued ∧ ¬ s.shared.scans.Holds id .stoppedBeforeStart := by
    obtain ⟨v, hv⟩ := Option.isSome_iff_exists.mp hid
    obtain ⟨c, call, hc, ht, -⟩ := starting_held h id v hv
    exact not_up_of_claimed h hc ht
  have hrunning (hid : s.shared.scans.Holds id .running) :
      ¬ s.shared.scans.Holds id .issued ∧ ¬ s.shared.scans.Holds id .stoppedBeforeStart := by
    obtain ⟨c, call, w, hc, ht, -⟩ := running_held h hid
    exact not_up_of_claimed h hc ht
  have hboth (hid : s.shared.scans.Holds id .starting) : ¬ s.shared.scans.Holds id .running := by
    intro hrun
    obtain ⟨v, hv⟩ := Option.isSome_iff_exists.mp hid
    obtain ⟨c, call, hc, ht, hslot⟩ := starting_held h id v hv
    obtain ⟨d, call', w, hd, ht', hslot'⟩ := running_held h hrun
    -- The scan about to start and the one in the slot hold the same id, so they are one.
    obtain rfl := handle_unique h hc ht hd ht'
    obtain rfl := Option.some.inj (hc.symm.trans hd)
    rw [hslot] at hslot'
    cases hslot'
  cases p <;> cases q <;> first
    | rfl
    | exact absurd hp (hstopped hq)
    | exact absurd hq (hstopped hp)
    | exact absurd hp (hstarting hq).1
    | exact absurd hp (hstarting hq).2
    | exact absurd hq (hstarting hp).1
    | exact absurd hq (hstarting hp).2
    | exact absurd hp (hrunning hq).1
    | exact absurd hp (hrunning hq).2
    | exact absurd hq (hrunning hp).1
    | exact absurd hq (hrunning hp).2
    | exact absurd hq (hboth hp)
    | exact absurd hp (hboth hq)

/-! ## Ids are unique -/

/-- The id a `create_scan_handle` call has fetched. -/
def Call.fetchedId : Call → Option Nat
  | .createScanHandle h =>
    match h.pos with
    | .fetch => none
    | .insert id => some id
    | .returned handle => some handle.id
  | _ => none

/-- A call fetches the next id, once. -/
theorem Call.next_fetchedId (h : l.next me ch σ = some (l', σ')) :
    l'.fetchedId = l.fetchedId ∧ σ.scanId ≤ σ'.scanId ∨
      l.fetchedId = none ∧ l'.fetchedId = some σ.scanId ∧ σ'.scanId = σ.scanId + 1 := by
  have hscanId : σ.scanId ≤ σ'.scanId := by
    cases Call.scanStep h with
    | same hσ _ _ => exact Nat.le_of_eq hσ.scanId.symm
    | cancelWallet hσ _ _ _ =>
      rw [hσ.scanId, Shared.cancelWalletScans_eq]
    | stopScan hstop _ _ =>
      obtain ⟨scans, tokens, rfl, -⟩ := Shared.stopScan_eq hstop
      exact Nat.le_refl _
    | mint _ => exact Nat.le_succ _
    | _ => exact Nat.le_refl _
  cases l <;> obtain ⟨r, hr, h⟩ := Option.map_eq_some_iff.mp h <;> cases h
  case createScanHandle y =>
    obtain ⟨w, pos⟩ := y
    unfold CreateScanHandle.next at hr
    cases pos with
    | fetch =>
      cases hr
      exact Or.inr ⟨rfl, rfl, rfl⟩
    | insert id' =>
      cases hr
      exact Or.inl ⟨rfl, Nat.le_refl _⟩
    | returned handle => cases hr
  all_goals exact Or.inl ⟨rfl, hscanId⟩

theorem Call.fetchedId_of_starts (h : l.starts = true) : l.fetchedId = none := by
  cases l with
  | createScanHandle y =>
    have hpos : y.pos = .fetch := of_decide_eq_true h
    simp [fetchedId, hpos]
  | _ => rfl

/-- Every id fetched is below the counter, and no two calls fetch the same. -/
theorem fetched_unique (h : system.Reach ok s) :
    (∀ c call id, s.calls c = some call → call.fetchedId = some id → id < s.shared.scanId) ∧
      ∀ c d call call' id, s.calls c = some call → s.calls d = some call' → call.fetchedId = some id →
        call'.fetchedId = some id → c = d := by
  refine h.invariant (I := fun s : World =>
    (∀ c call id, s.calls c = some call → call.fetchedId = some id → id < s.shared.scanId) ∧
      ∀ c d call call' id, s.calls c = some call → s.calls d = some call' → call.fetchedId = some id →
        call'.fetchedId = some id → c = d) ?_ ?_ ?_
  · rintro σ ⟨files, tariCommon, rfl⟩
    exact ⟨fun c call id hc => (by cases hc), fun c d call call' id hc => (by cases hc)⟩
  · intro s m l _ ⟨hlt, hunique⟩ _ hfree hl
    have hold {c : CallId} {call : Call} {id : Nat} (hc : (s.put m l s.shared).calls c = some call)
        (hid : call.fetchedId = some id) : s.calls c = some call := by
      rcases Config.put_calls_eq_some hc with ⟨-, rfl⟩ | ⟨-, hc⟩
      · rw [Call.fetchedId_of_starts hl] at hid
        cases hid
      · exact hc
    exact ⟨fun c call id hc hid => hlt c call id (hold hc hid) hid,
      fun c d call call' id hc hd hid hid' =>
        hunique c d call call' id (hold hc hid) (hold hd hid') hid hid'⟩
  · rintro s m l l' σ' _ ⟨hlt, hunique⟩ _ hm ⟨ch, hstep⟩
    rcases Call.next_fetchedId hstep with ⟨hsame, hle⟩ | ⟨hnone, hnew, hsucc⟩
    · -- Every call has the id it had.
      have hold {c : CallId} {call : Call} {id : Nat} (hc : (s.put m l' σ').calls c = some call)
          (hid : call.fetchedId = some id) : ∃ call, s.calls c = some call ∧ call.fetchedId = some id := by
        rcases Config.put_calls_eq_some hc with ⟨rfl, rfl⟩ | ⟨-, hc⟩
        · exact ⟨l, hm, hsame ▸ hid⟩
        · exact ⟨call, hc, hid⟩
      refine ⟨fun c call id hc hid => ?_, fun c d call call' id hc hd hid hid' => ?_⟩
      · obtain ⟨call, hc, hid⟩ := hold hc hid
        exact Nat.lt_of_lt_of_le (hlt c call id hc hid) hle
      · obtain ⟨call, hc, hid⟩ := hold hc hid
        obtain ⟨call', hd, hid'⟩ := hold hd hid'
        exact hunique c d call call' id hc hd hid hid'
    · -- The mover has the id that no one had.
      have hold {c : CallId} {call : Call} {id : Nat} (hc : (s.put m l' σ').calls c = some call)
          (hid : call.fetchedId = some id) :
          (c = m ∧ id = s.shared.scanId) ∨ s.calls c = some call ∧ id < s.shared.scanId := by
        rcases Config.put_calls_eq_some hc with ⟨rfl, rfl⟩ | ⟨-, hc⟩
        · rw [hnew] at hid
          exact Or.inl ⟨rfl, (Option.some.inj hid).symm⟩
        · exact Or.inr ⟨hc, hlt c call id hc hid⟩
      refine ⟨fun c call id hc hid => ?_, fun c d call call' id hc hd hid hid' => ?_⟩
      · show id < σ'.scanId
        rcases hold hc hid with ⟨-, rfl⟩ | ⟨-, hid⟩ <;> omega
      · rcases hold hc hid with ⟨rfl, rfl⟩ | ⟨hc, hlt⟩ <;> rcases hold hd hid' with ⟨rfl, heq⟩ | ⟨hd, hlt'⟩
        · rfl
        · exact absurd hlt' (Nat.lt_irrefl _)
        · omega
        · exact hunique c d call call' id hc hd hid hid'

/-! ## An early stop wins -/

/-- No scan with this id is in its slot. -/
def World.NotInSlot (s : World) (id : Nat) : Prop :=
  ∀ c x, s.calls c = some (.scan x) → x.handle.id = id → x.pos.stage ≠ .active

/-- The id will get no scan into a slot any more. -/
structure World.Barred (s : World) (id : Nat) : Prop where
  spent : s.Spent id
  starting : s.shared.scans.starting.lookup id = none
  notInSlot : s.NotInSlot id

/-- A step takes a scan into its slot only from `starting`. -/
theorem World.NotInSlot.step (h : s.NotInSlot id) (hstarting : s.shared.scans.starting.lookup id = none)
    (hm : s.calls m = some l) (hstep : l.next m ch s.shared = some (l', σ')) :
    World.NotInSlot (s.put m l' σ') id := by
  intro c x hc hid hactive
  rcases Config.put_calls_eq_some hc with ⟨rfl, rfl⟩ | ⟨-, hc⟩
  · obtain ⟨y, rfl, hnext⟩ := Call.of_next_scan hstep
    have hhandle : y.handle.id = id := by rw [← (Scan.next_same hnext).1, hid]
    rcases (Scan.next_stage hnext).2.1 hactive with hold | ⟨-, hwaiting⟩
    · exact h c y hm hhandle hold
    · rw [hhandle] at hwaiting
      exact hwaiting hstarting
  · exact h c x hc hid hactive

theorem World.NotInSlot.start (h : s.NotInSlot id) (hl : system.start l) :
    World.NotInSlot (s.put m l s.shared) id := by
  intro c x hc hid hactive
  rcases Config.put_calls_eq_some hc with ⟨rfl, rfl⟩ | ⟨-, hc⟩
  · have hx : x = _ := of_decide_eq_true hl
    rw [hx] at hactive
    cases hactive
  · exact h c x hc hid hactive

/-- A barred id stays barred. -/
theorem World.Barred.steps (hs : system.Reach ok s) (h : s.Barred id) {ok' : Guard Shared Call} {t : World}
    (ht : system.Steps ok' s t) : t.Barred id := by
  have hreach : system.Reach (fun _ _ => True) s := reach_any hs
  refine ht.stable (I := fun t : World => t.Barred id) (fun _ _ _ => trivial) ?_ ?_ hreach h
  · intro s m l hs hbarred _ hfree hl
    exact ⟨hbarred.spent.move hs (.start hfree hl), hbarred.starting, hbarred.notInSlot.start hl⟩
  · rintro s m l l' σ' hs hbarred _ hm ⟨ch, hstep⟩
    refine ⟨hbarred.spent.move hs (.step hm ⟨ch, hstep⟩), ?_,
      hbarred.notInSlot.step hbarred.starting hm hstep⟩
    -- Only an id that is up comes into `starting`.
    cases hnew : σ'.scans.starting.lookup id with
    | none => exact hnew
    | some v =>
      rcases (Call.scanStep hstep).starting_origin hnew with hold | ⟨y, -, -, -, -, hissued⟩
      · rw [hbarred.starting] at hold
        cases hold
      · exact absurd hissued hbarred.spent.not_issued

/-- `stop_scan` with a handle that was handed out, while its scan is in no slot. -/
theorem barred_of_stopScan (hs : system.Reach ok s) {x : StopScan}
    (hm : s.calls m = some (.stopScan x)) (hpos : x.pos = .stop)
    (hstep : (Call.stopScan x).next m ch s.shared = some (l', σ')) {c : CallId} {a : CreateScanHandle}
    {handle : ScanHandle} (hc : s.calls c = some (.createScanHandle a)) (hhandle : a.pos = .returned handle)
    (hid : x.handle.id = handle.id) (hslot : s.NotInSlot x.handle.id) :
    World.Barred (s.put m l' σ') x.handle.id := by
  obtain ⟨r, hr, h⟩ := Option.map_eq_some_iff.mp hstep
  cases h
  have hfetched : (Call.createScanHandle a).fetchedId = some x.handle.id := by
    simp [Call.fetchedId, hhandle, hid]
  obtain ⟨hlt, hunique⟩ := fetched_unique hs
  have hstate : r.2.scanId = s.shared.scanId ∧ x.handle.id ∉ r.2.scans.issued ∧
      r.2.scans.starting.lookup x.handle.id = none := by
    obtain ⟨waitFor, scans, tokens, hstop, hσ, -⟩ := StopScan.next_stop hr hpos
    rw [hσ]
    refine ⟨rfl, ?_⟩
    dsimp only
    rcases ScanState.stopScan_cases hstop with ⟨hissued, -, -, heq⟩ | ⟨hissued, -, -, -, heq⟩ |
      ⟨k, hk, hkid, -, -, -⟩ | ⟨hissued, hnone, -, -, -, heq⟩
    · rw [heq]
      refine ⟨Finset.notMem_erase _ _, ?_⟩
      -- An id that is up is not in `starting`.
      cases hv : s.shared.scans.starting.lookup x.handle.id with
      | none => rfl
      | some v =>
        obtain ⟨d, call, hd, ht, -⟩ := starting_held hs _ v hv
        exact absurd hissued (not_issued_of_claimed hs hd ht)
    · rw [heq]
      exact ⟨hissued, AList.lookup_erase _ _⟩
    · obtain ⟨y, hy, hactive, -, hyid, -⟩ := running_scan hs hk
      exact absurd hactive (hslot _ y hy (hyid.trans hkid))
    · rw [heq]
      exact ⟨hissued, hnone⟩
  refine ⟨⟨?_, hstate.2.1, fun d hd => ?_⟩, hstate.2.2, ?_⟩
  · show x.handle.id < r.2.scanId
    rw [hstate.1]
    exact hlt c _ _ hc hfetched
  · -- Nobody is about to put the id up: its handle has been returned.
    obtain ⟨call, hcall, hticket⟩ := Option.map_eq_some_iff.mp hd
    have hminted : call.ticket = .minted x.handle.id := hticket
    rcases Config.put_calls_eq_some hcall with ⟨rfl, rfl⟩ | ⟨-, hcall⟩
    · cases hminted
    · cases call with
      | createScanHandle b =>
        simp only [Call.ticket] at hminted
        split at hminted
        · rename_i hbpos
          obtain rfl := TicketProtocol.Phase.minted.inj hminted
          have hb : (Call.createScanHandle b).fetchedId = some x.handle.id := by
            simp [Call.fetchedId, hbpos]
          obtain rfl := hunique c d _ _ _ hc hcall hfetched hb
          obtain rfl := Call.createScanHandle.inj (Option.some.inj (hc.symm.trans hcall))
          rw [hhandle] at hbpos
          cases hbpos
        · cases hminted
      | scan y =>
        simp only [Call.ticket] at hminted
        split at hminted <;> cases hminted
      | _ => cases hminted
  · intro d y hd hyid hactive
    rcases Config.put_calls_eq_some hd with ⟨-, hy⟩ | ⟨-, hd⟩
    · cases hy
    · exact hslot d y hd hyid hactive

/-- A wallet stop while the id is in `starting`. -/
theorem barred_of_cancel (hs : system.Reach ok s) (hm : s.calls m = some l)
    (hstep : l.next m ch s.shared = some (l', σ')) {w : WalletName} (hof : l.cancelsScansOf = some w)
    (hstarting : s.shared.scans.starting.lookup id = some w) :
    World.Barred (s.put m l' σ') id := by
  obtain ⟨c, call, hc, ht, hslot⟩ := starting_held hs id w hstarting
  have hnone : σ'.scans.starting.lookup id = none := by
    have hcancel : SameScans (s.shared.cancelWalletScans w).2 σ' := by
      cases Call.tokensStep hstep with
      | same hno _ =>
        rw [hno] at hof
        cases hof
      | cancels hof' hcancel =>
        obtain rfl := Option.some.inj (hof.symm.trans hof')
        exact hcancel
      | scan hcall _ _ =>
        subst hcall
        cases hof
      | stopScan hcall _ _ _ _ =>
        subst hcall
        cases hof
    rw [hcancel.scans, Shared.cancelWalletScans_eq]
    cases hv : (Table.retain (fun _ wallet => decide (wallet ≠ w)) s.shared.scans.starting).lookup id with
    | none => rfl
    | some v =>
      obtain ⟨hold, hkeep⟩ := Table.lookup_retain_eq_some.mp hv
      rw [hstarting] at hold
      obtain rfl := Option.some.inj hold
      simp at hkeep
  refine ⟨(spent_of_claimed hs hc ht).move hs (.step hm ⟨ch, hstep⟩), hnone, ?_⟩
  intro d y' hd hid hactive
  -- The scan about to start holds the id, and takes no slot by a step that is not its own.
  rcases Config.put_calls_eq_some hd with ⟨rfl, rfl⟩ | ⟨-, hd⟩
  · obtain ⟨y, rfl, -⟩ := Call.of_next_scan hstep
    cases hof
  · have hy : (Call.scan y').ticket = .claimed id := by simp [Call.ticket, hactive, hid]
    obtain rfl := handle_unique hs hc ht hd hy
    obtain rfl := Option.some.inj (hc.symm.trans hd)
    simp [Call.slot, hactive] at hslot

/-! ## Claiming an id -/

/-- A step that passes the claim with this id. -/
def Footstep.Claims (f : Footstep) (id : Nat) : Prop :=
  ∃ x, f.call = .scan x ∧ x.pos = .claim ∧ x.handle.walletName = x.walletName ∧ x.handle.id = id ∧
    id ∉ f.shared.scans.stoppedBeforeStart ∧ id ∈ f.shared.scans.issued

/-- The configurations of the bridge, with the steps of every call. -/
abbrev StepWorld := Config (Recorded Shared Footstep) Call

/-- Call `c` passed the claim with this id. -/
def StepWorld.Claimed (s : StepWorld) (c : CallId) (id : Nat) : Prop :=
  ∃ f ∈ s.shared.records c, f.Claims id

/-- Past the claim, a scan holds its id. -/
theorem Footstep.Claims.next (hclaims : Footstep.Claims ⟨l, ch, σ⟩ id)
    (h : l.next me ch σ = some (l', σ')) : l'.ticket = .claimed id ∧
      σ'.scans.stoppedBeforeStart = σ.scans.stoppedBeforeStart := by
  obtain ⟨x, hx, hpos, hname, rfl, hstopped, hissued⟩ := hclaims
  dsimp only at hx hstopped hissued
  subst hx
  obtain ⟨x', rfl, hnext⟩ := Call.next_scan h
  unfold Scan.next at hnext
  rw [hpos] at hnext
  simp only [hname, ne_eq, not_true_eq_false, if_false, ScanState.claim, hstopped, hissued, if_true] at hnext
  cases hnext
  exact ⟨rfl, rfl⟩

/-- And only by passing the claim does a call come to hold one. -/
theorem claims_of_claimed (hs : system.Reach ok s) (hstep : l.next m ch s.shared = some (l', σ'))
    (ht' : l'.ticket = .claimed id) (ht : l.ticket ≠ .claimed id) :
    Footstep.Claims ⟨l, ch, s.shared⟩ id := by
  cases Call.scanStep hstep with
  | @claim x _ hpos hname hissued =>
    have hid : x.handle.id = id := TicketProtocol.Phase.claimed.inj ht'
    subst hid
    exact ⟨x, rfl, hpos, hname, rfl, fun hstopped => (stopped_spent hs _ hstopped).1.not_issued hissued,
      hissued⟩
  | same _ hsame _ => exact absurd (hsame.symm.trans ht') ht
  | cancelWallet _ _ hout _ =>
    rw [hout] at ht'
    cases ht'
  | stopScan _ hout _ =>
    rw [hout] at ht'
    cases ht'
  | enter hpos _ | refuse hpos =>
    simp only [Call.ticket, Scan.goto, ScanAt.stage] at ht'
    simp [Call.ticket, hpos, ScanAt.stage, TicketProtocol.Phase.claimed.inj ht'] at ht
  | clear hpos hleft =>
    simp only [Call.ticket, Scan.goto, hleft] at ht'
    simp [Call.ticket, hpos, ScanAt.stage, TicketProtocol.Phase.claimed.inj ht'] at ht
  | cancelSelf hactive hpos hhandle _ =>
    simp only [Call.ticket, hpos, hhandle, hactive] at ht'
    simp [Call.ticket, hactive, TicketProtocol.Phase.claimed.inj ht'] at ht
  | stoppedBefore _ | unstart _ | stop _ | mint _ | issue _ => cases ht'

/-- What is true of the ids that were ever claimed. -/
structure StepWorld.ClaimsSound (s : StepWorld) : Prop where
  spent : ∀ c id, s.Claimed c id → World.Spent (Recording.plain s) id ∧
    id ∉ s.shared.shared.scans.stoppedBeforeStart
  once : ∀ c d id, s.Claimed c id → s.Claimed d id → c = d
  holders : ∀ c call id, s.calls c = some call → call.ticket = .claimed id → s.Claimed c id

theorem claims_sound {s : StepWorld} (h : footsteps.recorded.Reach (Recording.guard ok) s) :
    StepWorld.ClaimsSound s := by
  refine h.invariant (I := StepWorld.ClaimsSound) ?_ ?_ ?_
  · rintro r ⟨-, hr⟩
    have hnone (c : CallId) (id : Nat) : ¬ StepWorld.Claimed ⟨r, fun _ => none⟩ c id := by
      rintro ⟨f, hf, -⟩
      rw [show r.records c = [] from congrFun hr c] at hf
      cases hf
    exact ⟨fun c id hc => absurd hc (hnone c id), fun c d id hc => absurd hc (hnone c id),
      fun c call id hc => (by cases hc)⟩
  · intro (s : StepWorld) m l hs ⟨hspent, honce, hholders⟩ _ hfree hl
    refine ⟨fun c id hc => ?_, honce, fun c call id hc ht => ?_⟩
    · obtain ⟨hs₁, hstopped⟩ := hspent c id hc
      exact ⟨hs₁.move (Recording.forget hs) (.start hfree hl), hstopped⟩
    · rcases Config.put_calls_eq_some hc with ⟨rfl, rfl⟩ | ⟨-, hc⟩
      · have hout : call.ticket = .out := (ticketHom fun _ _ => True).start hl
        rw [hout] at ht
        cases ht
      · exact hholders c call id hc ht
  · rintro (s : StepWorld) m l l' r' hs ⟨hspent, honce, hholders⟩ hok hm hrecorded
    obtain ⟨ch, σ', hnext, rfl⟩ := hrecorded
    have hplain : system.Reach ok (Recording.plain s) := Recording.forget hs
    have hstep : l.next m ch s.shared.shared = some (l', σ') := hnext
    have hmove : system.Move (.step m) (Recording.plain s)
        ((Recording.plain s).put m l' σ') := .step hm ⟨ch, hstep⟩
    have hafter : system.Reach ok ((Recording.plain s).put m l' σ') := .move hplain hok hmove
    -- A claim is an old one, or the mover's own now.
    have hcases {c : CallId} {id : Nat}
        (hc : StepWorld.Claimed (s.put m l' (Recording.write s.shared m [⟨l, ch, s.shared.shared⟩] σ')) c id) :
        s.Claimed c id ∨ c = m ∧ Footstep.Claims ⟨l, ch, s.shared.shared⟩ id := by
      obtain ⟨f, hf, hclaims⟩ := hc
      rw [Config.put_shared] at hf
      by_cases hcm : c = m
      · subst hcm
        rw [Recording.write_records_self] at hf
        rcases List.mem_append.mp hf with hf | hf
        · exact Or.inl ⟨f, hf, hclaims⟩
        · obtain rfl := List.mem_singleton.mp hf
          exact Or.inr ⟨rfl, hclaims⟩
      · rw [Recording.write_records_ne _ _ _ hcm] at hf
        exact Or.inl ⟨f, hf, hclaims⟩
    have hnew {id : Nat} (hclaims : Footstep.Claims ⟨l, ch, s.shared.shared⟩ id) :
        ∀ c, ¬ s.Claimed c id := by
      intro c hc
      obtain ⟨x, -, -, -, -, -, hissued⟩ := hclaims
      exact (hspent c id hc).1.not_issued hissued
    have hold {c : CallId} {id : Nat} (hc : s.Claimed c id) : StepWorld.Claimed
        (s.put m l' (Recording.write s.shared m [⟨l, ch, s.shared.shared⟩] σ')) c id := by
      obtain ⟨f, hf, hclaims⟩ := hc
      exact ⟨f, Recording.records_grow ⟨ch, σ', hnext, rfl⟩ hf, hclaims⟩
    refine ⟨fun c id hc => ?_, fun c d id hc hd => ?_, fun c call id hc ht => ?_⟩
    · rcases hcases hc with hc | ⟨rfl, hclaims⟩
      · obtain ⟨hs₁, hstopped⟩ := hspent c id hc
        refine ⟨hs₁.move hplain hmove, fun hid => ?_⟩
        rcases (Call.scanStep hstep).stopped_origin hid with hid | ⟨hissued, -⟩
        · exact hstopped hid
        · exact hs₁.not_issued hissued
      · obtain ⟨ht, hstopped⟩ := hclaims.next hstep
        refine ⟨spent_of_claimed hafter (Config.put_calls_self (Recording.plain s) c l' σ') ht, fun hid => ?_⟩
        obtain ⟨x, -, -, -, -, hnot, -⟩ := hclaims
        exact hnot (hstopped ▸ hid)
    · rcases hcases hc with hcold | ⟨rfl, hclaims⟩ <;> rcases hcases hd with hdold | ⟨rfl, hclaims'⟩
      · exact honce c d id hcold hdold
      · exact absurd hcold (hnew hclaims' c)
      · exact absurd hdold (hnew hclaims d)
      · rfl
    · rcases Config.put_calls_eq_some hc with ⟨rfl, rfl⟩ | ⟨-, hc⟩
      · by_cases htl : l.ticket = .claimed id
        · exact hold (hholders c l id hm htl)
        · refine ⟨⟨l, ch, s.shared.shared⟩, ?_, claims_of_claimed hplain hstep ht htl⟩
          rw [Config.put_shared, Recording.write_records_self]
          exact List.mem_append_right _ List.mem_cons_self
      · exact hold (hholders c call id hc ht)

/-! ## One handle, one scan -/

/-- What holds of the handles of the bridge at any time. -/
structure StepWorld.Handles (s : StepWorld) : Prop where
  /-- Two `create_scan_handle` calls return different ids. -/
  unique : ∀ c d a b handle handle', s.calls c = some (.createScanHandle a) →
    s.calls d = some (.createScanHandle b) → a.pos = .returned handle → b.pos = .returned handle' →
      handle.id = handle'.id → c = d
  /-- An id is in one collection at most. -/
  place : ∀ id p q, s.shared.shared.scans.Holds id p → s.shared.shared.scans.Holds id q → p = q
  /-- One call at most passes the claim. -/
  claimed : ∀ c d id, s.Claimed c id → s.Claimed d id → c = d
  /-- `stop_scan` before the scan is in its slot keeps it out for good. -/
  stopped : ∀ m x ch l' σ' c a handle, s.calls m = some (.stopScan x) → x.pos = .stop →
    (Call.stopScan x).next m ch s.shared.shared = some (l', σ') →
    s.calls c = some (.createScanHandle a) → a.pos = .returned handle → x.handle.id = handle.id →
    World.NotInSlot (Recording.plain s) x.handle.id →
      ∀ ok' (t : World), system.Steps ok' ((Recording.plain s).put m l' σ') t → t.NotInSlot x.handle.id
  /-- So does a stop of the wallet while the id is in `starting`. -/
  cancelled : ∀ m l ch l' σ' w id, s.calls m = some l → l.next m ch s.shared.shared = some (l', σ') →
    l.cancelsScansOf = some w → s.shared.shared.scans.starting.lookup id = some w →
      ∀ ok' (t : World), system.Steps ok' ((Recording.plain s).put m l' σ') t → t.NotInSlot id
  /-- When the call that claimed an id has returned, nothing is left of the id. -/
  returned : ∀ c call id, s.Claimed c id → s.calls c = some call → call.returned = true →
    ∀ p, ¬ s.shared.shared.scans.Holds id p

/-- One handle, one scan, and an early stop always wins. -/
theorem one_handle_one_scan {s : StepWorld} (h : footsteps.recorded.Reach (Recording.guard ok) s) :
    StepWorld.Handles s := by
  have hplain : system.Reach ok (Recording.plain s) := Recording.forget h
  have hclaims := claims_sound h
  have hmoved {m : CallId} {l l' : Call} {ch : Choice} {σ' : Shared} (hm : s.calls m = some l)
      (hstep : l.next m ch s.shared.shared = some (l', σ')) :
      system.Reach (fun _ _ => True) ((Recording.plain s).put m l' σ') :=
    .move (reach_any hplain) trivial (.step hm ⟨ch, hstep⟩)
  refine ⟨?_, fun id p q hp hq => place_unique hplain hp hq, hclaims.once, ?_, ?_, ?_⟩
  · intro c d a b handle handle' hc hd ha hb hid
    refine (fetched_unique hplain).2 c d _ _ handle.id hc hd ?_ ?_
    · simp [Call.fetchedId, ha]
    · simp [Call.fetchedId, hb, hid]
  · intro m x ch l' σ' c a handle hm hpos hstep hc ha hid hslot ok' t ht
    have hbarred := barred_of_stopScan hplain hm hpos hstep hc ha hid hslot
    exact (hbarred.steps (hmoved hm hstep) ht).notInSlot
  · intro m l ch l' σ' w id hm hstep hof hstarting ok' t ht
    have hbarred := barred_of_cancel hplain hm hstep hof hstarting
    exact (hbarred.steps (hmoved hm hstep) ht).notInSlot
  · intro c call id hclaimed hc hreturned p hp
    obtain ⟨hspent, hstopped⟩ := hclaims.spent c id hclaimed
    -- Whoever holds the id now is the call that claimed it, and that one is over.
    have hfree : ∀ d call', s.calls d = some call' → call'.ticket ≠ .claimed id := by
      intro d call' hd ht
      obtain rfl := hclaims.once c d id hclaimed (hclaims.holders d call' id hd ht)
      obtain rfl := Option.some.inj (hc.symm.trans hd)
      cases call with
      | scan y =>
        obtain ⟨handle, w, priority, continuous, rescanFrom, pos, dbPath,
          forwarder, checked, swept, rolledBack⟩ := y
        cases pos with
        | returned r => cases ht
        | _ => cases hreturned
      | createScanHandle a =>
        simp only [Call.ticket] at ht
        split at ht <;> cases ht
      | _ => cases ht
    cases p with
    | issued => exact hspent.not_issued hp
    | stoppedBeforeStart => exact hstopped hp
    | starting =>
      obtain ⟨v, hv⟩ := Option.isSome_iff_exists.mp hp
      obtain ⟨d, call', hd, ht, -⟩ := starting_held hplain id v hv
      exact hfree d call' hd ht
    | running =>
      obtain ⟨d, call', w, hd, ht, -⟩ := running_held hplain hp
      exact hfree d call' hd ht

/-- `Claims`, decided. -/
def Footstep.claims (id : Nat) (f : Footstep) : Bool :=
  match f.call with
  | .scan x => decide (x.pos = .claim) && decide (x.handle.walletName = x.walletName) &&
      decide (x.handle.id = id) && decide (id ∉ f.shared.scans.stoppedBeforeStart) &&
      decide (id ∈ f.shared.scans.issued)
  | _ => false

theorem Footstep.claims_sound {f : Footstep} (h : f.claims id = true) : f.Claims id := by
  obtain ⟨call, choice, shared⟩ := f
  cases call with
  | scan x =>
    simp only [claims, Bool.and_eq_true, decide_eq_true_eq] at h
    obtain ⟨⟨⟨⟨hpos, hname⟩, hid⟩, hstopped⟩, hissued⟩ := h
    exact ⟨x, rfl, hpos, hname, hid, hstopped, hissued⟩
  | _ => cases h

/-- A scan of "main" that is about to take its slot is stopped, and returns. -/
def stoppedEarly : Option StepWorld :=
  (footsteps.replay 4 Call.starts fun _ _ => true).exec freshSteps (unlocks 0 firstPath ++
    .start 1 (.createScanHandle ⟨"main", .fetch⟩) :: go 1 2 ++
    .start 2 (.scan ⟨⟨"main", 0⟩, "main", .foreground, false, none, .claim, none, {}, none, none, none⟩) ::
      go 2 6 ++
    .start 3 (.stopScan ⟨⟨"main", 0⟩, .stop⟩) :: go 3 1 ++ go 2 5)

theorem one_handle_one_scan_stoppedEarly : ∃ s, stoppedEarly = some s ∧ StepWorld.Handles s ∧
    ∀ p, ¬ s.shared.shared.scans.Holds 0 p := by
  obtain ⟨s, hs⟩ := Option.isSome_iff_exists.mp (by decide : stoppedEarly.isSome = true)
  have hclaims : stoppedEarly.map (fun s => (s.shared.records 2).any (Footstep.claims 0)) = some true := by
    decide
  have hreturned : (stoppedEarly.bind fun s => s.calls 2).map Call.returned = some true := by decide
  rw [hs] at hclaims hreturned
  obtain ⟨call, hcall, hover⟩ := Option.map_eq_some_iff.mp hreturned
  obtain ⟨f, hf, hclaim⟩ := List.any_eq_true.mp (Option.some.inj hclaims)
  have hclaimed : StepWorld.Claimed s 2 0 := ⟨f, hf, Footstep.claims_sound hclaim⟩
  have hR : (footsteps.replay 4 Call.starts fun _ _ => true).Sound footsteps.recorded
      (Recording.guard fun _ _ => True) :=
    Recording.replay_sound (fun _ h => h) fun _ _ _ _ => trivial
  have hreach : footsteps.recorded.Reach (Recording.guard fun _ _ => True) s :=
    hR.reach ⟨fresh_init, rfl⟩ hs
  have hhandles := one_handle_one_scan hreach
  exact ⟨s, hs, hhandles, hhandles.returned 2 call 0 hclaimed hcall hover⟩

end CwTariWallet
