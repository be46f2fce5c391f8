/-
# CwTariWallet.Bridge.StreamWaits -- which streams a stop waits for

A stop finds a scan only through its wallet's slot, and a scan clears its slot before it sends its
terminal event.  So what a stop waits for is decided in its one critical section: `stop_scan` waits for
the scan that is in the slot there, and `stop_wallet_scans` for that one and every replaced scan it is
still waiting for (`stop_waits_iff`).  A scan that has cleared its slot, or was replaced while it was being
stopped, ends its stream behind the back of the stop.
-/
import CwTariWallet.Bridge.Handles
import CwTariWallet.Bridge.Streams
import CwTariWallet.Bridge.Waiting

namespace CwTariWallet

open Interleaving WaitGraph

variable {me X c d : CallId} {ch : Choice} {σ σ' : Shared} {w : WalletName} {ok : Guard Shared Call}
  {s t : World} {x x' : Scan} {call call' : Call}

/-! ## A scan runs to its end -/

/-- How many steps a scan that has come to its slot has left, at most, once its scanner ends. -/
def ScanAt.stepsLeft : ScanAt → Nat
  | .dropMaintenance _ => 17
  | .waitPrevious _ => 16
  | .firstCheck => 15
  | .sweepConn => 14
  | .sweep _ => 13
  | .rollbackConn _ => 12
  | .rollback _ _ => 11
  | .secondCheck => 10
  | .running => 9
  | .draining _ => 8
  | .readSuperseded => 7
  | .clear _ => 6
  | .goneConn _ => 5
  | .gone _ _ | .leaveMaintenance _ => 4
  | .unstart _ => 3
  | .terminal _ => 2
  | .stop _ => 1
  | _ => 0

/-- Every step takes it closer, when the scanner has nothing more to say. -/
theorem Scan.stepsLeft_lt (h : x.next me .refused σ = some (x', σ')) (hrank : 2 ≤ x.pos.stage.rank) :
    x'.pos.stepsLeft < x.pos.stepsLeft := by
  obtain ⟨handle, v, priority, continuous, rescanFrom, pos, dbPath, forwarder, checked, swept, rolledBack⟩ := x
  unfold next at h
  cases pos with
  | claim | dbPath | conn | account file | check file | maintenance | slot =>
    simp [ScanAt.stage, ScanStage.rank] at hrank
  | sweepConn | sweep file =>
    cases rescanFrom <;> dsimp only at h <;> (repeat' split at h) <;> cases h <;>
      simp [goto, afterSweep, ScanAt.stepsLeft]
  | dropMaintenance previous =>
    cases previous <;> cases h <;> simp [goto, ScanAt.stepsLeft]
  | running | draining result =>
    dsimp only at h
    split at h
    · cases (show (none : Option (ProcessingEvent × Bool)) = some _ from ‹_›)
    · (repeat' split at h) <;> cases h <;> simp [goto, ScanAt.stepsLeft]
  | _ =>
    dsimp only at h
    (repeat' split at h) <;> cases h <;> simp [goto, ScanAt.stepsLeft]

/-- A scan that has come to its slot can run to its end, by itself, unless it has to wait. -/
theorem runs_to_end {n : Nat} : ∀ {s : World} {x : Scan}, system.Reach (fun _ _ => True) s →
    s.calls d = some (.scan x) → 2 ≤ x.pos.stage.rank → x.pos.stepsLeft = n →
    (∀ e, x.pos.follows = some e → (s.shared.tokens e).stopped = true) →
      ∃ t, system.Steps (fun _ _ => True) s t ∧ (t.shared.tokens d).stopped = true ∧
        (∀ e, (s.shared.tokens e).stopped = true → (t.shared.tokens e).stopped = true) ∧
        ∀ c, c ≠ d → t.calls c = s.calls c := by
  induction n using Nat.strong_induction_on with
  | _ n ih =>
    intro s x hs hd hrank hn hfollows
    by_cases hreturned : (Call.scan x).returned = true
    · exact ⟨s, .refl, stopped_of_returned hs hd hreturned, fun _ he => he, fun _ _ => rfl⟩
    -- It does not wait, so it takes a step.
    have hfree : ∀ r, x.pos.awaits x.walletName = some r → s.shared.holder r = none := by
      intro r hr
      obtain ⟨e, rfl, he⟩ := ScanAt.follows_of_entered hrank hr
      simp [Shared.holder, hfollows e he]
    obtain ⟨⟨x', σ'⟩, hnext⟩ := x.exists_next hfree (Bool.eq_false_iff.mpr hreturned)
    have hstep : (Call.scan x).next d .refused s.shared = some (.scan x', σ') := by
      rw [Call.next, hnext]
      rfl
    have hstopped : ∀ e, (s.shared.tokens e).stopped = true → (σ'.tokens e).stopped = true :=
      fun _ he => (Call.scanStep hstep).stopped he
    have hlt := Scan.stepsLeft_lt hnext hrank
    have hrank' := Nat.le_trans hrank (Scan.next_rank hnext)
    have hmove : system.Move (.step d) s (s.put d (.scan x') σ') := .step hd ⟨_, hstep⟩
    have hs' : system.Reach (fun _ _ => True) (s.put d (.scan x') σ') := .move hs trivial hmove
    have hfollows' : ∀ e, x'.pos.follows = some e → (σ'.tokens e).stopped = true := by
      intro e he
      rcases Scan.follows_new hnext he with hold | ⟨hstarting, -⟩
      · exact hstopped e (hfollows e hold)
      · rw [hstarting] at hrank
        cases hrank with | step h => cases h
    obtain ⟨t, ht, hend, hkept, hothers⟩ := ih _ (hn ▸ hlt) hs' (Config.put_calls_self _ _ _ _) hrank' rfl
      hfollows'
    refine ⟨t, (System.Steps.move .refl trivial hmove).trans ht, hend,
      fun e he => hkept e (hstopped e he), fun c hc => ?_⟩
    rw [hothers c hc, Config.put_calls_ne _ _ _ hc]

/-- And so can one that follows others, after them. -/
theorem chain_runs_to_end (h : system.Reach (fun _ _ => True) s) (hd : s.Entered d) :
    ∃ t, system.Steps (fun _ _ => True) s t ∧ (t.shared.tokens d).stopped = true ∧
      ∀ c, ¬ Relation.ReflTransGen s.Follows d c → t.calls c = s.calls c := by
  have hends := unwinds_follows h d
  induction hends with
  | intro d _ ih =>
    obtain ⟨x, hx, hrank⟩ := hd
    cases hfollows : x.pos.follows with
    | none =>
      obtain ⟨t, ht, hend, -, hothers⟩ := runs_to_end h hx hrank rfl (by rw [hfollows]; nofun)
      refine ⟨t, ht, hend, fun c hc => hothers c ?_⟩
      rintro rfl
      exact hc .refl
    | some e =>
      have hde : s.Follows d e := ⟨x, hx, hfollows⟩
      obtain ⟨t, ht, hend, hothers⟩ := ih e hde (entered_of_scan_follows h hde).2
      -- The scan is not on the chain behind it.
      have hdt : t.calls d = some (.scan x) := by
        rw [hothers d, hx]
        intro hed
        exact (unwinds_follows h d).not_cycle (Relation.TransGen.head' hde hed)
      have hreach : system.Reach (fun _ _ => True) t := h.steps (fun _ _ h => h) ht
      obtain ⟨u, hu, hendu, -, hothersu⟩ := runs_to_end hreach hdt hrank rfl (by
        intro e' he'
        obtain rfl := Option.some.inj (hfollows.symm.trans he')
        exact hend)
      refine ⟨u, ht.trans hu, hendu, fun c hc => ?_⟩
      have hcd : c ≠ d := by
        rintro rfl
        exact hc .refl
      rw [hothersu c hcd, hothers c fun hec => hc (.head hde hec)]

/-! ## What a stop waits for -/

/-- Scan `c` has sent its terminal event. -/
def World.Delivered (s : World) (c : CallId) : Prop :=
  ∃ x, s.calls c = some (.scan x) ∧ x.pos.ended.isSome = true

/-- Scan `c` was in its slot, now or before. -/
def World.TookSlot (s : World) (c : CallId) : Prop :=
  ∃ s₀ x, system.Reach (fun _ _ => True) s₀ ∧ system.Steps (fun _ _ => True) s₀ s ∧
    s₀.calls c = some (.scan x) ∧ x.pos.stage = .active

/-- A call about to stop scan `c`: by its handle, unless it is superseded, or with all of its wallet's
scans. -/
def World.AboutToStop (s : World) (call : Call) (c : CallId) (x : Scan) : Prop :=
  call.stopAt = some (x.walletName, .cancel) ∨
    call = .stopScan ⟨x.handle, .stop⟩ ∧ (s.shared.tokens c).superseded = false

/-- The stop that brings call `X` to `call` waits for the stream of scan `c`: as long as its terminal
event has not been sent, `X` stands where it waits for a scan to stop. -/
def World.WaitsForStream (s : World) (X : CallId) (call : Call) (c : CallId) : Prop :=
  ∀ t : World, system.Steps (fun _ _ => True) s t →
    t.Delivered c ∨ t.calls X = some call ∧ ∃ r, call.awaits = some (.stopped r)

/-- The slot leads a stop to scan `c`: `c` is in it, or, for a stop of all the wallet's scans, the scan in
it still waits for `c`, maybe through others. -/
def World.SlotLeadsTo (s : World) (call : Call) (c : CallId) (x : Scan) : Prop :=
  ∃ k, s.shared.scans.running.lookup x.walletName = some k ∧
    (k.scan = c ∨ call.stopAt ≠ none ∧ Relation.ReflTransGen s.Follows k.scan c)

/-! ### Facts of a stop -/

theorem Call.awaits_of_stopAt {r : CallId} (h : call.stopAt = some (w, .wait r)) :
    call.awaits = some (.stopped r) ∧ call.returned = false := by
  unfold stopAt at h
  split at h
  · cases h
    exact ⟨rfl, rfl⟩
  · rename_i v e
    cases e <;> cases h
    exact ⟨rfl, rfl⟩
  · rename_i v change file e
    cases e <;> cases h
    exact ⟨rfl, rfl⟩
  · rename_i v change e changed
    cases e <;> cases h
    exact ⟨rfl, rfl⟩
  · cases h
    exact ⟨rfl, rfl⟩
  · cases h
    exact ⟨rfl, rfl⟩
  · cases h

/-- A call that is no scan, nor a `stop_scan`, waits for a scan only in `stop_wallet_scans`. -/
theorem Call.stopAt_of_follows (h : call.follows = some d) (hscan : ∀ x, call ≠ .scan x)
    (hstop : ∀ x, call ≠ .stopScan x) : ∃ v, call.stopAt = some (v, .wait d) := by
  cases call with
  | scan x => exact absurd rfl (hscan x)
  | stopScan x => exact absurd rfl (hstop x)
  | _ =>
    dsimp only [follows] at h
    split at h
    · cases h
      exact ⟨_, ‹_›⟩
    · cases h

theorem Call.ne_of_stopAt (h : call.stopAt ≠ none) : (∀ x, call ≠ .scan x) ∧ ∀ x, call ≠ .stopScan x := by
  constructor <;> rintro x rfl <;> exact h rfl

theorem Call.of_next_stopScan {y : StopScan} (h : call.next me ch σ = some (.stopScan y, σ')) :
    ∃ x, call = .stopScan x ∧ x.next σ = some (y, σ') := by
  cases call <;> obtain ⟨r, hr, h⟩ := Option.map_eq_some_iff.mp h <;> cases h
  exact ⟨_, rfl, hr⟩

/-- A call in a stop stays the kind of call it is. -/
theorem Call.next_ne_of_stopAt (h : call.next me ch σ = some (call', σ')) (hs : call.stopAt ≠ none) :
    (∀ x, call' ≠ .scan x) ∧ ∀ x, call' ≠ .stopScan x := by
  obtain ⟨hscan, hstop⟩ := Call.ne_of_stopAt hs
  constructor
  · rintro x rfl
    obtain ⟨y, rfl, -⟩ := Call.of_next_scan h
    exact hscan y rfl
  · rintro x rfl
    obtain ⟨y, rfl, -⟩ := Call.of_next_stopScan h
    exact hstop y rfl

theorem StopAt.slotPhase_ne_done (s : StopAt) : s.slotPhase ≠ .done := by
  cases s <;> nofun

theorem EverywhereAt.slotPhase_ne_done (e : EverywhereAt) : e.slotPhase ≠ .done := by
  cases e with
  | stop s => exact s.slotPhase_ne_done
  | _ => nofun

theorem Call.returned_of_done (h : call.slotPhase w = .done) :
    ∃ x r, call = .scan x ∧ x.pos = .returned r := by
  cases call with
  | scan x =>
    refine ⟨x, ?_⟩
    dsimp only [slotPhase] at h
    cases hpos : x.pos <;> rw [hpos] at h <;> split at h <;> first | exact ⟨_, rfl, rfl⟩ | cases h
  | withWalletLocked m =>
    obtain ⟨v, change, pos⟩ := m
    dsimp only [slotPhase] at h
    split at h
    · cases pos with
      | lockBefore file e => exact absurd h e.slotPhase_ne_done
      | _ => cases h
    · cases h
  | changePassphrase p =>
    obtain ⟨v, old, new, pos⟩ := p
    dsimp only [slotPhase] at h
    split at h
    · cases pos with
      | stop s => exact absurd h s.slotPhase_ne_done
      | _ => cases h
    · cases h
  | abandonSend a =>
    obtain ⟨v, passphrase, transactionId, pos⟩ := a
    dsimp only [slotPhase] at h
    split at h
    · cases pos with
      | stop s account => exact absurd h s.slotPhase_ne_done
      | _ => cases h
    · cases h
  | _ => cases h

/-- A scan whose token has fired has returned. -/
theorem returned_of_stopped (h : system.Reach ok s) (hd : (s.shared.tokens d).stopped = true) :
    ∃ x r, s.calls d = some (.scan x) ∧ x.pos = .returned r := by
  have hdone := SlotProtocol.done_of_stopped ((slotHom ok "").reach_any h) d hd
  obtain ⟨call, hcall, hphase⟩ := Option.map_eq_some_iff.mp hdone
  obtain ⟨x, r, rfl, hr⟩ := Call.returned_of_done hphase
  exact ⟨x, r, hcall, hr⟩

/-! ### Chains from the slot -/

theorem Scan.ended_next (h : x.next me ch σ = some (x', σ')) (hended : x.pos.ended.isSome = true) :
    x'.pos.ended.isSome = true := by
  obtain ⟨handle, v, priority, continuous, rescanFrom, pos, dbPath, forwarder, checked, swept, rolledBack⟩ := x
  unfold next at h
  cases pos with
  | stop r =>
    cases h
    rfl
  | returned r => cases h
  | _ => cases hended

/-- A terminal event that has been sent stays sent. -/
theorem World.Delivered.put (h : s.Delivered c) {m : CallId} {l l' : Call} (hm : s.calls m = some l)
    (hstep : l.next m ch s.shared = some (l', σ')) : World.Delivered (s.put m l' σ') c := by
  obtain ⟨x, hx, hended⟩ := h
  obtain ⟨x', hx', ⟨-, hnext⟩ | ⟨-, rfl⟩⟩ := scan_put hm hstep hx
  · exact ⟨x', hx', Scan.ended_next hnext hended⟩
  · exact ⟨x', hx', hended⟩

/-- A scan goes on following the other until that has stopped. -/
theorem Scan.follows_kept (h : x.next me ch σ = some (x', σ')) (hd : x.pos.follows = some d) :
    x'.pos.follows = some d ∨ (σ.tokens d).stopped = true := by
  obtain ⟨handle, v, priority, continuous, rescanFrom, pos, dbPath, forwarder, checked, swept, rolledBack⟩ := x
  unfold next at h
  cases pos with
  | dropMaintenance previous =>
    cases hd
    cases h
    exact Or.inl rfl
  | waitPrevious previous =>
    cases hd
    dsimp only at h
    split at h <;> cases h
    exact Or.inr ‹_›
  | _ => cases hd

/-- A chain from a scan that has stopped leads nowhere else. -/
theorem delivered_of_stopped (h : system.Reach ok s) {r : CallId}
    (hr : (s.shared.tokens r).stopped = true) (hchain : Relation.ReflTransGen s.Follows r c) :
    s.Delivered c := by
  obtain ⟨y, result, hy, hpos⟩ := returned_of_stopped h hr
  rcases hchain.cases_head with rfl | ⟨e, ⟨y', hy', he⟩, -⟩
  · exact ⟨y, hy, by rw [hpos]; rfl⟩
  · obtain rfl := Call.scan.inj (Option.some.inj (hy.symm.trans hy'))
    rw [hpos] at he
    cases he

/-- Whoever moves, a chain to a scan stays, or the scan has sent its terminal event: nobody stops
following a scan that goes on. -/
theorem chain_put (h : system.Reach ok s) {m : CallId} {l l' : Call} (hm : s.calls m = some l)
    (hstep : l.next m ch s.shared = some (l', σ')) {r : CallId}
    (hchain : Relation.ReflTransGen s.Follows r c) :
    s.Delivered c ∨ Relation.ReflTransGen (World.Follows (s.put m l' σ')) r c := by
  induction hchain using Relation.ReflTransGen.head_induction_on with
  | refl => exact Or.inr .refl
  | head hab hbc ih =>
    rename_i a b
    rcases ih with hdelivered | hchain
    · exact Or.inl hdelivered
    obtain ⟨x, hx, hb⟩ := hab
    obtain ⟨x', hx', ⟨-, hnext⟩ | ⟨-, rfl⟩⟩ := scan_put hm hstep hx
    · rcases Scan.follows_kept hnext hb with hkept | hstopped
      · exact Or.inr (.head ⟨x', hx', hkept⟩ hchain)
      · exact Or.inl (delivered_of_stopped h hstopped hbc)
    · exact Or.inr (.head ⟨x', hx', hb⟩ hchain)

/-- Whoever waits for a scan waits for every stream at the end of a chain from it. -/
theorem waitsForStream_of_chain (h : system.Reach (fun _ _ => True) s) (hX : s.calls X = some call)
    {r : CallId} (hwait : call.awaits = some (.stopped r))
    (hchain : Relation.ReflTransGen s.Follows r c) : s.WaitsForStream X call c := by
  intro t ht
  have hstable : t.Delivered c ∨ t.calls X = some call ∧ Relation.ReflTransGen t.Follows r c := by
    refine ht.stable (I := fun t : World => t.Delivered c ∨
      t.calls X = some call ∧ Relation.ReflTransGen t.Follows r c) (fun _ _ h => h) ?_ ?_ h
      (Or.inr ⟨hX, hchain⟩)
    · intro (u : World) m l _ hu _ hfree _
      rcases hu with ⟨x, hx, hended⟩ | ⟨hX, hchain⟩
      · exact Or.inl ⟨x, Config.put_calls_of_free hfree hx, hended⟩
      · refine Or.inr ⟨Config.put_calls_of_free hfree hX, ?_⟩
        refine Relation.ReflTransGen.mono (fun a b hab => ?_) _ _ hchain
        obtain ⟨x, hx, hb⟩ := hab
        exact ⟨x, Config.put_calls_of_free hfree hx, hb⟩
    · rintro (u : World) m l l' σ' hreach hu _ hm ⟨ch, hstep⟩
      rcases hu with hdelivered | ⟨hX, hchain⟩
      · exact Or.inl (hdelivered.put hm hstep)
      by_cases hmX : X = m
      · -- The stop goes on, so the scan it waits for has stopped.
        subst hmX
        obtain rfl := Option.some.inj (hX.symm.trans hm)
        have hstopped : (u.shared.tokens r).stopped = true := by
          by_contra hrunning
          have hholder : u.shared.holder (.stopped r) = some r := by simp [Shared.holder, hrunning]
          rw [Call.next_of_waits hwait hholder] at hstep
          cases hstep
        exact Or.inl ((delivered_of_stopped hreach hstopped hchain).put hm hstep)
      · rcases chain_put hreach hm hstep hchain with hdelivered | hchain'
        · exact Or.inl (hdelivered.put hm hstep)
        · exact Or.inr ⟨by rw [Config.put_calls_ne _ _ _ hmX]; exact hX, hchain'⟩
  rcases hstable with hdelivered | ⟨hX, -⟩
  · exact Or.inl hdelivered
  · exact Or.inr ⟨hX, r, hwait⟩

/-! ## Scans by their handle -/

theorem Scan.next_claim (h : x.next me ch σ = some (x', σ')) (hpos : x.pos = .claim)
    (hstarting : x'.pos.stage = .starting) : x.handle.walletName = x.walletName := by
  unfold next at h
  rw [hpos] at h
  dsimp only at h
  split at h
  · cases h
    cases hstarting
  · exact Classical.not_not.mp ‹_›

/-- A scan that is past its claim names the wallet its handle names. -/
theorem handle_walletName (h : system.Reach ok s) (hc : s.calls c = some (.scan x))
    (hclaimed : x.pos.stage = .starting ∨ x.pos.stage = .active) :
    x.handle.walletName = x.walletName := by
  refine h.outline (A := fun _ call _ => ∀ x, call = .scan x →
    x.pos.stage = .starting ∨ x.pos.stage = .active → x.handle.walletName = x.walletName)
    ?_ ?_ ?_ hc x rfl hclaimed
  · rintro s c call _ _ hl x rfl hstage
    have hx : x = _ := of_decide_eq_true hl
    rw [hx] at hstage
    rcases hstage with hstage | hstage <;> cases hstage
  · rintro s c call call' σ' _ _ _ hA ⟨ch, hstep⟩ x' rfl hstage
    obtain ⟨x, rfl, hnext⟩ := Call.of_next_scan hstep
    obtain ⟨hhandle, hwallet⟩ := Scan.next_same hnext
    obtain ⟨hstarting, hactive, -⟩ := Scan.next_stage hnext
    rw [hhandle, hwallet]
    rcases hstage with hstage | hstage
    · rcases hstarting hstage with hold | hpos
      · exact hA x rfl (Or.inl hold)
      · exact Scan.next_claim hnext hpos hstage
    · rcases hactive hstage with hold | ⟨hpos, -⟩
      · exact hA x rfl (Or.inr hold)
      · exact hA x rfl (Or.inl (by rw [hpos]; rfl))
  · intro s c call call' σ' d m _ _ _ _ _ _ _ hB
    exact hB


/-- The id of a scan that was in its slot names no other scan, ever after. -/
theorem claimed_only (hs : system.Reach (fun _ _ => True) s) (hc : s.calls c = some (.scan x))
    (hactive : x.pos.stage = .active) (ht : system.Steps (fun _ _ => True) s t) :
    t.Spent x.handle.id ∧
      ∀ d call, t.calls d = some call → call.ticket = .claimed x.handle.id → d = c := by
  have hticket : (Call.scan x).ticket = .claimed x.handle.id := by simp [Call.ticket, hactive]
  refine ht.stable (I := fun t : World => t.Spent x.handle.id ∧
    ∀ d call, t.calls d = some call → call.ticket = .claimed x.handle.id → d = c) (fun _ _ h => h) ?_ ?_
    hs ⟨spent_of_claimed hs hc hticket, fun d call hd hcall => handle_unique hs hd hcall hc hticket⟩
  · rintro (u : World) m l hu ⟨hspent, honly⟩ _ hfree hl
    refine ⟨hspent.move hu (.start hfree hl), fun d call hd hcall => ?_⟩
    rcases Config.put_calls_eq_some hd with ⟨-, rfl⟩ | ⟨-, hd⟩
    · have hout : call.ticket = .out := (ticketHom fun _ _ => True).start hl
      rw [hout] at hcall
      cases hcall
    · exact honly d call hd hcall
  · rintro (u : World) m l l' σ' hu ⟨hspent, honly⟩ _ hm ⟨ch, hstep⟩
    refine ⟨hspent.move hu (.step hm ⟨ch, hstep⟩), fun d call hd hcall => ?_⟩
    rcases Config.put_calls_eq_some hd with ⟨rfl, rfl⟩ | ⟨-, hd⟩
    · rcases (Call.scanStep hstep).issued_of_claimed hcall with hold | hissued
      · exact honly d l hm hold
      · exact absurd hissued hspent.not_issued
    · exact honly d call hd hcall

/-- What a scan that was in its slot is, ever after. -/
theorem World.TookSlot.facts (h : s.TookSlot c) (hc : s.calls c = some (.scan x)) :
    x.handle.walletName = x.walletName ∧ s.Spent x.handle.id ∧
      (∀ d call, s.calls d = some call → call.ticket = .claimed x.handle.id → d = c) := by
  obtain ⟨s₀, x₀, hs₀, ht, hc₀, hactive⟩ := h
  have hname := handle_walletName hs₀ hc₀ (Or.inr hactive)
  have hsame : ∃ x, s.calls c = some (.scan x) ∧ x.handle = x₀.handle ∧ x.walletName = x₀.walletName := by
    refine ht.stable (I := fun t : World => ∃ x, t.calls c = some (.scan x) ∧ x.handle = x₀.handle ∧
      x.walletName = x₀.walletName) (fun _ _ h => h) ?_ ?_ hs₀ ⟨x₀, hc₀, rfl, rfl⟩
    · rintro (u : World) m l _ ⟨y, hy, hyx⟩ _ hfree _
      exact ⟨y, Config.put_calls_of_free hfree hy, hyx⟩
    · rintro (u : World) m l l' σ' _ ⟨y, hy, hhandle, hwallet⟩ _ hm ⟨ch, hstep⟩
      obtain ⟨y', hy', ⟨-, hnext⟩ | ⟨-, rfl⟩⟩ := scan_put hm hstep hy
      · obtain ⟨hhandle', hwallet'⟩ := Scan.next_same hnext
        exact ⟨y', hy', hhandle'.trans hhandle, hwallet'.trans hwallet⟩
      · exact ⟨y', hy', hhandle, hwallet⟩
  obtain ⟨y, hy, hhandle, hwallet⟩ := hsame
  obtain rfl := Call.scan.inj (Option.some.inj (hc.symm.trans hy))
  obtain ⟨hspent, honly⟩ := claimed_only hs₀ hc₀ hactive ht
  rw [hhandle, hwallet]
  exact ⟨hname, hspent, honly⟩

/-! ## The two stops -/

variable {k : ScanController}

/-- `stop_scan` finds the scan in the slot. -/
theorem StopScan.next_of_slot (h : system.Reach (fun _ _ => True) s)
    (hk : s.shared.scans.running.lookup w = some k) {y : StopScan}
    (hnext : (⟨⟨w, k.id⟩, .stop⟩ : StopScan).next s.shared = some (y, σ')) : y.pos = .wait k.scan := by
  have hin : s.shared.scans.Holds k.id .running := ⟨w, k, hk, rfl⟩
  obtain ⟨waitFor, scans, tokens, hstop, -, rfl⟩ := StopScan.next_stop hnext rfl
  rcases ScanState.stopScan_cases hstop with ⟨hissued, -⟩ | ⟨-, hstarting, -⟩ |
    ⟨k', hk', -, rfl, -⟩ | ⟨-, -, hother, -⟩
  · exact absurd (place_unique h (p := .issued) hissued hin) nofun
  · exact absurd (place_unique h (p := .starting) hstarting hin) nofun
  · obtain rfl := Option.some.inj (hk.symm.trans hk')
    rfl
  · exact absurd rfl (hother k hk)

theorem stopScan_waits_iff (h : system.Reach (fun _ _ => True) s)
    (hX : s.calls X = some (.stopScan ⟨x.handle, .stop⟩)) (hc : s.calls c = some (.scan x)) (htook : s.TookSlot c)
    (hlive : ¬ s.Delivered c)
    (hstep : (Call.stopScan ⟨x.handle, .stop⟩).next X ch s.shared = some (call', σ')) :
    World.WaitsForStream (s.put X call' σ') X call' c ↔
      ∃ k, s.shared.scans.running.lookup x.walletName = some k ∧ k.scan = c := by
  obtain ⟨hname, -, honly⟩ := htook.facts hc
  obtain ⟨⟨y, σ₁⟩, hnext, h'⟩ := Option.map_eq_some_iff.mp hstep
  cases h'
  have hreach : system.Reach (fun _ _ => True) (s.put X (.stopScan y) σ₁) :=
    .move (e := .step X) h trivial (.step hX ⟨ch, hstep⟩)
  constructor
  · intro hwaits
    rcases hwaits _ .refl with ⟨x', hx', hended⟩ | ⟨-, r, hr⟩
    · -- Only the stop moved.
      rcases Config.put_calls_eq_some hx' with ⟨-, hscan⟩ | ⟨-, hx'⟩
      · cases hscan
      · exact absurd ⟨x', hx', hended⟩ hlive
    · have hpos : y.pos = .wait r := by
        obtain ⟨handle, pos⟩ := y
        cases pos <;> cases hr
        rfl
      obtain ⟨-, k, hk, hid, rfl, -⟩ := StopScan.next_wait hnext hpos
      rw [hname] at hk
      obtain ⟨call, hcall, hslot⟩ := running_sound h _ _ hk
      have hticket : call.ticket = .claimed x.handle.id := by
        rw [← hid]
        exact Call.ticket_of_slot hslot
      exact ⟨k, hk, honly k.scan call hcall hticket⟩
  · rintro ⟨k, hk, rfl⟩
    obtain ⟨x', hx', -, -, hid, -⟩ := running_scan h hk
    obtain rfl := Call.scan.inj (Option.some.inj (hc.symm.trans hx'))
    have hhandle : x.handle = ⟨x.walletName, k.id⟩ := by
      rw [← hname, ← hid]
    rw [hhandle] at hnext
    have hpos := StopScan.next_of_slot h hk hnext
    have hwait : (Call.stopScan y).awaits = some (.stopped k.scan) := by
      show y.pos.awaits = _
      rw [hpos]
      rfl
    exact waitsForStream_of_chain hreach (Config.put_calls_self _ _ _ _) hwait .refl

/-- The step that stops a wallet's scans: the call waits for the scan in the slot, if there is one. -/
theorem Call.next_cancel (hs : call.stopAt = some (w, .cancel)) (h : call.next me ch σ = some (call', σ')) :
    (∃ k, σ.scans.running.lookup w = some k ∧ call'.stopAt = some (w, .wait k.scan)) ∨
      σ.scans.running.lookup w = none ∧ call'.stopAt = none := by
  obtain ⟨r, hr, hstop⟩ := Call.next_stopAt h hs
  obtain ⟨-, ⟨k, hk, rfl⟩ | ⟨hnone, rfl⟩⟩ := StopAt.next_cancel hr
  · exact Or.inl ⟨k, hk, hstop⟩
  · exact Or.inr ⟨hnone, hstop⟩

/-- Nobody on a chain from a scan in the slot is anything but a scan. -/
theorem scan_of_chain (h : system.Reach ok s) (hd : s.Entered d)
    (hchain : Relation.ReflTransGen s.Follows d c) : s.Entered c := by
  induction hchain with
  | refl => exact hd
  | tail _ hbc _ => exact (entered_of_scan_follows h hbc).2

theorem walletStop_waits_iff (h : system.Reach (fun _ _ => True) s) (hX : s.calls X = some call)
    (hs : call.stopAt = some (w, .cancel)) (hc : s.calls c = some (.scan x)) (hlive : ¬ s.Delivered c)
    (hstep : call.next X ch s.shared = some (call', σ')) :
    World.WaitsForStream (s.put X call' σ') X call' c ↔
      ∃ k, s.shared.scans.running.lookup w = some k ∧ Relation.ReflTransGen s.Follows k.scan c := by
  have hmove : system.Move (.step X) s (s.put X call' σ') := .step hX ⟨ch, hstep⟩
  have hreach : system.Reach (fun _ _ => True) (s.put X call' σ') := .move h trivial hmove
  obtain ⟨hnoscan, hnostop⟩ := Call.next_ne_of_stopAt hstep (by rw [hs]; nofun)
  -- The step of the stop leaves every scan where it is.
  have hcX : c ≠ X := by
    rintro rfl
    obtain rfl := Option.some.inj (hc.symm.trans hX)
    cases hs
  have hc' : (s.put X call' σ').calls c = some (.scan x) := by
    rw [Config.put_calls_ne _ _ _ hcX]
    exact hc
  have hstill {t : World} (ht : t.calls c = some (.scan x)) : ¬ t.Delivered c := by
    rintro ⟨x', hx', hended⟩
    obtain rfl := Call.scan.inj (Option.some.inj (ht.symm.trans hx'))
    exact hlive ⟨x, hc, hended⟩
  have hsame {a b : CallId} (hab : World.Follows (s.put X call' σ') a b) : s.Follows a b := by
    obtain ⟨y, hy, hb⟩ := hab
    rcases Config.put_calls_eq_some hy with ⟨-, hscan⟩ | ⟨-, hy⟩
    · exact absurd hscan.symm (hnoscan y)
    · exact ⟨y, hy, hb⟩
  constructor
  · intro hwaits
    rcases Call.next_cancel hs hstep with ⟨k, hk, hwait⟩ | ⟨-, hgone⟩
    · refine ⟨k, hk, ?_⟩
      by_contra hchain
      -- The scans the slot leads to can all run to their end, and then the stop goes on.
      have hentered : World.Entered (s.put X call' σ') k.scan :=
        (entered_of_running h hk).put hX hstep
      obtain ⟨t, ht, hstopped, hothers⟩ := chain_runs_to_end hreach hentered
      have hct : t.calls c = some (.scan x) := by
        rw [hothers c fun hchain' => hchain (Relation.ReflTransGen.mono (fun _ _ => hsame) _ _ hchain')]
        exact hc'
      have hXt : t.calls X = some call' := by
        rw [hothers X, Config.put_calls_self]
        intro hchain'
        obtain ⟨y, hy, -⟩ := scan_of_chain hreach hentered hchain'
        rw [Config.put_calls_self] at hy
        exact hnoscan y (Option.some.inj hy)
      obtain ⟨hawaits, hflight⟩ := Call.awaits_of_stopAt hwait
      have hfree : ∀ r, call'.awaits = some r → t.shared.holder r = none := by
        intro r hr
        obtain rfl := Option.some.inj (hawaits.symm.trans hr)
        simp [Shared.holder, hstopped]
      have hgoes : ∃ ch r, call'.next X ch t.shared = some r := call'.exists_next hfree hflight
      obtain ⟨ch', ⟨call'', σ''⟩, hnext⟩ := hgoes
      have hend : system.Steps (fun _ _ => True) (s.put X call' σ') (t.put X call'' σ'') :=
        ht.move (e := .step X) trivial (.step hXt ⟨ch', hnext⟩)
      rcases hwaits _ hend with hdelivered | ⟨hX', -⟩
      · refine hstill (t := t.put X call'' σ'') ?_ hdelivered
        rw [Config.put_calls_ne _ _ _ hcX]
        exact hct
      · obtain ⟨r, hr, hgone⟩ := Call.next_stopAt hnext hwait
        rcases StopAt.next_eq hr with ⟨hcancel, -⟩ | ⟨-, -, -, -, rfl⟩
        · cases hcancel
        · rw [Config.put_calls_self] at hX'
          obtain rfl := Option.some.inj hX'
          rw [hwait] at hgone
          cases hgone
    · rcases hwaits _ .refl with hdelivered | ⟨-, r, hr⟩
      · exact absurd hdelivered (hstill hc')
      · obtain ⟨v, hv⟩ := Call.stopAt_of_follows (Call.follows_of_awaits hr) hnoscan hnostop
        rw [hgone] at hv
        cases hv
  · rintro ⟨k, hk, hchain⟩
    rcases Call.next_cancel hs hstep with ⟨k', hk', hwait⟩ | ⟨hnone, -⟩
    · obtain rfl := Option.some.inj (hk.symm.trans hk')
      rcases chain_put h hX hstep hchain with hdelivered | hchain'
      · exact absurd hdelivered hlive
      · exact waitsForStream_of_chain hreach (Config.put_calls_self _ _ _ _)
          (Call.awaits_of_stopAt hwait).1 hchain'
    · rw [hnone] at hk
      cases hk

/-- A stop returns only after the scan's terminal event exactly when, in its critical section, the slot
leads it to the scan. -/
theorem stop_waits_iff (h : system.Reach (fun _ _ => True) s) (hX : s.calls X = some call)
    (hc : s.calls c = some (.scan x)) (htook : s.TookSlot c) (hlive : ¬ s.Delivered c)
    (habout : s.AboutToStop call c x) (hstep : call.next X ch s.shared = some (call', σ')) :
    World.WaitsForStream (s.put X call' σ') X call' c ↔ s.SlotLeadsTo call c x := by
  rcases habout with hstop | ⟨rfl, -⟩
  · rw [walletStop_waits_iff h hX hstop hc hlive hstep]
    constructor
    · rintro ⟨k, hk, hchain⟩
      exact ⟨k, hk, Or.inr ⟨by rw [hstop]; nofun, hchain⟩⟩
    · rintro ⟨k, hk, rfl | ⟨-, hchain⟩⟩
      · exact ⟨k, hk, .refl⟩
      · exact ⟨k, hk, hchain⟩
  · rw [stopScan_waits_iff h hX hc htook hlive hstep]
    constructor
    · rintro ⟨k, hk, hscan⟩
      exact ⟨k, hk, Or.inl hscan⟩
    · rintro ⟨k, hk, hscan | ⟨hno, -⟩⟩
      · exact ⟨k, hk, hscan⟩
      · exact absurd rfl hno

/-! ## Two schedules -/

/-- A scan of "main" has come to its slot. -/
def scanInSlot : Option World :=
  (replay 4 fun _ _ => true).exec fresh (unlocks 0 firstPath ++ startsScan 1 2 0)

/-- It goes on for `n` steps, and a `stop_scan` of its handle is called. -/
def stopCalled (n : Nat) : Option World :=
  scanInSlot.bind fun s =>
    (replay 4 fun _ _ => true).exec s (go 2 n ++ [.start 3 (.stopScan ⟨⟨"main", 0⟩, .stop⟩)])

def Call.asScan : Call → Option Scan
  | .scan x => some x
  | _ => none

theorem Call.eq_of_asScan (h : call.asScan = some x) : call = .scan x := by
  cases call <;> cases h
  rfl

/-- How far the scan is, whose it is, and whether it was superseded. -/
def World.scanFacts (s : World) : Option (Bool × Bool × WalletName × ScanHandle) × Bool :=
  (((s.calls 2).bind Call.asScan).map fun x =>
    (decide (x.pos.stage = .active), x.pos.ended.isSome, x.walletName, x.handle),
    (s.shared.tokens 2).superseded)

/-- The stop is called while the scan, which was in its slot, has not ended its stream. -/
theorem stopCalled_facts {n : Nat} {active : Bool}
    (hbefore : scanInSlot.map World.scanFacts =
      some (some (true, false, "main", ⟨"main", 0⟩), false))
    (hs : stopCalled n = some s)
    (hfacts : s.scanFacts = (some (active, false, "main", ⟨"main", 0⟩), false)) :
    system.Reach (fun _ _ => True) s ∧ s.TookSlot 2 ∧ ¬ s.Delivered 2 ∧
      ∃ x, s.calls 2 = some (.scan x) ∧ x.walletName = "main" ∧
        s.AboutToStop (.stopScan ⟨⟨"main", 0⟩, .stop⟩) 2 x := by
  obtain ⟨s₀, hs₀, hfacts₀⟩ := Option.map_eq_some_iff.mp hbefore
  simp only [World.scanFacts, Prod.mk.injEq, Option.map_eq_some_iff, Option.bind_eq_some_iff,
    decide_eq_true_eq] at hfacts hfacts₀
  obtain ⟨⟨x, ⟨call, hc, hcall⟩, -, hended, hwallet, hhandle⟩, hsuperseded⟩ := hfacts
  obtain ⟨⟨x₀, ⟨call₀, hc₀, hcall₀⟩, hactive, -⟩, -⟩ := hfacts₀
  obtain rfl := Call.eq_of_asScan hcall
  obtain rfl := Call.eq_of_asScan hcall₀
  have hR : (replay 4 fun _ _ => true).Sound system (fun _ _ => True) :=
    replay_sound fun _ _ _ _ => trivial
  have hreach : system.Reach (fun _ _ => True) s₀ := hR.reach fresh_init hs₀
  obtain ⟨hwithin, -⟩ := hR.steps (fun _ _ => rfl) hs₀
  rw [stopCalled, hs₀, Option.bind_some] at hs
  obtain ⟨-, hsteps⟩ := hR.steps hwithin hs
  refine ⟨hreach.steps (fun _ _ h => h) hsteps, ⟨s₀, x₀, hreach, hsteps, hc₀, hactive⟩, ?_, x, hc,
    hwallet, Or.inr ⟨by rw [hhandle], hsuperseded⟩⟩
  rintro ⟨y, hy, hsent⟩
  obtain rfl := Call.scan.inj (Option.some.inj (hc.symm.trans hy))
  rw [hended] at hsent
  cases hsent

theorem stop_waits_iff_atWork : ∃ s call' σ', stopCalled 3 = some s ∧
    (Call.stopScan ⟨⟨"main", 0⟩, .stop⟩).next 3 {} s.shared = some (call', σ') ∧
    World.WaitsForStream (s.put 3 call' σ') 3 call' 2 := by
  obtain ⟨s, hs⟩ := Option.isSome_iff_exists.mp (by decide : (stopCalled 3).isSome = true)
  have hfacts : (stopCalled 3).map World.scanFacts =
      some (some (true, false, "main", ⟨"main", 0⟩), false) := by decide
  have facts : (stopCalled 3).map (fun s => (decide (s.calls 3 = some (.stopScan ⟨⟨"main", 0⟩, .stop⟩)),
      (s.shared.scans.running.lookup "main").map (·.scan),
      ((Call.stopScan ⟨⟨"main", 0⟩, .stop⟩).next 3 {} s.shared).isSome)) =
      some (true, some 2, true) := by decide
  simp only [hs, Option.map_some, Option.some.injEq, Prod.mk.injEq, decide_eq_true_eq,
    Option.map_eq_some_iff] at hfacts facts
  obtain ⟨hX, ⟨k, hk, hscan⟩, hnext⟩ := facts
  obtain ⟨⟨call', σ'⟩, hnext⟩ := Option.isSome_iff_exists.mp hnext
  obtain ⟨hreach, htook, hlive, x, hc, hwallet, habout⟩ := stopCalled_facts (by decide) hs hfacts
  exact ⟨s, call', σ', hs, hnext, (stop_waits_iff hreach hX hc htook hlive habout hnext).mpr
    ⟨k, hwallet ▸ hk, Or.inl hscan⟩⟩

/-- Called after the scan has cleared its slot, the stop returns at once, and the terminal event comes
later. -/
theorem stop_before_stream_end : ¬ ∀ (s : World) (X c : CallId) (call call' : Call) (x : Scan)
    (ch : Choice) (σ' : Shared), system.Reach (fun _ _ => True) s → s.calls X = some call →
      s.calls c = some (.scan x) → s.TookSlot c → ¬ s.Delivered c → s.AboutToStop call c x →
        call.next X ch s.shared = some (call', σ') →
          World.WaitsForStream (s.put X call' σ') X call' c := by
  intro claim
  obtain ⟨s, hs⟩ := Option.isSome_iff_exists.mp (by decide : (stopCalled 7).isSome = true)
  have hfacts : (stopCalled 7).map World.scanFacts =
      some (some (false, false, "main", ⟨"main", 0⟩), false) := by decide
  have facts : (stopCalled 7).map (fun s => (decide (s.calls 3 = some (.stopScan ⟨⟨"main", 0⟩, .stop⟩)),
      ((Call.stopScan ⟨⟨"main", 0⟩, .stop⟩).next 3 {} s.shared).map (·.1))) =
      some (true, some (.stopScan ⟨⟨"main", 0⟩, .returned⟩)) := by decide
  simp only [hs, Option.map_some, Option.some.injEq, Prod.mk.injEq, decide_eq_true_eq,
    Option.map_eq_some_iff] at hfacts facts
  obtain ⟨hX, ⟨call', σ'⟩, hnext, rfl⟩ := facts
  obtain ⟨hreach, htook, hlive, x, hc, -, habout⟩ := stopCalled_facts (by decide) hs hfacts
  rcases claim s 3 2 _ _ x {} σ' hreach hX hc htook hlive habout hnext _ .refl with
    ⟨y, hy, hended⟩ | ⟨-, r, hr⟩
  · rw [Config.put_calls_ne _ _ _ (by decide)] at hy
    exact hlive ⟨y, hy, hended⟩
  · cases hr

end CwTariWallet
