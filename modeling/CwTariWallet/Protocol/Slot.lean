/-
# CwTariWallet.Protocol.Slot -- one wallet's scan slot and its maintenance lock

A scan enters the slot with the maintenance lock in hand, drops the lock, waits for the scan it
replaced to stop, and only then works; a maintenance operation takes the lock, stops the scan it finds
in the slot, and only then writes.  Replaced scans are no longer in the slot, so what keeps two scans
from working at once is the chain of waits that starts at the slot (`active_chain`): it is a line,
and only its end works.
-/
import CwTariWallet.Interleaving
import Mathlib.Logic.Relation

namespace CwTariWallet.SlotProtocol

open Interleaving

/-- What one wallet's scans and maintenance operations share. -/
structure View where
  /-- The scan in the slot. -/
  running : Option CallId
  /-- Who holds the maintenance lock. -/
  maintenance : Option CallId
  /-- The scans whose token is cancelled. -/
  cancelled : CallId → Bool
  /-- The scans whose `stopped` token has fired. -/
  stopped : CallId → Bool

/-- Where a call stands with this wallet's slot and maintenance lock. -/
inductive Phase where
  | out
  /-- With the maintenance lock, knowing nothing of the slot. -/
  | begun
  /-- A scan in the slot that still has the maintenance lock and will wait for `previous`. -/
  | entered (previous : Option CallId)
  /-- A scan that waits for the scan it replaced. -/
  | waiting (previous : CallId)
  /-- A scan about to look at its token for the first time. -/
  | ready
  /-- A scan at work. -/
  | inside
  /-- A scan about to clear its slot. -/
  | clearing
  /-- A maintenance operation that waits for the running scan to stop. -/
  | stopping (scan : CallId)
  /-- A maintenance operation that has stopped the running scan. -/
  | quiet
  /-- A scan whose `stopped` token has fired. -/
  | done
  deriving DecidableEq, Repr

namespace Phase

/-- The phases with the maintenance lock. -/
def holdsMaintenance : Phase → Bool
  | begun | entered _ | stopping _ | quiet => true
  | _ => false

/-- The phases of a scan from taking the slot to clearing it. -/
def active : Phase → Bool
  | entered _ | waiting _ | ready | inside | clearing => true
  | _ => false

/-- The replaced scan an active scan still waits for. -/
def waitsFor : Phase → Option CallId
  | entered previous => previous
  | waiting previous => some previous
  | _ => none

end Phase

open Phase

/-- One step of a call, as far as this wallet is concerned.  Any step may cancel some tokens. -/
inductive Step (c : CallId) : Phase → View → Phase → View → Prop
  /-- Something else. -/
  | tick {p v k} : (∀ d, v.cancelled d = true → k d = true) → Step c p v p { v with cancelled := k }
  | begin {v} : v.maintenance = none → Step c out v begun { v with maintenance := some c }
  | finish {v} : Step c begun v out { v with maintenance := none }
  | forget {v} : Step c quiet v begun v
  | take {v k} : (∀ d, v.cancelled d = true → k d = true) →
      (∀ d, v.running = some d → k d = true) →
      Step c begun v (entered v.running) { v with running := some c, cancelled := k }
  | leaveWaiting {v b} : Step c (entered (some b)) v (waiting b) { v with maintenance := none }
  | leaveReady {v} : Step c (entered none) v ready { v with maintenance := none }
  | resume {v b} : v.stopped b = true → Step c (waiting b) v ready v
  | goIn {v} : v.cancelled c = false → Step c ready v inside v
  | skip {v} : v.cancelled c = true → Step c ready v clearing v
  | goOut {v} : Step c inside v clearing v
  | clear {v} : Step c clearing v out
      { v with running := if v.running = some c then none else v.running }
  | stop {v} : Step c out v done { v with stopped := Function.update v.stopped c true }
  | cancel {v k d} : (∀ d, v.cancelled d = true → k d = true) → v.running = some d → k d = true →
      Step c begun v (stopping d) { v with cancelled := k }
  | cancelNone {v k} : (∀ d, v.cancelled d = true → k d = true) → v.running = none →
      Step c begun v quiet { v with cancelled := k }
  | waited {v d} : v.stopped d = true → Step c (stopping d) v quiet v

/-- The protocol of one wallet, in a fresh process. -/
def protocol : System View Phase where
  init v := v = ⟨none, none, fun _ => false, fun _ => false⟩
  start p := p = out
  step := Step

/-- A configuration of the protocol. -/
abbrev State := Config View Phase

variable {ok : Guard View Phase} {s : State}

/-! ## The maintenance lock -/

/-- The call that does what only the lock's holder does is its holder. -/
theorem maintenance_holder (h : protocol.Reach ok s) {c : CallId} {p : Phase}
    (hc : s.calls c = some p) (hp : p.holdsMaintenance = true) :
    s.shared.maintenance = some c := by
  refine h.outline (A := fun c p v => p.holdsMaintenance = true → v.maintenance = some c)
    ?_ ?_ ?_ hc hp
  · intro s c p _ _ hstart hp
    obtain rfl : p = out := hstart
    cases hp
  · intro s c p p' v' _ _ _ hA hstep hp
    cases hstep <;> first | exact hA hp | exact hA rfl | rfl | cases hp
  · intro s c p p' v' d q _ _ _ hA hstep hne _ hB hq
    have hd := hB hq
    have hholder : p.holdsMaintenance = true → False := fun hp =>
      hne (Option.some.inj ((hA hp).symm.trans hd)).symm
    cases hstep with
    | begin hfree => rw [hfree] at hd; cases hd
    | finish => exact (hholder rfl).elim
    | leaveWaiting => exact (hholder rfl).elim
    | leaveReady => exact (hholder rfl).elim
    | _ => exact hd

/-- Two calls with the maintenance lock are one. -/
theorem maintenance_unique (h : protocol.Reach ok s) {c d : CallId} {p q : Phase}
    (hc : s.calls c = some p) (hp : p.holdsMaintenance = true) (hd : s.calls d = some q)
    (hq : q.holdsMaintenance = true) : c = d :=
  Option.some.inj ((maintenance_holder h hc hp).symm.trans (maintenance_holder h hd hq))

/-- Whoever the maintenance lock names is in a phase that holds it. -/
theorem maintenance_held (h : protocol.Reach ok s) :
    ∀ c, s.shared.maintenance = some c → ∃ p, s.calls c = some p ∧ p.holdsMaintenance = true := by
  refine h.invariant (I := fun s => ∀ c, s.shared.maintenance = some c →
    ∃ p, s.calls c = some p ∧ p.holdsMaintenance = true) ?_ ?_ ?_
  · rintro v rfl c hc
    cases hc
  · intro s m p _ ih _ hfree _ c hc
    obtain ⟨q, hq, hholds⟩ := ih c hc
    exact ⟨q, Config.put_calls_of_free hfree hq, hholds⟩
  · intro s m p p' v' _ ih _ hm hstep c hc
    by_cases hcm : c = m
    · subst hcm
      have hkeep : s.shared.maintenance = some c → p.holdsMaintenance = true := by
        intro hholder
        obtain ⟨q, hq, hold⟩ := ih c hholder
        obtain rfl := Option.some.inj (hm.symm.trans hq)
        exact hold
      refine ⟨p', Config.put_calls_self _ _ _ _, ?_⟩
      cases hstep with
      | tick => exact hkeep hc
      | finish | leaveWaiting | leaveReady => cases hc
      | «begin» | forget | take | cancel | cancelNone | waited => rfl
      | _ => cases hkeep hc
    · have hold : s.shared.maintenance = some c := by
        cases hstep with
        | «begin» => exact absurd (Option.some.inj hc).symm hcm
        | finish | leaveWaiting | leaveReady => cases hc
        | _ => exact hc
      obtain ⟨q, hq, hholds⟩ := ih c hold
      exact ⟨q, by rw [Config.put_calls_ne _ _ _ hcm]; exact hq, hholds⟩

/-! ## The chain of waits -/

/-- A scan whose `stopped` token has fired has nothing more to do. -/
theorem done_of_stopped (h : protocol.Reach ok s) :
    ∀ b, s.shared.stopped b = true → s.calls b = some done := by
  refine h.invariant (I := fun s => ∀ b, s.shared.stopped b = true → s.calls b = some done)
    ?_ ?_ ?_
  · rintro v rfl b hb
    cases hb
  · intro s c p _ ih _ hfree _ b hb
    have hne : b ≠ c := by
      rintro rfl
      rw [ih _ hb] at hfree
      cases hfree
    rw [Config.put_calls_ne _ _ _ hne]
    exact ih b hb
  · intro s c p p' v' _ ih _ hc hstep b hb
    by_cases hbc : b = c
    · subst hbc
      rw [Config.put_calls_self]
      have hdone : s.shared.stopped b = true → p = done := fun hb =>
        Option.some.inj (hc.symm.trans (ih b hb))
      cases hstep with
      | stop => rfl
      | tick => rw [hdone hb]
      | _ => cases hdone hb
    · rw [Config.put_calls_ne _ _ _ hbc]
      refine ih b ?_
      cases hstep with
      | stop => simpa [Function.update_of_ne hbc] using hb
      | _ => exact hb

/-- And a scan that is done has fired its token. -/
theorem stopped_of_done (h : protocol.Reach ok s) {c : CallId} (hc : s.calls c = some done) :
    s.shared.stopped c = true := by
  refine h.outline (A := fun c p v => p = done → v.stopped c = true) ?_ ?_ ?_ hc rfl
  · intro s c p _ _ hstart hp
    obtain rfl : p = out := hstart
    cases hp
  · intro s c p p' v' _ _ _ hA hstep hp
    cases hstep with
    | tick => exact hA hp
    | stop => simp
    | _ => cases hp
  · intro s c p p' v' d q _ _ _ _ hstep hne _ hB hq
    cases hstep with
    | stop => simpa [Function.update_of_ne hne] using hB hq
    | _ => exact hB hq

/-- Scan `a` waits for scan `b`, which it replaced. -/
def Waits (s : State) (a b : CallId) : Prop :=
  ∃ p, s.calls a = some p ∧ p.waitsFor = some b

theorem waits_rightUnique (s : State) : Relator.RightUnique (Waits s) := by
  rintro a b c ⟨p, ha, hb⟩ ⟨q, ha', hc⟩
  obtain rfl := Option.some.inj (ha.symm.trans ha')
  exact Option.some.inj (hb.symm.trans hc)

/-- A call that waits for nobody ends every chain it is on. -/
theorem eq_of_chain {s : State} {a b : CallId} {p : Phase} (ha : s.calls a = some p)
    (hp : p.waitsFor = none) (h : Relation.ReflTransGen (Waits s) a b) : a = b := by
  rcases h.cases_head with h | ⟨c, ⟨q, ha', hq⟩, _⟩
  · exact h
  · obtain rfl := Option.some.inj (ha.symm.trans ha')
    rw [hp] at hq
    cases hq

/-- Chains survive a step of a call that goes on waiting for whomever it waited for. -/
theorem chain_put {s : State} {m : CallId} {p p' : Phase} {v : View} (hm : s.calls m = some p)
    (hkeep : ∀ b, p.waitsFor = some b → p'.waitsFor = some b) {a b : CallId}
    (h : Relation.ReflTransGen (Waits s) a b) :
    Relation.ReflTransGen (Waits (s.put m p' v)) a b := by
  refine Relation.ReflTransGen.mono (fun x y hxy => ?_) _ _ h
  obtain ⟨q, hx, hq⟩ := hxy
  by_cases hxm : x = m
  · subst hxm
    obtain rfl := Option.some.inj (hm.symm.trans hx)
    exact ⟨p', Config.put_calls_self _ _ _ _, hkeep y hq⟩
  · exact ⟨q, by rw [Config.put_calls_ne _ _ _ hxm]; exact hx, hq⟩

/-- A chain to a scan that is still active survives the end of a wait: the scan waited for has
stopped, so the chain did not go through it. -/
theorem chain_resume (h : protocol.Reach ok s) {m b : CallId} {v : View}
    (hm : s.calls m = some (waiting b)) (hb : s.shared.stopped b = true) {a d : CallId} {q : Phase}
    (hd : s.calls d = some q) (hq : q.active = true)
    (hchain : Relation.ReflTransGen (Waits s) a d) :
    Relation.ReflTransGen (Waits (s.put m ready v)) a d := by
  induction hchain using Relation.ReflTransGen.head_induction_on with
  | refl => exact .refl
  | head hxy hyd ih =>
    rename_i x y
    obtain ⟨r, hx, hr⟩ := hxy
    by_cases hxm : x = m
    · subst hxm
      obtain rfl := Option.some.inj (hm.symm.trans hx)
      obtain rfl := Option.some.inj hr
      have hdone := done_of_stopped h b hb
      obtain rfl := eq_of_chain hdone rfl hyd
      obtain rfl := Option.some.inj (hdone.symm.trans hd)
      cases hq
    · exact .head ⟨r, by rw [Config.put_calls_ne _ _ _ hxm]; exact hx, hr⟩ ih

/-- Starting a call leaves every chain. -/
theorem chain_start {m : CallId} {p : Phase} {v : View} (hfree : s.calls m = none) {a b : CallId}
    (h : Relation.ReflTransGen (Waits s) a b) :
    Relation.ReflTransGen (Waits (s.put m p v)) a b := by
  refine Relation.ReflTransGen.mono (fun x y hxy => ?_) _ _ h
  obtain ⟨q, hx, hq⟩ := hxy
  exact ⟨q, Config.put_calls_of_free hfree hx, hq⟩

/-- A step leaves every chain to an active scan that stays one. -/
theorem chain_kept (h : protocol.Reach ok s) {m : CallId} {p p' : Phase} {v' : View}
    (hm : s.calls m = some p) (hstep : Step m p s.shared p' v') {a d : CallId} {q : Phase}
    (hd : s.calls d = some q) (hq : q.active = true)
    (hchain : Relation.ReflTransGen (Waits s) a d) :
    Relation.ReflTransGen (Waits (s.put m p' v')) a d := by
  cases hstep with
  | resume hb => exact chain_resume h hm hb hd hq hchain
  | tick | leaveWaiting =>
    refine chain_put hm ?_ hchain
    exact fun _ hb => hb
  | _ => exact chain_put hm nofun hchain

/-- An active scan was one before, or takes the slot. -/
theorem Step.active_of {m : CallId} {p p' : Phase} {v v' : View} (h : Step m p v p' v')
    (hp : p'.active = true) : p.active = true ∨ v'.running = some m := by
  cases h with
  | take => exact Or.inr rfl
  | tick => exact Or.inl hp
  | leaveWaiting | leaveReady | resume | goIn | skip | goOut => exact Or.inl rfl
  | _ => cases hp

/-- Every active scan is on the chain of waits that starts at the scan in the slot. -/
theorem active_chain (h : protocol.Reach ok s) :
    ∀ d q, s.calls d = some q → q.active = true →
      ∃ r, s.shared.running = some r ∧ Relation.ReflTransGen (Waits s) r d := by
  refine h.invariant (I := fun s => ∀ d q, s.calls d = some q → q.active = true →
    ∃ r, s.shared.running = some r ∧ Relation.ReflTransGen (Waits s) r d) ?_ ?_ ?_
  · intro v _ d q hd
    cases hd
  · intro s c p _ ih _ hfree hstart d q hd hq
    obtain rfl : p = out := hstart
    rcases Config.put_calls_eq_some hd with ⟨_, rfl⟩ | ⟨_, hd⟩
    · cases hq
    obtain ⟨r, hr, hchain⟩ := ih d q hd hq
    exact ⟨r, hr, chain_start hfree hchain⟩
  · intro s m p p' v' hs ih _ hm hstep d q' hd' hq'
    -- It takes the slot now, or was active before.
    have hbefore : v'.running = some d ∨ ∃ q, s.calls d = some q ∧ q.active = true := by
      rcases Config.put_calls_eq_some hd' with ⟨rfl, rfl⟩ | ⟨-, hd⟩
      · rcases hstep.active_of hq' with hq | hrun
        · exact Or.inr ⟨p, hm, hq⟩
        · exact Or.inl hrun
      · exact Or.inr ⟨q', hd, hq'⟩
    rcases hbefore with hrun | ⟨q, hd, hq⟩
    · exact ⟨d, hrun, .refl⟩
    obtain ⟨r, hr, hchain⟩ := ih d q hd hq
    have hkept := chain_kept hs hm hstep hd hq hchain
    cases hstep with
    | take =>
      -- The new scan waits for the one in the slot, whose chain stays as it is.
      exact ⟨m, rfl, .head ⟨_, Config.put_calls_self _ _ _ _, hr⟩ hkept⟩
    | clear =>
      -- A scan about to clear waits for nobody, so it was not what held the others.
      have hrm : r ≠ m := by
        rintro rfl
        obtain rfl := eq_of_chain hm rfl hchain
        rw [Config.put_calls_self] at hd'
        obtain rfl := Option.some.inj hd'
        cases hq'
      exact ⟨r, by simp [hr, hrm], hkept⟩
    | _ => exact ⟨r, hr, hkept⟩

/-- At most one active scan waits for nobody. -/
theorem active_unique (h : protocol.Reach ok s) {c d : CallId} {p q : Phase}
    (hc : s.calls c = some p) (hp : p.active = true) (hp' : p.waitsFor = none)
    (hd : s.calls d = some q) (hq : q.active = true) (hq' : q.waitsFor = none) : c = d := by
  obtain ⟨r, hr, hrc⟩ := active_chain h c p hc hp
  obtain ⟨r', hr', hrd⟩ := active_chain h d q hd hq
  obtain rfl := Option.some.inj (hr.symm.trans hr')
  rcases hrc.total_of_right_unique (waits_rightUnique s) hrd with hcd | hdc
  · exact eq_of_chain hc hp' hcd
  · exact (eq_of_chain hd hq' hdc).symm

/-! ## The slot -/

/-- The scan in the slot is active. -/
theorem running_active (h : protocol.Reach ok s) :
    ∀ r, s.shared.running = some r → ∃ p, s.calls r = some p ∧ p.active = true := by
  refine h.invariant (I := fun s => ∀ r, s.shared.running = some r →
    ∃ p, s.calls r = some p ∧ p.active = true) ?_ ?_ ?_
  · rintro v rfl r hr
    cases hr
  · intro s c p _ ih _ hfree _ r hr
    obtain ⟨q, hq, hact⟩ := ih r hr
    have hne : r ≠ c := by
      rintro rfl
      rw [hfree] at hq
      cases hq
    exact ⟨q, by rw [Config.put_calls_ne _ _ _ hne]; exact hq, hact⟩
  · intro s c p p' v' _ ih _ hc hstep r hr
    by_cases hrc : r = c
    · subst hrc
      have hkeep : s.shared.running = some r → p.active = true := fun hr => by
        obtain ⟨q, hq, hact⟩ := ih r hr
        obtain rfl := Option.some.inj (hc.symm.trans hq)
        exact hact
      refine ⟨p', Config.put_calls_self _ _ _ _, ?_⟩
      cases hstep with
      | take => rfl
      | clear =>
        by_cases hrun : s.shared.running = some r
        · simp [hrun] at hr
        · simp [hrun] at hr
      | tick => exact hkeep hr
      | leaveWaiting | leaveReady | resume | goIn | skip | goOut => rfl
      | _ => exact absurd (hkeep hr) nofun
    · have hold : s.shared.running = some r := by
        cases hstep with
        | take => exact absurd (Option.some.inj hr).symm hrc
        | clear =>
          by_cases hrun : s.shared.running = some c
          · simp [hrun] at hr
          · simpa [hrun] using hr
        | _ => exact hr
      obtain ⟨q, hq, hact⟩ := ih r hold
      exact ⟨q, by rw [Config.put_calls_ne _ _ _ hrc]; exact hq, hact⟩

/-- A replaced scan is cancelled. -/
theorem active_cancelled (h : protocol.Reach ok s) {c : CallId} {p : Phase}
    (hc : s.calls c = some p) (hp : p.active = true) (hr : s.shared.running ≠ some c) :
    s.shared.cancelled c = true := by
  refine h.outline (A := fun c p v => p.active = true → v.running ≠ some c → v.cancelled c = true)
    ?_ ?_ ?_ hc hp hr
  · intro s c p _ _ hstart hp
    obtain rfl : p = out := hstart
    cases hp
  · intro s c p p' v' _ _ _ hA hstep hp hr
    cases hstep with
    | tick hk => exact hk c (hA hp hr)
    | take => exact absurd rfl hr
    | leaveWaiting | leaveReady | resume | goIn | skip | goOut => exact hA rfl hr
    | _ => cases hp
  · intro s c p p' v' d q _ _ _ _ hstep hne _ hB hq hr
    cases hstep with
    | tick hk => exact hk d (hB hq hr)
    | take hk hrun =>
      by_cases hd : s.shared.running = some d
      · exact hrun d hd
      · exact hk d (hB hq hd)
    | clear =>
      refine hB hq fun hd => hr ?_
      simp [hd, hne]
    | cancel hk => exact hk d (hB hq hr)
    | cancelNone hk => exact hk d (hB hq hr)
    | _ => exact hB hq hr

/-- A maintenance operation that has stopped the running scan finds the slot empty, and one that is
waiting for it finds at most that scan. -/
theorem slot_of_maintenance (h : protocol.Reach ok s) {c : CallId} {p : Phase}
    (hc : s.calls c = some p) :
    (p = quiet → s.shared.running = none) ∧
      ∀ d, p = stopping d → s.shared.running = none ∨ s.shared.running = some d := by
  refine h.outline (A := fun c p v => (p = quiet → v.running = none) ∧
    ∀ d, p = stopping d → v.running = none ∨ v.running = some d) ?_ ?_ ?_ hc
  · intro s c p _ _ hstart
    obtain rfl : p = out := hstart
    exact ⟨nofun, nofun⟩
  · intro s c p p' v' hs _ _ hA hstep
    cases hstep with
    | tick => exact hA
    | cancel _ hd _ =>
      refine ⟨nofun, fun e he => ?_⟩
      obtain rfl := Phase.stopping.inj he
      exact Or.inr hd
    | cancelNone _ hnone => exact ⟨fun _ => hnone, nofun⟩
    | waited hd =>
      refine ⟨fun _ => ?_, nofun⟩
      rcases hA.2 _ rfl with hnone | hrun
      · exact hnone
      · -- The scan has stopped, so it is not in the slot any more.
        obtain ⟨q, hq, hact⟩ := running_active hs _ hrun
        obtain rfl := Option.some.inj ((done_of_stopped hs _ hd).symm.trans hq)
        cases hact
    | _ => exact ⟨nofun, nofun⟩
  · intro s c p p' v' d q hs _ hc hA hstep hne hd hB
    cases hstep with
    | take =>
      -- Only the holder of the maintenance lock takes the slot.
      have hq : q.holdsMaintenance ≠ true := fun hq => hne (maintenance_unique hs hd hq hc rfl)
      exact ⟨by rintro rfl; exact absurd rfl hq, by rintro e rfl; exact absurd rfl hq⟩
    | clear =>
      refine ⟨fun hq => ?_, fun e he => ?_⟩
      · simp [hB.1 hq]
      · rcases hB.2 e he with hnone | hrun
        · simp [hnone]
        · by_cases hec : e = c <;> simp [hrun, hec]
    | _ => exact hB

/-- No scan is active while a maintenance operation has the slot to itself. -/
theorem not_active_of_quiet (h : protocol.Reach ok s) {c d : CallId} {q : Phase}
    (hc : s.calls c = some quiet) (hd : s.calls d = some q) : q.active = false := by
  rw [Bool.eq_false_iff]
  intro hq
  obtain ⟨r, hr, _⟩ := active_chain h d q hd hq
  rw [(slot_of_maintenance h hc).1 rfl] at hr
  cases hr

end CwTariWallet.SlotProtocol
