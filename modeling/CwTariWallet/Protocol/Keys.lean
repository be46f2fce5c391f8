/-
# CwTariWallet.Protocol.Keys -- one wallet's open count against its key session

What the unlocks, locks, deletes and renames of one wallet do to each other, and nothing else: the
generation of the wallet's entry, its unlock gate, and whether its key session is live.  A call is
reduced to the obligation it is under.  `Sound` is the invariant: the gate has one holder, an entry's
generation is older than every generation still to come, a live session without an entry is some
call's business, and the session of an unlock that succeeded into the present generation is live.
-/
import CwTariWallet.Interleaving

namespace CwTariWallet.KeyProtocol

open Interleaving

/-- What one wallet's calls share. -/
structure View where
  /-- The generation of the wallet's entry. -/
  entry : Option Nat
  /-- The generation the next new entry of any wallet gets. -/
  fresh : Nat
  gate : Option CallId
  live : Bool

/-- What a call has to do for this wallet. -/
inductive Phase where
  /-- Nothing. -/
  | out
  /-- Counted, and waiting for the gate. -/
  | counted (g : Nat)
  /-- Checking the passphrase, with the gate. -/
  | checking (g : Nat)
  /-- Checked: about to confirm the count, with the gate. -/
  | passed (g : Nat)
  /-- Confirmed: about to drop the gate. -/
  | confirmed (g : Nat)
  /-- Returned `Ok`. -/
  | holder (g : Nat)
  /-- Took the count to zero, or the entry away: the gate step is still to come. -/
  | owes
  /-- In the gate step: about to look for a newer holder. -/
  | reading
  /-- In the gate step: found none, about to lock the session. -/
  | locking
  /-- In the gate step: locked, about to cancel the scans. -/
  | cancelling
  /-- About to drop the gate. -/
  | leaving
  /-- Deleting or renaming. -/
  | writing
  /-- Deleted or renamed: about to take the entry away. -/
  | written
  /-- Changing the passphrase. -/
  | rewriting
  deriving DecidableEq, Repr

namespace Phase

/-- The phases with the gate. -/
def holdsGate : Phase → Bool
  | checking _ | passed _ | confirmed _ | reading | locking | cancelling | leaving => true
  | _ => false

/-- The generation an unlock was counted into. -/
def generation : Phase → Option Nat
  | counted g | checking g | passed g | confirmed g | holder g => some g
  | _ => none

/-- The phases that still answer for a live session nobody counts. -/
def answers : Phase → Bool
  | owes | reading | locking | passed _ => true
  | _ => false

/-- The generation an unlock vouches for a live session of. -/
def vouches : Phase → Option Nat
  | passed g | confirmed g | holder g => some g
  | _ => none

/-- The phases of a delete or rename in which minotari may have dropped the session. -/
def drops : Phase → Bool
  | writing | written => true
  | _ => false

/-- The phases of the operations that change the account itself. -/
def maintains : Phase → Bool
  | writing | written | rewriting => true
  | _ => false

@[simp]
theorem maintains_out : out.maintains = false := rfl

theorem maintains_of_drops {p : Phase} (h : p.drops = true) : p.maintains = true := by
  cases p <;> first | rfl | cases h

end Phase

open Phase

theorem Phase.generation_of_vouches {p : Phase} {g : Nat} (h : p.vouches = some g) :
    p.generation = some g := by
  cases p <;> first | exact h | cases h

/-- One step of a call, as far as this wallet is concerned. -/
inductive Step (c : CallId) : Phase → View → Phase → View → Prop
  /-- Something else; another wallet's new entry takes a generation. -/
  | tick {p v n} : v.fresh ≤ n → Step c p v p { v with fresh := n }
  | countNew {v} : v.entry = none →
      Step c out v (counted v.fresh) { v with entry := some v.fresh, fresh := v.fresh + 1 }
  | countMore {v g n} : v.entry = some g → v.fresh ≤ n →
      Step c out v (counted g) { v with fresh := n }
  | check {v g} : v.gate = none → Step c (counted g) v (checking g) { v with gate := some c }
  | pass {v g} : Step c (checking g) v (passed g) { v with live := true }
  | confirm {v g} : v.entry = some g → Step c (passed g) v (confirmed g) v
  | overtaken {v g} : v.entry ≠ some g → Step c (passed g) v reading v
  | giveBackLast {v g} : v.entry = some g →
      Step c (checking g) v reading { v with entry := none }
  | giveBack {v g} : Step c (checking g) v leaving v
  | hold {v g} : Step c (confirmed g) v (holder g) { v with gate := none }
  | release {v} : Step c out v owes { v with entry := none }
  | releaseWritten {v} : Step c written v owes { v with entry := none }
  | enter {v} : v.gate = none → Step c owes v reading { v with gate := some c }
  | readHeld {v} : v.entry ≠ none → Step c reading v leaving v
  | readFree {v} : v.entry = none → Step c reading v locking v
  | lock {v} : Step c locking v cancelling { v with live := false }
  | cancel {v} : Step c cancelling v leaving v
  | leave {v} : Step c leaving v out { v with gate := none }
  | write {v} : Step c out v writing v
  | drop {v} : Step c writing v writing { v with live := false }
  | wrote {v} : Step c writing v written v
  | rewrite {v} : Step c out v rewriting v
  | rewriteDrop {v} : Step c rewriting v rewriting { v with live := false }
  | rewrote {v} : Step c rewriting v out v

/-- The protocol of one wallet, in a fresh process. -/
def protocol : System View Phase where
  init v := v = ⟨none, 0, none, false⟩
  start p := p = out
  step := Step

/-- A configuration of the protocol. -/
abbrev State := Config View Phase

variable {ok : Guard View Phase} {s : State}

/-! ## The gate -/

/-- The call that does what only the gate's holder does is its holder. -/
theorem gate_holder (h : protocol.Reach ok s) {c : CallId} {p : Phase} (hc : s.calls c = some p)
    (hp : p.holdsGate = true) : s.shared.gate = some c := by
  refine h.outline (A := fun c p v => p.holdsGate = true → v.gate = some c) ?_ ?_ ?_ hc hp
  · intro s c p _ _ hstart hp
    obtain rfl : p = out := hstart
    cases hp
  · intro s c p p' v' _ _ _ hA hstep hp
    cases hstep <;> first | exact hA hp | exact hA rfl | rfl | cases hp
  · intro s c p p' v' d q _ _ _ hA hstep hne _ hB hq
    have hd := hB hq
    cases hstep with
    | check hfree => rw [hfree] at hd; cases hd
    | enter hfree => rw [hfree] at hd; cases hd
    | hold => exact absurd (Option.some.inj ((hA rfl).symm.trans hd)).symm hne
    | leave => exact absurd (Option.some.inj ((hA rfl).symm.trans hd)).symm hne
    | _ => exact hd

/-- Two calls that both hold the gate are one. -/
theorem gate_unique (h : protocol.Reach ok s) {c d : CallId} {p q : Phase}
    (hc : s.calls c = some p) (hp : p.holdsGate = true) (hd : s.calls d = some q)
    (hq : q.holdsGate = true) : c = d :=
  Option.some.inj ((gate_holder h hc hp).symm.trans (gate_holder h hd hq))

/-- Whoever the gate names is in a phase that holds it. -/
theorem gate_held (h : protocol.Reach ok s) :
    ∀ c, s.shared.gate = some c → ∃ p, s.calls c = some p ∧ p.holdsGate = true := by
  refine h.invariant (I := fun s => ∀ c, s.shared.gate = some c →
    ∃ p, s.calls c = some p ∧ p.holdsGate = true) ?_ ?_ ?_
  · rintro v rfl c hc
    cases hc
  · intro s m p _ ih _ hfree _ c hc
    obtain ⟨q, hq, hgate⟩ := ih c hc
    exact ⟨q, Config.put_calls_of_free hfree hq, hgate⟩
  · intro s m p p' v' hs ih _ hm hstep c hc
    by_cases hcm : c = m
    · subst hcm
      have hkeep : s.shared.gate = some c → p.holdsGate = true := by
        intro hgate
        obtain ⟨q, hq, hold⟩ := ih c hgate
        obtain rfl := Option.some.inj (hm.symm.trans hq)
        exact hold
      refine ⟨p', Config.put_calls_self _ _ _ _, ?_⟩
      cases hstep with
      | tick => exact hkeep hc
      | hold | leave => cases hc
      | check | pass | confirm | overtaken | giveBackLast | giveBack | enter | readHeld | readFree
      | lock | cancel => rfl
      | _ => cases hkeep hc
    · have hold : s.shared.gate = some c := by
        cases hstep with
        | check | enter => exact absurd (Option.some.inj hc).symm hcm
        | hold | leave => cases hc
        | _ => exact hc
      obtain ⟨q, hq, hgate⟩ := ih c hold
      exact ⟨q, by rw [Config.put_calls_ne _ _ _ hcm]; exact hq, hgate⟩

/-! ## Generations -/

/-- No generation is handed out twice while an entry has it. -/
theorem entry_lt_fresh (h : protocol.Reach ok s) :
    ∀ g, s.shared.entry = some g → g < s.shared.fresh := by
  refine h.invariant (I := fun s => ∀ g, s.shared.entry = some g → g < s.shared.fresh) ?_ ?_ ?_
  · rintro v rfl g hg
    cases hg
  · intro s c p _ ih _ _ _
    exact ih
  · intro s c p p' v' _ ih _ _ hstep g hg
    cases hstep with
    | tick hle => exact Nat.lt_of_lt_of_le (ih g hg) hle
    | countNew _ =>
      obtain rfl := Option.some.inj hg
      exact Nat.lt_succ_self _
    | countMore _ hle => exact Nat.lt_of_lt_of_le (ih g hg) hle
    | giveBackLast _ => cases hg
    | release => cases hg
    | releaseWritten => cases hg
    | _ => exact ih g hg

/-- Nor after an unlock was counted into it. -/
theorem call_lt_fresh (h : protocol.Reach ok s) {c : CallId} {p : Phase} {g : Nat}
    (hc : s.calls c = some p) (hg : p.generation = some g) : g < s.shared.fresh := by
  refine h.outline (A := fun _ p v => ∀ g, p.generation = some g → g < v.fresh) ?_ ?_ ?_ hc g hg
  · intro s c p _ _ hstart g hg
    obtain rfl : p = out := hstart
    cases hg
  · intro s c p p' v' hs _ _ hA hstep g hg
    cases hstep with
    | tick hle => exact Nat.lt_of_lt_of_le (hA g hg) hle
    | countNew _ =>
      obtain rfl := Option.some.inj hg
      exact Nat.lt_succ_self _
    | countMore he hle =>
      obtain rfl := Option.some.inj hg
      exact Nat.lt_of_lt_of_le (entry_lt_fresh hs _ he) hle
    | _ => first | exact hA g hg | cases hg
  · intro s c p p' v' d q _ _ _ _ hstep _ _ hB g hg
    have hlt := hB g hg
    cases hstep with
    | tick hle => exact Nat.lt_of_lt_of_le hlt hle
    | countNew _ => exact Nat.lt_succ_of_lt hlt
    | countMore _ hle => exact Nat.lt_of_lt_of_le hlt hle
    | _ => exact hlt

/-! ## The session -/

/-- A live session of a wallet without an entry is some call's business: it will lock it, or find out
that it has to. -/
theorem live_answered (h : protocol.Reach ok s) (hlive : s.shared.live = true)
    (hnone : s.shared.entry = none) : ∃ c p, s.calls c = some p ∧ p.answers = true := by
  refine h.invariant (I := fun s => s.shared.live = true → s.shared.entry = none →
    ∃ c p, s.calls c = some p ∧ p.answers = true) ?_ ?_ ?_ hlive hnone
  · rintro v rfl hlive
    cases hlive
  · intro s c p _ ih _ hfree _ hlive hnone
    exact Config.exists_put (by simp [hfree]) (ih hlive hnone)
  · intro s c p p' v' _ ih _ hc hstep hlive hnone
    -- The mover answers now, or whoever answered before still does.
    by_cases hp' : p'.answers = true
    · exact ⟨c, p', Config.put_calls_self _ _ _ _, hp'⟩
    have hbefore : s.shared.live = true ∧ s.shared.entry = none ∧ p.answers = false := by
      cases hstep with
      | tick => exact ⟨hlive, hnone, by simpa using hp'⟩
      | _ => simp_all [answers]
    refine Config.exists_put (fun q hq hans => ?_) (ih hbefore.1 hbefore.2.1)
    obtain rfl := Option.some.inj (hc.symm.trans hq)
    rw [hbefore.2.2] at hans
    cases hans

/-- Between `session::lock` and `cancel_wallet_scans` no session is live: the gate keeps out everybody
who could store one. -/
theorem not_live_of_cancelling (h : protocol.Reach ok s) {c : CallId}
    (hc : s.calls c = some cancelling) : s.shared.live = false := by
  refine h.outline (A := fun _ p v => p = cancelling → v.live = false) ?_ ?_ ?_ hc rfl
  · rintro s c p _ _ hstart rfl
    cases hstart
  · rintro s c p p' v' _ _ _ hA hstep rfl
    cases hstep with
    | tick => exact hA rfl
    | lock => rfl
  · rintro s c p p' v' d q hs _ hc _ hstep hne hd hB rfl
    have hdead := hB rfl
    cases hstep with
    | pass => exact absurd (gate_unique hs hd rfl hc rfl) hne
    | lock | drop | rewriteDrop => rfl
    | _ => exact hdead

/-- A call about to lock the session holds the gate against every unlock that succeeds now, and no
unlock that succeeded before was counted into the present entry. -/
theorem locking_not_vouched (h : protocol.Reach ok s) {c : CallId}
    (hc : s.calls c = some locking) {d : CallId} {q : Phase} {g : Nat} (hd : s.calls d = some q)
    (hq : q.vouches = some g) : s.shared.entry ≠ some g := by
  refine h.invariant (I := fun s => ∀ c, s.calls c = some locking → ∀ d q g,
    s.calls d = some q → q.vouches = some g → s.shared.entry ≠ some g) ?_ ?_ ?_ c hc d q g hd hq
  · intro v _ c hc
    cases hc
  · intro s c p _ ih _ _ hstart e he d q g hd hq
    obtain rfl : p = out := hstart
    rcases Config.put_calls_eq_some he with ⟨_, he⟩ | ⟨_, he⟩
    · cases he
    rcases Config.put_calls_eq_some hd with ⟨_, rfl⟩ | ⟨_, hd⟩
    · cases hq
    · exact ih e he d q g hd hq
  · intro s c p p' v' hs ih _ hc hstep e he' d q g hd' hq
    rcases Config.put_calls_eq_some he' with ⟨rfl, rfl⟩ | ⟨hec, he⟩
    · -- The mover itself reaches `locking`: it has just read that there is no entry.
      rcases Config.put_calls_eq_some hd' with ⟨_, rfl⟩ | ⟨_, hd⟩
      · cases hq
      cases hstep with
      | tick => exact ih _ hc d q g hd hq
      | readFree hnone => simp [hnone]
    have hother : p.holdsGate ≠ true := fun hp => hec (gate_unique hs he rfl hc hp)
    rcases Config.put_calls_eq_some hd' with ⟨rfl, rfl⟩ | ⟨_, hd⟩
    · -- The mover comes to vouch: not without the gate.
      cases hstep with
      | tick => exact ih e he _ _ g hc hq
      | pass => exact absurd rfl hother
      | confirm _ => exact absurd rfl hother
      | hold => exact absurd rfl hother
      | _ => cases hq
    · cases hstep with
      | countNew _ =>
        have hlt := call_lt_fresh hs hd (generation_of_vouches hq)
        exact fun heq => absurd (Option.some.inj heq) (Nat.ne_of_gt hlt)
      | giveBackLast _ => exact nofun
      | release => exact nofun
      | releaseWritten => exact nofun
      | _ => exact ih e he d q g hd hq

/-- How a step keeps the conclusion of `vouched_live`: a live session stays live or the mover drops,
and whoever drops still does. -/
theorem live_or_drops_put {c : CallId} {p p' : Phase} {v' : View} (hc : s.calls c = some p)
    (hlive : s.shared.live = true → v'.live = true ∨ p'.drops = true)
    (hdrops : p.drops = true → p'.drops = true)
    (h : s.shared.live = true ∨ ∃ e r, s.calls e = some r ∧ r.drops = true) :
    v'.live = true ∨ ∃ e r, (s.put c p' v').calls e = some r ∧ r.drops = true := by
  rcases h with h | h
  · exact (hlive h).imp_right fun hp' => ⟨c, p', Config.put_calls_self _ _ _ _, hp'⟩
  · refine Or.inr (Config.exists_put (fun q hq hr => ?_) h)
    obtain rfl := Option.some.inj (hc.symm.trans hq)
    exact hdrops hr

/-- While no passphrase is being changed, the session of an unlock that succeeded into the present
generation is live, unless a delete or rename has the wallet. -/
theorem vouched_live (h : protocol.Reach ok s)
    (hok : ∀ e s, ok e s → ∀ c, s.calls c ≠ some rewriting) {d : CallId} {q : Phase} {g : Nat}
    (hd : s.calls d = some q) (hq : q.vouches = some g) (hg : s.shared.entry = some g) :
    s.shared.live = true ∨ ∃ c p, s.calls c = some p ∧ p.drops = true := by
  refine h.invariant (I := fun s => ∀ d q g, s.calls d = some q → q.vouches = some g →
    s.shared.entry = some g → s.shared.live = true ∨ ∃ c p, s.calls c = some p ∧ p.drops = true)
    ?_ ?_ ?_ d q g hd hq hg
  · intro v _ d q g hd
    cases hd
  · intro s c p _ ih _ hfree hstart d q g hd hq hg
    obtain rfl : p = out := hstart
    rcases Config.put_calls_eq_some hd with ⟨_, rfl⟩ | ⟨_, hd⟩
    · cases hq
    rcases ih d q g hd hq hg with hlive | ⟨e, r, he, hr⟩
    · exact Or.inl hlive
    · exact Or.inr (Config.exists_put (by simp [hfree]) ⟨e, r, he, hr⟩)
  · intro s c p p' v' hs ih hguard hc hstep d q g hd' hq hg
    rcases Config.put_calls_eq_some hd' with ⟨rfl, rfl⟩ | ⟨_, hd⟩
    · -- The mover vouches: it has just seen or stored the session, or it vouched before.
      cases hstep with
      | tick => exact live_or_drops_put hc Or.inl id (ih d _ g hc hq hg)
      | pass => exact Or.inl rfl
      | confirm _ => exact live_or_drops_put hc Or.inl nofun (ih d _ g hc hq hg)
      | hold => exact live_or_drops_put hc Or.inl nofun (ih d _ g hc hq hg)
      | _ => cases hq
    have hne : g ≠ s.shared.fresh := Nat.ne_of_lt (call_lt_fresh hs hd (generation_of_vouches hq))
    have hentry : s.shared.entry = some g := by
      cases hstep with
      | countNew _ => exact absurd (Option.some.inj hg).symm hne
      | giveBackLast _ => cases hg
      | release => cases hg
      | releaseWritten => cases hg
      | _ => exact hg
    refine live_or_drops_put hc ?_ ?_ (ih d q g hd hq hentry)
    · intro hlive
      cases hstep with
      | lock => exact absurd hentry (locking_not_vouched hs hc hd hq)
      | drop => exact Or.inr rfl
      | rewriteDrop => exact absurd hc (hok _ _ hguard c)
      | pass => exact Or.inl rfl
      | _ => exact Or.inl hlive
    · intro hdrops
      cases hstep with
      | tick => exact hdrops
      | drop => rfl
      | wrote => rfl
      | releaseWritten => cases hg
      | _ => cases hdrops

end CwTariWallet.KeyProtocol
