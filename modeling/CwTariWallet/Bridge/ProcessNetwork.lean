/-
# CwTariWallet.Bridge.ProcessNetwork -- the network that is set, and the networks calls are for

`apply_network` hands a call's network to `tari_common` and returns what it answers; the bridge compares it
with nothing itself.  `tari_common` keeps the first network set in a write-once cell (`TariCommon.KeepsFirst`),
so what `current_network` answers stays (`currentNetwork_stays`).  Whether a call that got past `apply_network` is
for that network is another matter, and the crate's alone: in every interleaving it is, if and only if
`tari_common` refuses a network other than the one set (`network_writeOnce`).
-/
import CwTariWallet.Isolation.Calls

namespace CwTariWallet

open Interleaving

/-- `current_network`. -/
def Shared.currentNetwork (σ : Shared) : Option Network := σ.network.current

/-- A choice that is let through is set, if none is; the one set stays. -/
def TariCommon.KeepsFirst (tariCommon : TariCommon) : Prop :=
  ∀ current choice after, tariCommon.setNetworkIfChoiceValid current choice = .ok after →
    after = current.or (some choice)

/-- Once a network is set, another is refused. -/
def TariCommon.RefusesOthers (tariCommon : TariCommon) : Prop :=
  ∀ first other after after', tariCommon.setNetworkIfChoiceValid none first = .ok after →
    tariCommon.setNetworkIfChoiceValid (some first) other = .ok after' → other = first

/-- `apply_network` has returned `Ok` to the call, so far as its position tells: it may still fail, and once
it has failed there is nothing left of it. -/
def Call.networkApplied : Call → Bool
  | .sendTransaction s =>
    match s.pos with
    | .initializing | .validate | .applyNetwork _ | .returned (.error _) => false
    | _ => true
  | .createWallet c =>
    match c.pos with
    | .network | .returned (.error _) => false
    | _ => true
  | .getAddress a =>
    match a.pos with
    | .network | .returned (.error _) => false
    | _ => true
  | _ => false

variable {me : CallId} {ch : Choice} {σ σ' : Shared} {call call' : Call} {s t : World}
  {ok : Guard Shared Call} {n m : Network} {tariCommon : TariCommon}

theorem Call.namesNetwork_begun (call : Call) : call.begun.namesNetwork = call.namesNetwork := by
  cases call <;> rfl

/-- A call stays for the network it was made for. -/
theorem Call.next_namesNetwork (h : call.next me ch σ = some (call', σ')) :
    call'.namesNetwork = call.namesNetwork := by
  rw [← call'.namesNetwork_begun, Call.next_begun h, call.namesNetwork_begun]

theorem Call.networkApplied_of_starts (h : call.starts = true) : call.networkApplied = false := by
  cases call with
  | sendTransaction x =>
    rw [of_decide_eq_true h]
    rfl
  | createWallet x => simp [networkApplied, of_decide_eq_true h]
  | getAddress x =>
    rw [of_decide_eq_true h]
    rfl
  | _ => rfl

/-! ## What a step does about the network -/

/-- A step leaves the network and does not get past `apply_network`, or the crate lets the network through that
the call is for. -/
def NetworkStep (call : Call) (σ : Shared) (call' : Call) (σ' : Shared) : Prop :=
  (σ'.network = σ.network ∧ (call'.networkApplied = true → call.networkApplied = true)) ∨
    ∃ n, call.namesNetwork = some n ∧ σ.network.setIfChoiceValid n = .ok σ'.network

theorem Shared.applyNetwork_ok {u : Unit} (h : σ.applyNetwork n = (.ok u, σ')) :
    σ.network.setIfChoiceValid n = .ok σ'.network := by
  unfold applyNetwork at h
  split at h <;> cases h
  assumption

theorem Shared.applyNetwork_error {e : BridgeError} (h : σ.applyNetwork n = (.error e, σ')) : σ' = σ := by
  unfold applyNetwork at h
  split at h <;> cases h
  rfl

theorem CreateWallet.networkStep {c c' : CreateWallet} (h : c.next ch σ = some (c', σ')) :
    NetworkStep (.createWallet c) σ (.createWallet c') σ' := by
  obtain ⟨w, network, passphrase, source, pos⟩ := c
  unfold CreateWallet.next at h
  cases pos with
  | network =>
    dsimp only at h
    split at h <;> cases h
    · rename_i happly
      left
      rw [Shared.applyNetwork_error happly]
      exact ⟨rfl, fun happlied => by cases happlied⟩
    · right
      exact ⟨_, rfl, Shared.applyNetwork_ok ‹_›⟩
  | returned r => cases h
  | _ =>
    dsimp only at h
    (repeat' split at h) <;> cases h <;> exact Or.inl ⟨rfl, fun _ => rfl⟩

theorem GetAddress.networkStep {a a' : GetAddress} (h : a.next ch σ = some (a', σ')) :
    NetworkStep (.getAddress a) σ (.getAddress a') σ' := by
  obtain ⟨w, network, pos, live⟩ := a
  unfold GetAddress.next at h
  cases pos with
  | network =>
    dsimp only at h
    split at h <;> cases h
    · rename_i happly
      left
      rw [Shared.applyNetwork_error happly]
      exact ⟨rfl, fun happlied => by cases happlied⟩
    · right
      exact ⟨_, rfl, Shared.applyNetwork_ok ‹_›⟩
  | returned r => cases h
  | _ =>
    dsimp only at h
    (repeat' split at h) <;> cases h <;> exact Or.inl ⟨rfl, fun _ => rfl⟩

/-- A send applies the network it was validated for, which is the one it names. -/
theorem SendTransaction.networkStep {x x' : SendTransaction}
    (hparsed : ∀ v, x.pos = .applyNetwork v → v.network = parseNetwork x.details.network)
    (h : x.next ch σ = some (x', σ')) : NetworkStep (.sendTransaction x) σ (.sendTransaction x') σ' := by
  obtain ⟨details, pos, log⟩ := x
  unfold SendTransaction.next at h
  cases pos with
  | initializing =>
    cases h
    exact Or.inl ⟨rfl, fun happlied => by cases happlied⟩
  | validate =>
    dsimp only at h
    split at h <;> cases h <;> exact Or.inl ⟨rfl, fun happlied => by cases happlied⟩
  | applyNetwork v =>
    obtain hv : v.network = parseNetwork details.network := hparsed v rfl
    dsimp only at h
    split at h <;> cases h
    · rename_i happly
      left
      rw [Shared.applyNetwork_error happly]
      exact ⟨rfl, fun happlied => by cases happlied⟩
    · right
      rename_i happly
      rw [hv] at happly
      exact ⟨_, rfl, Shared.applyNetwork_ok happly⟩
  | returned r => cases h
  | _ =>
    dsimp only at h
    (repeat' split at h) <;> cases h <;> exact Or.inl ⟨rfl, fun _ => rfl⟩

/-- The network a send was validated for is the one it names. -/
theorem send_network {ok : Guard Shared Call} {s : World} (h : system.Reach ok s) :
    ∀ c x v, s.calls c = some (.sendTransaction x) → x.pos = .applyNetwork v →
      v.network = parseNetwork x.details.network := by
  refine h.invariant (I := fun s : World => ∀ c x v, s.calls c = some (.sendTransaction x) →
    x.pos = .applyNetwork v → v.network = parseNetwork x.details.network) ?_ ?_ ?_
  · intro σ _ c x v hc
    cases hc
  · intro s m l _ ih _ _ hl c x v hc hpos
    rcases Config.put_calls_eq_some hc with ⟨-, rfl⟩ | ⟨-, hc⟩
    · have hstart := of_decide_eq_true hl
      rw [hstart] at hpos
      cases hpos
    · exact ih c x v hc hpos
  · rintro s m l l' σ' _ ih _ hm ⟨ch, hstep⟩ c x v hc hpos
    rcases Config.put_calls_eq_some hc with ⟨-, rfl⟩ | ⟨-, hc⟩
    · cases l <;> obtain ⟨⟨y', σ''⟩, hr, h'⟩ := Option.map_eq_some_iff.mp hstep <;> cases h'
      rename_i y
      rw [SendTransaction.next_details hr]
      obtain ⟨details, pos, log⟩ := y
      unfold SendTransaction.next at hr
      cases pos with
      | validate =>
        dsimp only at hr
        split at hr <;> cases hr
        · cases hpos
        · cases hpos
          -- Validation is where the network a send is for is parsed.
          exact (SendGate.validateInputs_eq_ok ‹_›).2.1
      | release sender row cause file | releaseConn sender row cause =>
        cases cause <;> dsimp only at hr <;> (repeat' split at hr) <;> cases hr <;> cases hpos
      | _ =>
        dsimp only at hr
        (repeat' split at hr) <;> cases hr <;> cases hpos
    · exact ih c x v hc hpos

theorem Call.networkStep (hs : system.Reach ok s) (hc : s.calls me = some call)
    (h : call.next me ch s.shared = some (call', σ')) : NetworkStep call s.shared call' σ' := by
  cases call with
  | sendTransaction x =>
    obtain ⟨⟨x', σ''⟩, hr, h⟩ := Option.map_eq_some_iff.mp h
    cases h
    exact SendTransaction.networkStep (fun v hpos => send_network hs me x v hc hpos) hr
  | createWallet c =>
    obtain ⟨⟨c', σ''⟩, hr, h⟩ := Option.map_eq_some_iff.mp h
    cases h
    exact CreateWallet.networkStep hr
  | getAddress a =>
    obtain ⟨⟨a', σ''⟩, hr, h⟩ := Option.map_eq_some_iff.mp h
    cases h
    exact GetAddress.networkStep hr
  | _ =>
    left
    refine ⟨Call.next_network_of_unnamed h rfl, fun happlied => ?_⟩
    obtain ⟨⟨x', σ''⟩, hr, h⟩ := Option.map_eq_some_iff.mp h
    cases h
    cases happlied

/-! ## For the life of the process -/

theorem ProcessNetwork.setIfChoiceValid_eq_ok {network network' : ProcessNetwork}
    (h : network.setIfChoiceValid n = .ok network') : ∃ after,
      network.tariCommon.setNetworkIfChoiceValid network.current n = .ok after ∧
      network' = { network with current := after } := by
  unfold setIfChoiceValid at h
  split at h <;> cases h
  exact ⟨_, ‹_›, rfl⟩

/-- Once set, the network stays. -/
theorem Shared.NetworkFrom.stays (h : σ.NetworkFrom σ') (hkeeps : σ.network.tariCommon.KeepsFirst)
    (hn : σ.currentNetwork = some n) : σ'.currentNetwork = some n := by
  unfold Shared.currentNetwork at hn ⊢
  rcases h with hsame | ⟨m, hset⟩
  · rw [hsame, hn]
  · obtain ⟨after, hafter, hnetwork⟩ := ProcessNetwork.setIfChoiceValid_eq_ok hset
    rw [hnetwork]
    show after = some n
    rw [hkeeps _ _ _ hafter, hn]
    rfl

/-- A process stays with the crate it is built with, and what `current_network` answers stays. -/
theorem currentNetwork_stays (hkeeps : s.shared.network.tariCommon.KeepsFirst) (h : system.Reach ok s)
    (hst : system.Steps ok s t) (hn : s.shared.currentNetwork = some n) :
    t.shared.currentNetwork = some n := by
  have hboth : t.shared.currentNetwork = some n ∧
      t.shared.network.tariCommon = s.shared.network.tariCommon := by
    refine hst.stable (I := fun t : World => t.shared.currentNetwork = some n ∧
      t.shared.network.tariCommon = s.shared.network.tariCommon) (fun _ _ hok => hok) ?_ ?_ h ⟨hn, rfl⟩
    · intro t c call _ ih _ _ _
      exact ih
    · rintro t c call call' σ' - ⟨hset, hcrate⟩ - - ⟨ch, hnext⟩
      have hfrom := Call.next_network hnext
      rw [← hcrate] at hkeeps
      exact ⟨hfrom.stays hkeeps hset, hfrom.crate_eq.trans hcrate⟩
  exact hboth.1

/-- The network that is set is one the crate let through while none was. -/
theorem firstNetwork_valid (h : system.Reach ok s) (hkeeps : s.shared.network.tariCommon.KeepsFirst)
    (hn : s.shared.currentNetwork = some n) :
    ∃ after, s.shared.network.tariCommon.setNetworkIfChoiceValid none n = .ok after := by
  refine h.invariant (I := fun s : World => s.shared.network.tariCommon.KeepsFirst →
    ∀ n, s.shared.currentNetwork = some n →
      ∃ after, s.shared.network.tariCommon.setNetworkIfChoiceValid none n = .ok after) ?_ ?_ ?_ hkeeps n hn
  · rintro σ ⟨files, tariCommon, rfl⟩ _ n hn
    cases hn
  · intro s c call _ ih _ _ _
    exact ih
  · rintro s c call call' σ' - ih - - ⟨ch, hnext⟩ hkeeps n hn
    have hfrom := Call.next_network hnext
    rw [show (Config.put s c call' σ').shared = σ' from rfl] at hkeeps hn ⊢
    rw [hfrom.crate_eq] at hkeeps ⊢
    rcases hfrom with hsame | ⟨m, hset⟩
    · refine ih hkeeps n ?_
      unfold Shared.currentNetwork at hn ⊢
      rw [← hsame, hn]
    · cases hcurrent : s.shared.currentNetwork with
      | some k =>
        have hstays := Shared.NetworkFrom.stays (Or.inr ⟨m, hset⟩) hkeeps hcurrent
        obtain rfl : k = n := Option.some.inj (hstays.symm.trans hn)
        exact ih hkeeps k hcurrent
      | none =>
        obtain ⟨after, hafter, hnetwork⟩ := ProcessNetwork.setIfChoiceValid_eq_ok hset
        unfold Shared.currentNetwork at hcurrent hn
        rw [hcurrent] at hafter
        rw [hnetwork] at hn
        have hset : after = some m := hkeeps _ _ _ hafter
        obtain rfl : m = n := Option.some.inj (hset.symm.trans hn)
        exact ⟨after, hafter⟩

/-- Each call past `apply_network` is for the network that `current_network` answers. -/
def World.ForCurrent (s : World) : Prop :=
  ∀ c call, s.calls c = some call → call.networkApplied = true →
    call.namesNetwork = s.shared.currentNetwork ∧ s.shared.currentNetwork ≠ none

theorem forCurrent_of_refusesOthers (h : system.Reach ok s)
    (hkeeps : s.shared.network.tariCommon.KeepsFirst)
    (hrefuses : s.shared.network.tariCommon.RefusesOthers) : s.ForCurrent := by
  intro c call hc happlied
  have hset : s.shared.network.tariCommon.KeepsFirst → s.shared.network.tariCommon.RefusesOthers →
      call.networkApplied = true → ∃ n, call.namesNetwork = some n ∧ s.shared.currentNetwork = some n := by
    refine h.outline (A := fun _ call σ => σ.network.tariCommon.KeepsFirst →
      σ.network.tariCommon.RefusesOthers → call.networkApplied = true →
        ∃ n, call.namesNetwork = some n ∧ σ.currentNetwork = some n) ?_ ?_ ?_ hc
    · intro s c call _ _ hstart _ _ happlied
      rw [Call.networkApplied_of_starts hstart] at happlied
      cases happlied
    · rintro s c call call' σ' hs - hc ih ⟨ch, hnext⟩ hkeeps hrefuses happlied
      rw [(Call.next_network hnext).crate_eq] at hkeeps hrefuses
      rw [Call.next_namesNetwork hnext]
      rcases Call.networkStep hs hc hnext with ⟨hsame, hbefore⟩ | ⟨n, hnamed, hset⟩
      · unfold Shared.currentNetwork
        rw [hsame]
        exact ih hkeeps hrefuses (hbefore happlied)
      · refine ⟨n, hnamed, ?_⟩
        cases hcurrent : s.shared.currentNetwork with
        | none =>
          obtain ⟨after, hafter, hnetwork⟩ := ProcessNetwork.setIfChoiceValid_eq_ok hset
          unfold Shared.currentNetwork at hcurrent ⊢
          rw [hcurrent] at hafter
          rw [hnetwork]
          exact hkeeps _ _ _ hafter
        | some first =>
          -- The network set is one that was let through first, so the crate lets no other through.
          obtain ⟨after, hfirst⟩ := firstNetwork_valid hs hkeeps hcurrent
          obtain ⟨after', hother, -⟩ := ProcessNetwork.setIfChoiceValid_eq_ok hset
          unfold Shared.currentNetwork at hcurrent
          rw [hcurrent] at hother
          obtain rfl := hrefuses _ _ _ _ hfirst hother
          exact Shared.NetworkFrom.stays (Or.inr ⟨n, hset⟩) hkeeps hcurrent
    · rintro s c call call' σ' d other hs - hc - ⟨ch, hnext⟩ - - ih hkeeps hrefuses happlied
      rw [(Call.next_network hnext).crate_eq] at hkeeps hrefuses
      obtain ⟨n, hnamed, hn⟩ := ih hkeeps hrefuses happlied
      exact ⟨n, hnamed, (Call.next_network hnext).stays hkeeps hn⟩
  obtain ⟨n, hnamed, hn⟩ := hset hkeeps hrefuses happlied
  rw [hnamed, hn]
  exact ⟨rfl, nofun⟩

/-- A `get_address` of a network the crate lets through gets past `apply_network`. -/
theorem asks_network {after : Option Network} {c : CallId} (h : system.Reach (fun _ _ => True) s)
    (hfree : s.calls c = none)
    (hset : s.shared.network.tariCommon.setNetworkIfChoiceValid s.shared.currentNetwork n = .ok after) :
    ∃ t call, system.Reach (fun _ _ => True) t ∧ t.calls c = some call ∧ call.networkApplied = true ∧
      call.namesNetwork = some n ∧ t.shared.network = { s.shared.network with current := after } ∧
      ∀ d, d ≠ c → t.calls d = s.calls d := by
  let asked : Call := .getAddress ⟨"main", some n, .network, none⟩
  let past : Call := .getAddress ⟨"main", some n, .conn, none⟩
  let σ' : Shared := { s.shared with network := { s.shared.network with current := after } }
  have hnext : asked.next c {} s.shared = some (past, σ') := by
    have happly : s.shared.applyNetwork n = (.ok (), σ') := by
      unfold Shared.applyNetwork ProcessNetwork.setIfChoiceValid
      unfold Shared.currentNetwork at hset
      rw [hset]
    show Option.map _ (GetAddress.next {} s.shared ⟨"main", some n, .network, none⟩) = _
    unfold GetAddress.next
    rw [parseNetwork_some, happly]
    rfl
  have hstarts : asked.starts = true := decide_eq_true rfl
  refine ⟨(s.put c asked s.shared).put c past σ', past, ?_, Config.put_calls_self _ _ _ _, rfl, rfl, rfl, ?_⟩
  · refine .move (e := .step c) (.move (e := .start c asked) h trivial (.start hfree hstarts)) trivial ?_
    exact .step (Config.put_calls_self _ _ _ _) ⟨{}, hnext⟩
  · intro d hd
    rw [Config.put_calls_ne _ _ _ hd, Config.put_calls_ne _ _ _ hd]

theorem forCurrent_iff (hkeeps : tariCommon.KeepsFirst) :
    (∀ s : World, system.Reach (fun _ _ => True) s → s.shared.network.tariCommon = tariCommon →
      s.ForCurrent) ↔ tariCommon.RefusesOthers := by
  constructor
  · intro hall first other after after' hfirst hother
    have hinit : system.init (Shared.initial (fun _ => sampleFile) tariCommon) := ⟨_, _, rfl⟩
    obtain ⟨s, -, hs, -, -, -, hset, hothers⟩ := asks_network (c := 0) (.init hinit) rfl hfirst
    have hcurrent : s.shared.currentNetwork = some first := by
      unfold Shared.currentNetwork
      rw [hset]
      exact hkeeps _ _ _ hfirst
    have hother' : s.shared.network.tariCommon.setNetworkIfChoiceValid s.shared.currentNetwork other =
        .ok after' := by
      rw [hset, hcurrent]
      exact hother
    obtain ⟨t, call, ht, hc, happlied, hnamed, hset', -⟩ :=
      asks_network (c := 1) hs (hothers 1 (by decide)) hother'
    have hcrate : t.shared.network.tariCommon = tariCommon := by
      rw [hset', hset]
      rfl
    obtain ⟨hsame, -⟩ := hall t ht hcrate 1 call hc happlied
    have hcurrent' : t.shared.currentNetwork = some first := by
      unfold Shared.currentNetwork
      rw [hset']
      exact hkeeps _ _ _ hother
    rw [hnamed, hcurrent'] at hsame
    exact Option.some.inj hsame
  · rintro hrefuses s hs rfl
    exact forCurrent_of_refusesOthers hs hkeeps hrefuses

/-- The network that is set stays for the life of the process.  And what `current_network` answers is what every
call past `apply_network` is for, if and only if the crate refuses a network other than the one set. -/
theorem network_writeOnce (hkeeps : tariCommon.KeepsFirst) :
    (∀ (s t : World) (n : Network), system.Reach (fun _ _ => True) s →
      s.shared.network.tariCommon = tariCommon → system.Steps (fun _ _ => True) s t →
        s.shared.currentNetwork = some n → t.shared.currentNetwork = some n) ∧
    ((∀ s : World, system.Reach (fun _ _ => True) s → s.shared.network.tariCommon = tariCommon →
      s.ForCurrent) ↔ tariCommon.RefusesOthers) := by
  refine ⟨?_, forCurrent_iff hkeeps⟩
  rintro s t n hs rfl hst hn
  exact currentNetwork_stays hkeeps hs hst hn

theorem TariCommon.mainNetworks_keepsFirst : TariCommon.mainNetworks.KeepsFirst := by
  intro current choice after hset
  unfold mainNetworks at hset
  dsimp only at hset
  split at hset <;> cases hset
  rfl

/-- A build for the main networks lets `StageNet` through where `MainNet` is set. -/
theorem network_writeOnce_mainNetworks :
    ∃ s : World, system.Reach (fun _ _ => True) s ∧ s.shared.network.tariCommon = .mainNetworks ∧
      ¬ s.ForCurrent := by
  obtain ⟨-, hiff⟩ := network_writeOnce TariCommon.mainNetworks_keepsFirst
  have hlets : ¬ TariCommon.mainNetworks.RefusesOthers := by
    intro hrefuses
    have hsame := hrefuses .mainNet .stageNet (some .mainNet) (some .mainNet) rfl rfl
    cases hsame
  by_contra hnone
  refine hlets (hiff.mp fun s hs hcrate => ?_)
  by_contra hnot
  exact hnone ⟨s, hs, hcrate, hnot⟩

end CwTariWallet
