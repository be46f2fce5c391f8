/-
# CwTariWallet.FrbGenerated.Sessions -- the bridge as it is seen from Dart

A caller sees through the bridge what it would see of the API itself (`wire_eq_direct`): nothing is decoded as
something else, and no port gets what belongs on another.  What was put on a port comes off it in that order,
none lost and none twice, each as it was put there unless a text in it starts with a byte-order mark
(`posted_arrives`).
-/
import CwTariWallet.FrbGenerated.Ports

namespace CwTariWallet.FrbGenerated

open Codec (Bytes Format)

section

variable (b : Buffer) (action : Format Rust2DartAction)

/-! ## No message outgrows its length -/

def Post.Short (post : Post String) : Prop := (Rust.encodePost b action post).length < messageLimit

/-- What Rust has sent so far. -/
def Session.Short {State Msg : Type} (w : Session State Msg) : Prop :=
  (∀ port, ∀ post ∈ w.posted port, post.Short b action) ∧ ∀ post ∈ w.answered, post.Short b action

/-- What Rust ever sends. -/
structure Api.Short {State : Type} (api : Api State) : Prop where
  sync : ∀ s call, (Post.reply (api.sync s call).2).Short b action
  turn : ∀ s input port post, (port, post) ∈ (api.turn s input).2 → post.Short b action

/-- What a caller sends, whichever of the first `n` ports a stream gets. -/
def Act.Short (sinks : StreamSinks) (n : Nat) : Act → Prop
  | .invoke call => ∀ port < n,
    (Dart.callFfi b (call.withSink (sinks.setupAndSerialize port))).bytes.length < messageLimit
  | _ => True

instance (sinks : StreamSinks) (n : Nat) : (act : Act) → Decidable (act.Short b sinks n)
  | .invoke call => inferInstanceAs (Decidable (∀ port < n,
    (Dart.callFfi b (call.withSink (sinks.setupAndSerialize port))).bytes.length < messageLimit))
  | .time | .cancel _ | .receive _ => isTrue trivial

namespace ApiCall

theorem withSink_of_sync {call : ApiCall DartString} (h : modeOf b call = .sync) (text : DartString) :
    call.withSink text = call := by
  cases call <;> first | rfl | cases h

theorem withSink_of_none {τ : Type} {call : ApiCall τ} (h : call.sink = none) (text : τ) :
    call.withSink text = call := by
  cases call <;> first | rfl | cases h

end ApiCall

/-! ## Bytes for posts -/

/-- A listener makes of a message the post it was. -/
theorem take_put {listener : Listener} {post : Post String} (h : listener.Takes post)
    (hlimit : post.Short b action) :
    (wire b action).take listener ((wire b action).put post) = some (post.map DartString.ofRust) := by
  obtain ⟨due, hfits, hadmits⟩ := h
  show Dart.decodePost b action listener (Rust.encodePost b action post) = _
  cases listener with
  | future call =>
    cases due with
    | reply arrived =>
      obtain rfl : arrived = call.map DartString.toRust := hfits
      cases post with
      | reply outcome =>
        have hdecode : (Dart.codecOf b call).decodeObject action (Rust.transformResultSse b action outcome) =
            some (outcomeMap DartString.ofRust outcome) :=
          decodeObject_transformResultSse b action hadmits hlimit
        simp only [Dart.decodePost, Rust.encodePost, hdecode]
        rfl
      | _ => cases hadmits
    | _ => cases hfits
  | scanEvents =>
    cases due with
    | scanEvents =>
      cases post with
      | scanEvent event =>
        have hdecode : (Dart.scanEventCodec b).decodeObject action
            (Rust.sinkAdd action (Rust.sseEncodeScanEventDto b event)) =
              some (.ok (event.map DartString.ofRust)) :=
          decodeObject_success action (Replies.scanEventDto_reads b event) hlimit
        simp only [Dart.decodePost, Rust.encodePost, hdecode]
        rfl
      | _ => cases hadmits
    | _ => cases hfits
  | sendEvents =>
    cases due with
    | sendEvents =>
      cases post with
      | sendEvent event =>
        have hdecode : (Dart.sendTransactionEventCodec b).decodeObject action
            (Rust.sinkAdd action (Rust.sseEncodeSendTransactionEvent b event)) =
              some (.ok (event.map DartString.ofRust)) :=
          decodeObject_success action (Replies.sendTransactionEvent_reads b event) hlimit
        simp only [Dart.decodePost, Rust.encodePost, hdecode]
        rfl
      | _ => cases hadmits
    | _ => cases hfits

/-! ## One step on both -/

variable {State : Type} {sinks : StreamSinks} {api : Api State} {d d' : Session State (Post String)}

variable (api) in
/-- Without messages, what has been reached: a port serves one purpose, what came off it is what was first put on
it, and nothing has come on a port that is still to be opened. -/
structure Session.Sound (d : Session State (Post String)) : Prop where
  fits : ∀ port due listener, api.holds d.rust port = some due → d.listeners port = some listener →
    listener.Fits due
  takes : ∀ port post listener, post ∈ d.underWay port → d.listeners port = some listener →
    listener.Takes post
  short : ∀ port post, post ∈ d.underWay port → post.Short b action
  order : ∀ port, (d.posted port).map (Post.map DartString.ofRust) =
    d.receivedOn port ++ (d.underWay port).map (Post.map DartString.ofRust)
  fresh : ∀ port, d.ports ≤ port → api.holds d.rust port = none ∧ d.listeners port = none ∧
    d.underWay port = []

/-- The same, with messages. -/
def Session.onWire (d : Session State (Post String)) : Session State Bytes :=
  { d with underWay := fun port => (d.underWay port).map (Rust.encodePost b action) }

/-- An act that comes to the same on both, with all messages short. -/
structure Session.Mirrored (sinks : StreamSinks) (api : Api State) (n : Nat) (act : Act)
    (d d' : Session State (Post String)) : Prop where
  direct : d.step sinks api direct (modeOf b) act = some d'
  ports : d'.ports ≤ d.ports + 2
  short : d'.Short b action → d.Short b action
  stays : api.Short b action → d.Short b action → d'.Short b action
  wire : d.Sound b action api → d.ports < n → act.Short b sinks n → d'.Short b action →
    (d.onWire b action).step sinks api (wire b action) (modeOf b) act = some (d'.onWire b action)
  sound : d.Sound b action api → d'.Short b action → d'.Sound b action api

variable {b action}

theorem mem_postsOn {port : Nat} {posts : List (Nat × Post String)} {post : Post String} :
    post ∈ postsOn port posts ↔ (port, post) ∈ posts := by
  simp only [postsOn, List.mem_filterMap, Option.ite_none_right_eq_some, Option.some.injEq]
  constructor
  · rintro ⟨⟨p, q⟩, hmem, rfl, rfl⟩
    exact hmem
  · intro hmem
    exact ⟨(port, post), hmem, rfl, rfl⟩

theorem eq_none_of_imp {α : Type} {o o' : Option α} (h : ∀ x, o = some x → o' = some x) (ho' : o' = none) :
    o = none := by
  rw [Option.eq_none_iff_forall_ne_some]
  intro x hx
  rw [h x hx] at ho'
  cases ho'

namespace Session

@[simp]
theorem onWire_sees (d : Session State (Post String)) (x : Seen) :
    (d.sees x).onWire b action = (d.onWire b action).sees x := rfl

@[simp]
theorem onWire_opens (d : Session State (Post String)) (listener : Listener) (n : Nat) :
    (d.opens listener n).onWire b action = (d.onWire b action).opens listener n := rfl

@[simp]
theorem onWire_closes (d : Session State (Post String)) (port : Nat) :
    (d.closes port).onWire b action = (d.onWire b action).closes port := rfl

@[simp]
theorem onWire_turn (d : Session State (Post String)) (input : Input) :
    (d.turn api direct input).onWire b action = (d.onWire b action).turn api (wire b action) input := by
  simp [onWire, turn, direct, wire]

theorem Sound.sees (h : d.Sound b action api) {x : Seen} (hx : ∀ port, x.cameOn port = none) :
    (d.sees x).Sound b action api := by
  refine ⟨h.fits, h.takes, h.short, ?_, h.fresh⟩
  intro port
  rw [receivedOn_sees, hx port, Option.toList_none, List.append_nil]
  exact h.order port

theorem short_of_turn {input : Input} (h : (d.turn api direct input).Short b action) : d.Short b action :=
  ⟨fun port post hpost => h.1 port post (List.mem_append_left _ hpost), h.2⟩

theorem short_turn (h : d.Short b action) (hapi : api.Short b action) (input : Input) :
    (d.turn api direct input).Short b action := by
  refine ⟨?_, h.2⟩
  intro port post hpost
  rcases List.mem_append.mp hpost with hold | hnew
  · exact h.1 port post hold
  · exact hapi.turn _ _ _ _ (mem_postsOn.mp hnew)

/-- Rust goes on with the ports it has: whatever it puts on one is what Dart takes off it. -/
theorem sound_turn {input : Input} (hposts : (d.turn api direct input).Short b action)
    (hfits : ∀ port due listener, input.hands (api.holds d.rust) port = some due →
      d.listeners port = some listener → listener.Fits due)
    (hfresh : ∀ port, d.ports ≤ port → input.hands (api.holds d.rust) port = none ∧ d.listeners port = none ∧
      d.underWay port = [])
    (htakes : ∀ port post listener, post ∈ d.underWay port → d.listeners port = some listener →
      listener.Takes post)
    (hshort : ∀ port post, post ∈ d.underWay port → post.Short b action)
    (horder : ∀ port, (d.posted port).map (Post.map DartString.ofRust) =
      d.receivedOn port ++ (d.underWay port).map (Post.map DartString.ofRust)) :
    (d.turn api direct input).Sound b action api := by
  -- What is under way on a port was so before, or has just been put there.
  have mem {port : Nat} {post : Post String} (h : post ∈ (d.turn api direct input).underWay port) :
      post ∈ d.underWay port ∨ (port, post) ∈ (api.turn d.rust input).2 := by
    rcases List.mem_append.mp h with hold | hnew
    · exact Or.inl hold
    · rw [show direct.put = id from rfl, List.map_id, mem_postsOn] at hnew
      exact Or.inr hnew
  constructor
  · intro port due listener hdue hlistener
    exact hfits port due listener (api.turn_holds _ _ _ _ hdue) hlistener
  · intro port post listener hpost hlistener
    rcases mem hpost with hold | hnew
    · exact htakes port post listener hold hlistener
    · obtain ⟨due, hdue, hadmits⟩ := api.turn_posts _ _ _ _ hnew
      exact ⟨due, hfits port due listener hdue hlistener, hadmits⟩
  · intro port post hpost
    rcases mem hpost with hold | hnew
    · exact hshort port post hold
    · exact hposts.1 port post (List.mem_append_right _ (mem_postsOn.mpr hnew))
  · intro port
    show (d.posted port ++ postsOn port _).map _ =
      d.receivedOn port ++ (d.underWay port ++ (postsOn port _).map id).map _
    rw [List.map_append, horder port, List.map_append, List.map_id, List.append_assoc]
  · intro port hport
    obtain ⟨hhands, hlistener, hnothing⟩ := hfresh port hport
    refine ⟨eq_none_of_imp (api.turn_holds _ _ port) hhands, hlistener, ?_⟩
    rw [List.eq_nil_iff_forall_not_mem]
    intro post hpost
    rcases mem hpost with hold | hnew
    · rw [hnothing] at hold
      cases hold
    · obtain ⟨due, hdue, -⟩ := api.turn_posts _ _ _ _ hnew
      rw [hhands] at hdue
      cases hdue

/-- Rust is given new ports, the first of which Dart listens to. -/
theorem Sound.invoke (h : d.Sound b action api) {listener : Listener} {n : Nat} (hn : 0 < n)
    {arrived : ApiCall String} {reply : Nat} {sink : Option Nat}
    (hposts : ((d.opens listener n).turn api direct (.invoke arrived reply sink)).Short b action)
    (hports : ∀ port, port = reply ∨ sink = some port → d.ports ≤ port ∧ port < d.ports + n)
    (hfits : ∀ due, (Input.invoke arrived reply sink).hands (api.holds d.rust) d.ports = some due →
      listener.Fits due) :
    ((d.opens listener n).turn api direct (.invoke arrived reply sink)).Sound b action api := by
  -- The other ports are as they were.
  have hands {port : Nat} (hport : port < d.ports ∨ d.ports + n ≤ port) :
      (Input.invoke arrived reply sink).hands (api.holds d.rust) port = api.holds d.rust port := by
    have hreply : port ≠ reply := fun heq => by
      obtain ⟨hge, hlt⟩ := hports port (Or.inl heq)
      omega
    have hsink : sink ≠ some port := fun heq => by
      obtain ⟨hge, hlt⟩ := hports port (Or.inr heq)
      omega
    rw [Input.hands, if_neg hreply, if_neg hsink]
  have listens {port : Nat} (hport : port ≠ d.ports) :
      (d.opens listener n).listeners port = d.listeners port := Function.update_of_ne hport _ _
  refine sound_turn hposts ?_ ?_ ?_ h.short h.order
  · intro port due l hdue hl
    by_cases hport : port = d.ports
    · rw [hport] at hdue hl
      have hopened : (d.opens listener n).listeners d.ports = some listener := Function.update_self ..
      obtain rfl : listener = l := Option.some.inj (hopened.symm.trans hl)
      exact hfits due hdue
    · rw [listens hport] at hl
      have hlt : port < d.ports := by
        by_contra hge
        rw [(h.fresh port (Nat.le_of_not_lt hge)).2.1] at hl
        cases hl
      exact h.fits port due l ((hands (Or.inl hlt)).symm.trans hdue) hl
  · intro port hport
    have hge : d.ports + n ≤ port := hport
    obtain ⟨hholds, hlistener, hnothing⟩ := h.fresh port (by omega)
    exact ⟨(hands (Or.inr hge)).trans hholds, (listens (by omega)).trans hlistener, hnothing⟩
  · intro port post l hpost hl
    have hport : port ≠ d.ports := by
      rintro rfl
      have hnothing : d.underWay d.ports = [] := (h.fresh d.ports (Nat.le_refl _)).2.2
      rw [show (d.opens listener n).underWay = d.underWay from rfl, hnothing] at hpost
      cases hpost
    rw [listens hport] at hl
    exact h.takes port post l hpost hl

/-- What is seen of a sync call is what its function came to. -/
theorem mirrored_callSync {call : ApiCall DartString} (hmode : modeOf b call = .sync) (n : Nat) :
    ∃ d', Mirrored b action sinks api n (.invoke call) d d' := by
  let outcome := api.sync d.rust (call.map DartString.toRust)
  let d₁ : Session State (Post String) :=
    { d with rust := outcome.1, answered := d.answered ++ [.reply outcome.2] }
  have hlast : Post.reply outcome.2 ∈ d₁.answered := List.mem_append_right _ List.mem_cons_self
  refine ⟨d₁.sees (.returned (.reply (outcomeMap DartString.ofRust outcome.2))), ?_, Nat.le_add_right _ _, ?_, ?_,
    ?_, ?_⟩
  · simp only [step, hmode]
    rfl
  · intro h
    exact ⟨h.1, fun post hpost => h.2 post (List.mem_append_left _ hpost)⟩
  · intro hapi h
    refine ⟨h.1, fun post hpost => ?_⟩
    rcases List.mem_append.mp hpost with hold | hnew
    · exact h.2 post hold
    · obtain rfl := List.mem_singleton.mp hnew
      exact hapi.sync _ _
  · intro _ hn hcall hshort
    have hlimit : (Dart.callFfi b call).bytes.length < messageLimit := by
      have hport := hcall d.ports hn
      rwa [ApiCall.withSink_of_sync b hmode] at hport
    have hcarry : (wire b action).carry call = some (call.map DartString.toRust) := dispatch_callFfi hlimit
    have htakes : (Listener.future call).Takes (.reply outcome.2) :=
      ⟨.reply (call.map DartString.toRust), rfl, api.sync_outcome _ _⟩
    have htake := take_put b action htakes (hshort.2 _ hlast)
    simp only [step, hmode, Session.callSync, hcarry]
    show ((wire b action).take _ ((wire b action).put (.reply outcome.2))).bind _ = _
    rw [htake]
    rfl
  · intro h _
    refine Sound.sees (d := d₁) ⟨?_, h.takes, h.short, h.order, ?_⟩ fun _ => rfl
    · intro port due listener hdue hlistener
      exact h.fits port due listener (api.sync_holds _ _ _ _ hdue) hlistener
    · intro port hport
      obtain ⟨hholds, hrest⟩ := h.fresh port hport
      exact ⟨eq_none_of_imp (api.sync_holds _ _ port) hholds, hrest⟩

/-- A future's port is given to Rust for the reply that Dart awaits there. -/
theorem mirrored_callFuture {call : ApiCall DartString} (hmode : modeOf b call = .normal)
    (hsink : call.sink = none) (n : Nat) : ∃ d', Mirrored b action sinks api n (.invoke call) d d' := by
  let input : Input := .invoke (call.map DartString.toRust) d.ports none
  refine ⟨((d.opens (.future call) 1).turn api direct input).sees (.future d.ports), ?_, Nat.le_succ _, ?_, ?_,
    ?_, ?_⟩
  · simp only [step, hmode, hsink]
    rfl
  · exact short_of_turn (d := d.opens (.future call) 1)
  · intro hapi h
    exact short_turn (d := d.opens (.future call) 1) h hapi input
  · intro _ hn hcall _
    have hlimit : (Dart.callFfi b call).bytes.length < messageLimit := by
      have hport := hcall d.ports hn
      rwa [ApiCall.withSink_of_none hsink] at hport
    have hcarry : (wire b action).carry call = some (call.map DartString.toRust) := dispatch_callFfi hlimit
    simp only [step, hmode, hsink, Session.callFuture, hcarry, onWire_sees, onWire_turn, onWire_opens]
    rfl
  · intro h hshort
    refine Sound.sees (Sound.invoke h Nat.one_pos hshort ?_ ?_) fun _ => rfl
    · rintro port (rfl | hport)
      · exact ⟨Nat.le_refl _, Nat.lt_succ_self _⟩
      · cases hport
    · intro due hdue
      rw [Input.hands, if_pos rfl] at hdue
      obtain rfl := Option.some.inj hdue
      rfl

theorem callStream_eq {Msg : Type} {carrier : Transport Msg} {w : Session State Msg} {call : ApiCall DartString}
    {arrived : ApiCall String} {what : Listener × Due}
    (hcarry : carrier.carry (call.withSink (sinks.setupAndSerialize w.ports)) = some arrived)
    (hsink : arrived.sink = some ((sinks.setupAndSerialize w.ports).toRust, what)) (listener : Listener) :
    w.callStream sinks api carrier call listener =
      some (((w.opens listener 2).turn api carrier (.invoke arrived (w.ports + 1) (some w.ports))).sees
        (.stream w.ports)) := by
  simp only [Session.callStream, hcarry, hsink, sinks.deserialize_setupAndSerialize, Option.bind_eq_bind,
    Option.bind_some]

/-- A stream's port is given to Rust for the sink it belongs to. -/
theorem mirrored_callStream {call : ApiCall DartString} {text : DartString} {listener : Listener} {due : Due}
    (hmode : modeOf b call = .normal) (hsink : call.sink = some (text, listener, due)) (n : Nat) :
    ∃ d', Mirrored b action sinks api n (.invoke call) d d' := by
  let named := call.withSink (sinks.setupAndSerialize d.ports)
  have hnamed : (named.map DartString.toRust).sink =
      some ((sinks.setupAndSerialize d.ports).toRust, listener, due) := by
    rw [ApiCall.sink_map, ApiCall.sink_withSink, hsink]
    rfl
  let input : Input := .invoke (named.map DartString.toRust) (d.ports + 1) (some d.ports)
  refine ⟨((d.opens listener 2).turn api direct input).sees (.stream d.ports), ?_, Nat.le_refl _, ?_, ?_, ?_, ?_⟩
  · simp only [step, hmode, hsink]
    exact callStream_eq rfl hnamed listener
  · exact short_of_turn (d := d.opens listener 2)
  · intro hapi h
    exact short_turn (d := d.opens listener 2) h hapi input
  · intro _ hn hcall _
    have hcarry : (wire b action).carry named = some (named.map DartString.toRust) :=
      dispatch_callFfi (hcall d.ports hn)
    simp only [step, hmode, hsink, onWire_sees, onWire_turn, onWire_opens]
    exact callStream_eq (w := d.onWire b action) hcarry hnamed listener
  · intro h hshort
    refine Sound.sees (Sound.invoke h Nat.two_pos hshort ?_ ?_) fun _ => rfl
    · rintro port (rfl | hport)
      · exact ⟨Nat.le_succ _, Nat.lt_succ_self _⟩
      · obtain rfl := Option.some.inj hport
        exact ⟨Nat.le_refl _, Nat.lt_add_of_pos_right Nat.two_pos⟩
    · intro given hgiven
      rw [Input.hands, if_neg (Nat.ne_of_lt (Nat.lt_succ_self _)), if_pos rfl, hnamed] at hgiven
      obtain rfl := Option.some.inj hgiven
      exact ApiCall.fits_of_sink hsink

theorem receive_eq {Msg : Type} {carrier : Transport Msg} {w : Session State Msg} {port : Nat}
    {listener : Listener} {msg : Msg} {rest : List Msg} {post : Post DartString}
    (hlistener : w.listeners port = some listener) (hwaiting : w.underWay port = msg :: rest)
    (htake : carrier.take listener msg = some post) :
    w.receive carrier port =
      some ({ w with underWay := Function.update w.underWay port rest }.sees (.received port post)) := by
  simp only [Session.receive, hlistener, hwaiting, htake, Option.bind_eq_bind, Option.bind_some]

theorem receive_nothing {Msg : Type} {carrier : Transport Msg} {w : Session State Msg} {port : Nat}
    (h : w.listeners port = none ∨ w.underWay port = []) :
    w.receive carrier port = some (w.sees .nothing) := by
  rcases h with h | h
  · simp only [Session.receive, h]
  · cases hlistener : w.listeners port <;> simp only [Session.receive, hlistener, h]

theorem onWire_underWay (port : Nat) :
    (d.onWire b action).underWay port = (d.underWay port).map (Rust.encodePost b action) := rfl

theorem onWire_listeners : (d.onWire b action).listeners = d.listeners := rfl

/-- What comes off a port is what was put on it. -/
theorem mirrored_receive (port n : Nat) : ∃ d', Mirrored b action sinks api n (.receive port) d d' := by
  by_cases hnone : d.listeners port = none ∨ d.underWay port = []
  · refine ⟨d.sees .nothing, receive_nothing hnone, Nat.le_add_right _ _, id, fun _ h => h, ?_,
      fun h _ => h.sees fun _ => rfl⟩
    intro _ _ _ _
    apply receive_nothing
    rwa [onWire_listeners, onWire_underWay, List.map_eq_nil_iff]
  · obtain ⟨listener, hlistener⟩ := Option.ne_none_iff_exists'.mp fun hno => hnone (Or.inl hno)
    obtain ⟨post, rest, hwaiting⟩ := List.exists_cons_of_ne_nil fun hno => hnone (Or.inr hno)
    have hpost : post ∈ d.underWay port := hwaiting ▸ List.mem_cons_self
    have hrest {p : Nat} {x : Post String} (hx : x ∈ Function.update d.underWay port rest p) :
        x ∈ d.underWay p := by
      by_cases hp : p = port
      · subst hp
        rw [Function.update_self] at hx
        rw [hwaiting]
        exact List.mem_cons_of_mem _ hx
      · rwa [Function.update_of_ne hp] at hx
    refine ⟨_, receive_eq hlistener hwaiting rfl, Nat.le_add_right _ _, id, fun _ h => h, ?_, ?_⟩
    · intro h _ _ _
      have hwire : (d.onWire b action).underWay port =
          Rust.encodePost b action post :: rest.map (Rust.encodePost b action) := by
        rw [onWire_underWay, hwaiting, List.map_cons]
      have htake := take_put b action (h.takes port post listener hpost hlistener) (h.short port post hpost)
      refine (receive_eq (w := d.onWire b action) hlistener hwire htake).trans ?_
      rw [onWire_sees]
      congr 2
      simp only [onWire]
      congr 1
      funext p
      exact (Function.apply_update (fun _ => List.map (Rust.encodePost b action)) d.underWay port rest p).symm
    · intro h _
      refine ⟨h.fits, ?_, ?_, ?_, ?_⟩
      · intro p x l hx hl
        exact h.takes p x l (hrest hx) hl
      · intro p x hx
        exact h.short p x (hrest hx)
      · intro p
        refine (h.order p).trans ?_
        rw [receivedOn_sees]
        show d.receivedOn p ++ _ = d.receivedOn p ++ _ ++ (Function.update d.underWay port rest p).map _
        by_cases hp : p = port
        · subst hp
          rw [Function.update_self, hwaiting, List.map_cons]
          simp [Seen.cameOn]
        · rw [Function.update_of_ne hp]
          simp [Seen.cameOn, Ne.symm hp]
      · intro p hp
        obtain ⟨hholds, hlistens, hempty⟩ := h.fresh p hp
        refine ⟨hholds, hlistens, ?_⟩
        rw [List.eq_nil_iff_forall_not_mem]
        intro x hx
        have hold := hrest hx
        rw [hempty] at hold
        cases hold

/-- Rust is told of a port that was closed. -/
theorem mirrored_cancel (port n : Nat) : ∃ d', Mirrored b action sinks api n (.cancel port) d d' := by
  have still {p : Nat} {l : Listener} (hl : (d.closes port).listeners p = some l) : d.listeners p = some l := by
    by_cases hp : p = port
    · rw [hp, show (d.closes port).listeners port = none from Function.update_self ..] at hl
      cases hl
    · rwa [show (d.closes port).listeners p = d.listeners p from Function.update_of_ne hp ..] at hl
  refine ⟨(d.closes port).turn api direct (.closed port), rfl, Nat.le_add_right _ _,
    short_of_turn (d := d.closes port), ?_, ?_, ?_⟩
  · intro hapi h
    exact short_turn (d := d.closes port) h hapi _
  · intro _ _ _ _
    rw [onWire_turn, onWire_closes]
    rfl
  · intro h hshort
    refine sound_turn hshort ?_ ?_ ?_ h.short h.order
    · intro p due l hdue hl
      exact h.fits p due l hdue (still hl)
    · intro p hp
      obtain ⟨hholds, hlistens, hempty⟩ := h.fresh p hp
      exact ⟨hholds, eq_none_of_imp (fun _ => still) hlistens, hempty⟩
    · intro p post l hpost hl
      exact h.takes p post l hpost (still hl)

variable (b action sinks api d)

/-- Every act of the caller comes to the same on both. -/
theorem mirrored_step (act : Act) (n : Nat) : ∃ d', Mirrored b action sinks api n act d d' := by
  cases act with
  | invoke call =>
    cases hmode : modeOf b call with
    | sync => exact mirrored_callSync hmode n
    | normal =>
      cases hsink : call.sink with
      | none => exact mirrored_callFuture hmode hsink n
      | some of => exact mirrored_callStream hmode hsink n
  | time =>
    refine ⟨d.turn api direct .time, rfl, Nat.le_add_right _ _, short_of_turn,
      fun hapi h => short_turn h hapi _, ?_, ?_⟩
    · intro _ _ _ _
      rw [onWire_turn]
      rfl
    · intro h hshort
      exact sound_turn hshort h.fits h.fresh h.takes h.short h.order
  | cancel port => exact mirrored_cancel port n
  | receive port => exact mirrored_receive port n

/-- And so does a run. -/
theorem mirrored_run (acts : List Act) (n : Nat) :
    ∃ d', d.run sinks api direct (modeOf b) acts = some d' ∧ (d'.Short b action → d.Short b action) ∧
      (api.Short b action → d.Short b action → d'.Short b action) ∧
      (d.Sound b action api → d.ports + 2 * acts.length ≤ n → (∀ act ∈ acts, act.Short b sinks n) →
        d'.Short b action →
        (d.onWire b action).run sinks api (wire b action) (modeOf b) acts = some (d'.onWire b action) ∧
          d'.Sound b action api) := by
  induction acts generalizing d with
  | nil => exact ⟨d, rfl, id, fun _ h => h, fun h _ _ _ => ⟨rfl, h⟩⟩
  | cons act acts ih =>
    obtain ⟨d₁, hstep⟩ := mirrored_step b action sinks api d act n
    obtain ⟨d', hdirect, hshort, hstays, hwire⟩ := ih d₁
    refine ⟨d', ?_, fun h => hstep.short (hshort h), fun hapi h => hstays hapi (hstep.stays hapi h), ?_⟩
    · rw [Session.run, hstep.direct]
      exact hdirect
    · intro h hn hacts h'
      rw [List.length_cons] at hn
      have hports := hstep.ports
      have hact := hstep.wire h (by omega) (hacts act List.mem_cons_self) (hshort h')
      obtain ⟨hrun, hsound⟩ := hwire (hstep.sound h (hshort h')) (by omega)
        (fun a ha => hacts a (List.mem_cons_of_mem _ ha)) h'
      refine ⟨?_, hsound⟩
      rw [Session.run, hact]
      exact hrun

variable {b action sinks api d}

theorem sound_start {s : State} (hs : ∀ port, api.holds s port = none) :
    (start s : Session State (Post String)).Sound b action api := by
  constructor
  · intro port due listener hdue
    rw [start, hs port] at hdue
    cases hdue
  · intro port post listener hpost
    cases hpost
  · intro port post hpost
    cases hpost
  · intro port
    rfl
  · intro port hport
    exact ⟨hs port, rfl, rfl⟩

variable (b sinks api) in
/-- Whatever has come on a listened port can be taken off it. -/
theorem receive_all {port : Nat} {listener : Listener} (hlistener : d.listeners port = some listener) :
    ∃ d', d.run sinks api direct (modeOf b) (List.replicate (d.underWay port).length (.receive port)) =
        some d' ∧ d'.underWay port = [] ∧ d'.posted = d.posted ∧ d'.answered = d.answered := by
  induction hwaiting : d.underWay port generalizing d with
  | nil => exact ⟨d, rfl, hwaiting, rfl, rfl⟩
  | cons post rest ih =>
    have hreceive : d.receive direct port = _ := receive_eq hlistener hwaiting rfl
    obtain ⟨d', hrun, hdone, hhistory⟩ := ih (d := { d with
      underWay := Function.update d.underWay port rest }.sees (.received port (post.map DartString.ofRust)))
      hlistener (Function.update_self ..)
    refine ⟨d', ?_, hdone, hhistory⟩
    rw [List.length_cons, List.replicate_succ, Session.run, Session.step, hreceive]
    exact hrun

end Session

/-! ## The bridge as it is seen from Dart -/

variable (b action sinks api)

/-- A caller sees of the bridge what it would see of the API: whatever the functions and their threads do, each
call has what it was called with and comes to what its function came to, and each stream has its own events. -/
theorem wire_eq_direct {s : State} (hs : ∀ port, api.holds s port = none) {acts : List Act}
    (hacts : ∀ act ∈ acts, act.Short b sinks (2 * acts.length)) :
    ∃ d, (Session.start s).run sinks api direct (modeOf b) acts = some d ∧ (d.Short b action →
      ∃ w, (Session.start s).run sinks api (wire b action) (modeOf b) acts = some w ∧
        w.rust = d.rust ∧ w.seen = d.seen) := by
  obtain ⟨d, hdirect, -, -, hmirrored⟩ :=
    Session.mirrored_run b action sinks api (Session.start s) acts (2 * acts.length)
  refine ⟨d, hdirect, fun hshort => ?_⟩
  obtain ⟨hwire, -⟩ := hmirrored (Session.sound_start hs) (by rw [Session.start, Nat.zero_add]) hacts hshort
  exact ⟨d.onWire b action, hwire, rfl, rfl⟩

/-- What has come off a port is the first of what was put on it, in that order, and the rest is still to come;
each post is as it was put there unless a text in it starts with a byte-order mark. -/
theorem posted_arrives {s : State} (hs : ∀ port, api.holds s port = none) {acts : List Act}
    (hacts : ∀ act ∈ acts, act.Short b sinks (2 * acts.length))
    (hdirect : (Session.start s).run sinks api direct (modeOf b) acts = some d) (hshort : d.Short b action)
    {w : Session State Bytes}
    (hrun : (Session.start s).run sinks api (wire b action) (modeOf b) acts = some w) (port : Nat) :
    w.posted port = d.posted port ∧
      w.receivedOn port <+: (w.posted port).map (Post.map DartString.ofRust) ∧
      (w.listeners port ≠ none → ∃ w',
        w.run sinks api (wire b action) (modeOf b)
          (List.replicate (w.underWay port).length (.receive port)) = some w' ∧
        w'.receivedOn port = (w.posted port).map (Post.map DartString.ofRust)) ∧
      ∀ post ∈ w.posted port, (post.map DartString.ofRust).map DartString.toRust = post ↔
        ∀ text ∈ post.texts, text.toList.head? ≠ some byteOrderMark := by
  obtain ⟨d₁, hdirect₁, -, -, hmirrored⟩ :=
    Session.mirrored_run b action sinks api (Session.start s) acts (2 * acts.length)
  obtain rfl : d = d₁ := Option.some.inj (hdirect.symm.trans hdirect₁)
  obtain ⟨hwire, hsound⟩ := hmirrored (Session.sound_start hs) (by rw [Session.start, Nat.zero_add]) hacts hshort
  obtain rfl : w = d.onWire b action := Option.some.inj (hrun.symm.trans hwire)
  refine ⟨rfl, ⟨_, (hsound.order port).symm⟩, fun hlistener => ?_, fun post _ => ?_⟩
  · obtain ⟨listener, hlistener⟩ := Option.ne_none_iff_exists'.mp hlistener
    obtain ⟨d', hrest, hdone, hposted, hanswered⟩ := Session.receive_all b sinks api hlistener
    have hshort' : d'.Short b action := by
      rw [Session.Short, hposted, hanswered]
      exact hshort
    let receives := List.replicate (d.underWay port).length (Act.receive port)
    obtain ⟨d'', hrest', -, -, hmirrored'⟩ :=
      Session.mirrored_run b action sinks api d receives (d.ports + 2 * receives.length)
    obtain rfl : d' = d'' := Option.some.inj (hrest.symm.trans hrest')
    have hreceives : ∀ act ∈ receives, act.Short b sinks (d.ports + 2 * receives.length) := fun act hact => by
      rw [List.eq_of_mem_replicate hact]
      trivial
    obtain ⟨hwire', hsound'⟩ := hmirrored' hsound (Nat.le_refl _) hreceives hshort'
    refine ⟨d'.onWire b action, ?_, ?_⟩
    · rw [Session.onWire_underWay, List.length_map]
      exact hwire'
    · have horder := hsound'.order port
      rw [hdone, hposted, List.map_nil, List.append_nil] at horder
      exact horder.symm
  · rw [Post.map_map_eq_iff]
    constructor
    · intro h text htext
      exact (DartString.toRust_ofRust_iff text).mp (h text htext)
    · intro h text htext
      exact (DartString.toRust_ofRust_iff text).mpr (h text htext)

end

/-! ### A scan beside a send -/

/-- Rust with the ports it has, all of them below `ports`. -/
structure Script where
  held : Nat → Option Due
  ports : Nat

namespace Script

/-- Before the first call. -/
def idle : Script := ⟨fun _ => none, 0⟩

def main : String := String.ofList ['m', 'a', 'i', 'n']

def noNode : String := String.ofList ['n', 'o', ' ', 'n', 'o', 'd', 'e']

/-- A payer's memo that starts with a byte-order mark. -/
def memo : String := String.ofList [byteOrderMark, '7']

/-- The event of a transaction with that memo. -/
def paid : Post String :=
  .scanEvent (.transactionsReady ⟨1, [⟨main, .incoming, .transfer, .confirmed, 5, main, some memo, none,
    ⟨101, main, 3⟩, none, [main]⟩], some 101, true⟩)

/-- What each call comes to. -/
def outcome : ApiCall String → Except String (Reply String)
  | .sensitiveSeedsAutoAccessorGetWords .. | .listWords | .revealSeedWords .. => .ok (.strings [main])
  | .sensitiveSeedsAutoAccessorSetWords .. => .ok .unit
  | .birthdayFromDate .. | .birthdayFromHeight .. => .ok (.u16 7)
  | .createScanHandle .. => .ok (.scanHandle ⟨main, 1⟩)
  | .currentNetwork => .ok (.optTariNetwork none)
  | .estimateHeightAtTime .. => .ok (.u64 7)
  | .formatMicroTari .. => .ok (.string main)
  | .loggerConfigDefault => .ok (.loggerConfig ⟨.warn, [], 10, 5⟩)
  | _ => .error noNode

/-- What goes on each port. -/
def posts : Due → List (Post String)
  | .reply call => [.reply (outcome call)]
  | .scanEvents => [.scanEvent (.started 1 100), paid, .scanEvent (.error noNode)]
  | .sendEvents =>
    [.sendEvent ⟨.validatingInput, main⟩, .sendEvent ⟨.broadcasting, main⟩, .sendEvent ⟨.broadcasted, noNode⟩]

theorem outcome_admitted (call : ApiCall String) : Rust.Outcome call (outcome call) := by
  constructor
  · rintro reply h
    cases call <;> cases h <;> rfl
  · rintro debug h
    cases call <;> cases h <;> rfl

theorem posts_admitted {due : Due} {post : Post String} (h : post ∈ posts due) : due.Admits post := by
  cases due with
  | reply call =>
    obtain rfl := List.mem_singleton.mp h
    exact outcome_admitted call
  | scanEvents =>
    simp only [posts, List.mem_cons, List.not_mem_nil, or_false] at h
    rcases h with rfl | rfl | rfl <;> trivial
  | sendEvents =>
    simp only [posts, List.mem_cons, List.not_mem_nil, or_false] at h
    rcases h with rfl | rfl | rfl <;> trivial

/-- All that goes on the ports is put there as soon as time passes. -/
def turn (s : Script) (input : Input) : Script × List (Nat × Post String) :=
  match input with
  | .invoke _ reply _ => (⟨input.hands s.held, reply + 1⟩, [])
  | .closed _ => (s, [])
  | .time =>
    (⟨fun _ => none, s.ports⟩, (List.range s.ports).flatMap fun port =>
      ((s.held port).toList.flatMap posts).map fun post => (port, post))

theorem mem_turn {s : Script} {input : Input} {port : Nat} {post : Post String}
    (h : (port, post) ∈ (s.turn input).2) :
    ∃ due, input.hands s.held port = some due ∧ post ∈ posts due := by
  cases input with
  | invoke call reply sink => cases h
  | closed closed => cases h
  | time =>
    obtain ⟨p, -, hmem⟩ := List.mem_flatMap.mp h
    obtain ⟨q, hq, heq⟩ := List.mem_map.mp hmem
    obtain ⟨due, hdue, hput⟩ := List.mem_flatMap.mp hq
    obtain ⟨rfl, rfl⟩ := Prod.mk.inj heq
    exact ⟨due, Option.mem_toList.mp hdue, hput⟩

def api : Api Script where
  holds := held
  sync s call := (s, outcome call)
  turn := turn
  sync_outcome _ call := outcome_admitted call
  sync_holds _ _ _ _ h := h
  turn_posts s input port post h := by
    obtain ⟨due, hdue, hput⟩ := mem_turn h
    exact ⟨due, hdue, posts_admitted hput⟩
  turn_holds s input port due h := by
    cases input with
    | invoke call reply sink => exact h
    | closed closed => exact h
    | time => cases h

/-- A sink's text has a letter for each port before its own. -/
def sinks : StreamSinks where
  setupAndSerialize port := Utf16.encode (List.replicate port 'p')
  deserialize text := some text.toList.length
  deserialize_setupAndSerialize port := by
    rw [DartString.toRust, String.toList_ofList, Utf16.decode_encode, List.length_replicate]

theorem outcome_short (call : ApiCall String) :
    (Rust.encodePost (Buffer.native .little) Rust2DartAction.byte (.reply (outcome call))).length <
      messageLimit := by
  cases call <;>
    dsimp only [outcome] <;>
    decide

theorem posts_short {due : Due} {post : Post String} (h : post ∈ posts due) :
    (Rust.encodePost (Buffer.native .little) Rust2DartAction.byte post).length < messageLimit := by
  cases due with
  | reply call =>
    obtain rfl := List.mem_singleton.mp h
    exact outcome_short call
  | scanEvents =>
    simp only [posts, List.mem_cons, List.not_mem_nil, or_false] at h
    rcases h with rfl | rfl | rfl <;> decide
  | sendEvents =>
    simp only [posts, List.mem_cons, List.not_mem_nil, or_false] at h
    rcases h with rfl | rfl | rfl <;> decide

theorem api_short : api.Short (Buffer.native .little) Rust2DartAction.byte where
  sync _ call := outcome_short call
  turn _ _ _ _ h := by
    obtain ⟨due, -, hput⟩ := mem_turn h
    exact posts_short hput

/-- A handle, the scan it is for, a balance and a send beside the scan. -/
def acts : List Act :=
  [.invoke (.createScanHandle [0x77]),
    .invoke (.startScan [] ⟨[0x77], 1⟩ ⟨[0x77], [0x75], 100, true, 5, 3, .foreground, none, none, none, none⟩),
    .invoke (.getBalance [0x77]),
    .invoke (.sendTransaction [] ⟨none, none, [0x77], [⟨[0x61], 5, some [0x37]⟩], false, none⟩),
    .time, .receive 0, .receive 2, .receive 3, .receive 0, .cancel 3, .receive 3]

theorem acts_short : ∀ act ∈ acts, act.Short (Buffer.native .little) sinks (2 * acts.length) := by
  decide

/-- What it comes to without messages. -/
theorem run_acts : ((Session.start idle).run sinks api direct (modeOf (Buffer.native .little)) acts).map
    (fun d => (d.listeners 0, d.posted 0)) = some (some .scanEvents, posts .scanEvents) := rfl

theorem start_short : (Session.start idle : Session Script (Post String)).Short (Buffer.native .little)
    Rust2DartAction.byte :=
  ⟨fun _ _ hpost => (nomatch hpost), fun _ hpost => (nomatch hpost)⟩

/-- No message of it is long. -/
theorem run_short {d : Session Script (Post String)}
    (h : (Session.start idle).run sinks api direct (modeOf (Buffer.native .little)) acts = some d) :
    d.Short (Buffer.native .little) Rust2DartAction.byte := by
  obtain ⟨d', hrun, -, hstays, -⟩ := Session.mirrored_run (Buffer.native .little) Rust2DartAction.byte sinks api
    (Session.start idle) acts 0
  obtain rfl : d = d' := Option.some.inj (h.symm.trans hrun)
  exact hstays api_short start_short

end Script

/-- The caller sees two streams, an error and a handle. -/
theorem wire_eq_direct_scanBesideSend :
    ∃ d w, (Session.start Script.idle).run Script.sinks Script.api direct (modeOf (Buffer.native .little))
        Script.acts = some d ∧
      (Session.start Script.idle).run Script.sinks Script.api (wire (Buffer.native .little) Rust2DartAction.byte)
        (modeOf (Buffer.native .little)) Script.acts = some w ∧
      w.rust = d.rust ∧ w.seen = d.seen := by
  obtain ⟨d, hdirect, hwire⟩ := wire_eq_direct (Buffer.native .little) Rust2DartAction.byte Script.sinks Script.api
    (s := Script.idle) (fun _ => rfl) Script.acts_short
  obtain ⟨w, hrun, hsame⟩ := hwire (Script.run_short hdirect)
  exact ⟨d, w, hdirect, hrun, hsame⟩

/-- All events of the scan arrive, one of them without the mark its memo starts with. -/
theorem posted_arrives_scanBesideSend :
    ∃ w w' : Session Script Bytes,
      (Session.start Script.idle).run Script.sinks Script.api (wire (Buffer.native .little) Rust2DartAction.byte)
        (modeOf (Buffer.native .little)) Script.acts = some w ∧
      w.run Script.sinks Script.api (wire (Buffer.native .little) Rust2DartAction.byte)
        (modeOf (Buffer.native .little)) (List.replicate (w.underWay 0).length (.receive 0)) = some w' ∧
      w'.receivedOn 0 = (Script.posts .scanEvents).map (Post.map DartString.ofRust) ∧
      ∃ post ∈ Script.posts .scanEvents, (post.map DartString.ofRust).map DartString.toRust ≠ post := by
  obtain ⟨d, hdirect, -, -, hmirrored⟩ := Session.mirrored_run (Buffer.native .little) Rust2DartAction.byte
    Script.sinks Script.api (Session.start Script.idle) Script.acts (2 * Script.acts.length)
  have hshort := Script.run_short hdirect
  obtain ⟨hrun, -⟩ := hmirrored (Session.sound_start fun _ => rfl) (Nat.le_of_eq (Nat.zero_add _))
    Script.acts_short hshort
  obtain ⟨-, -, harrives, hmarked⟩ :=
    posted_arrives (Buffer.native .little) Rust2DartAction.byte Script.sinks Script.api (s := Script.idle) (fun _ => rfl) Script.acts_short hdirect hshort hrun 0
  have hdone := Script.run_acts
  rw [hdirect, Option.map_some, Option.some_inj, Prod.mk.injEq] at hdone
  obtain ⟨hlistener, hposted⟩ := hdone
  have hlistens : (d.onWire (Buffer.native .little) Rust2DartAction.byte).listeners 0 ≠ none := by
    rw [Session.onWire_listeners, hlistener]
    exact Option.some_ne_none _
  obtain ⟨w', hrest, hreceived⟩ := harrives hlistens
  have hpaid : Script.paid ∈ Script.posts .scanEvents := List.mem_cons_of_mem _ List.mem_cons_self
  have hmemo : Script.memo ∈ Script.paid.texts :=
    List.mem_cons_of_mem _ (List.mem_cons_of_mem _ List.mem_cons_self)
  refine ⟨_, w', hrun, hrest, hreceived.trans (congrArg _ hposted), Script.paid, hpaid, ?_⟩
  intro hsame
  apply (hmarked Script.paid (hposted.symm ▸ hpaid)).mp hsame Script.memo hmemo
  rw [Script.memo, String.toList_ofList]
  rfl

end CwTariWallet.FrbGenerated
