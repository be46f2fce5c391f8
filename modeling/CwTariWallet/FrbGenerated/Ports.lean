/-
# CwTariWallet.FrbGenerated.Ports -- what a Dart caller sees of the API

A sync call returns what its function came to.  Any other call returns at once: most return a future, which
completes with the reply that comes on the call's port; `rescan`, `start_scan` and `send_transaction` return the
stream of a sink, whose port the message names, and nobody waits for their reply.  Rust goes on meanwhile, and
puts replies and events on the ports it was given.  Between the two sides everything is bytes, in order on each
port.

A caller sees through the bridge what it would see of the API itself (`wire_eq_direct`): nothing is decoded as
something else, and no port gets what belongs on another.  What was put on a port comes off it in that order,
none lost and none twice, each as it was put there unless a text in it starts with a byte-order mark
(`posted_arrives`).
-/
import CwTariWallet.FrbGenerated.Rpc
import CwTariWallet.FrbGenerated.Texts

namespace CwTariWallet.FrbGenerated

open Codec (Bytes Format)

/-! ## What is put on a port -/

/-- What Rust puts on a port: the outcome of a call, or an event of a stream. -/
inductive Post (τ : Type) where
  | reply (outcome : Except τ (Reply τ))
  | scanEvent (event : ScanEventDto τ)
  | sendEvent (event : SendTransactionEvent τ)

def Post.map {τ σ : Type} (f : τ → σ) : Post τ → Post σ
  | .reply outcome => .reply (outcomeMap f outcome)
  | .scanEvent event => .scanEvent (event.map f)
  | .sendEvent event => .sendEvent (event.map f)

def Post.texts {τ : Type} : Post τ → List τ
  | .reply (.ok value) => value.texts
  | .reply (.error debug) => [debug]
  | .scanEvent event => event.texts
  | .sendEvent event => event.texts

theorem Post.map_map_eq_iff {τ σ : Type} {f : τ → σ} {h : σ → τ} (post : Post τ) :
    (post.map f).map h = post ↔ ∀ t ∈ post.texts, h (f t) = t := by
  rcases post with (debug | reply) | event | event
  · simp [map, texts, outcomeMap]
  · simp [map, texts, outcomeMap, Reply.map_map_eq_iff]
  · simp [map, texts, ScanEventDto.map_map_eq_iff]
  · simp [map, texts, SendTransactionEvent.map_map_eq_iff]

/-- What a port was given to Rust for. -/
inductive Due where
  | reply (call : ApiCall String)
  | scanEvents
  | sendEvents

/-- What Rust's types allow on a port. -/
def Due.Admits : Due → Post String → Prop
  | .reply call, .reply outcome => Rust.Outcome call outcome
  | .scanEvents, .scanEvent _ => True
  | .sendEvents, .sendEvent _ => True
  | _, _ => False

/-- What Dart takes off a port: the reply of a call it awaits, or the events of a stream it listens to. -/
inductive Listener where
  | future (call : ApiCall DartString)
  | scanEvents
  | sendEvents

/-- The port is there for the same on both sides. -/
def Listener.Fits : Listener → Due → Prop
  | .future call, .reply arrived => arrived = call.map DartString.toRust
  | .scanEvents, .scanEvents => True
  | .sendEvents, .sendEvents => True
  | _, _ => False

/-- Something that can come on the port. -/
def Listener.Takes (listener : Listener) (post : Post String) : Prop :=
  ∃ due, listener.Fits due ∧ due.Admits post

namespace ApiCall

variable {τ σ : Type}

/-- The sink's text, and what its stream is of. -/
def sink : ApiCall τ → Option (τ × Listener × Due)
  | .rescan sink .. | .startScan sink .. => some (sink, .scanEvents, .scanEvents)
  | .sendTransaction sink .. => some (sink, .sendEvents, .sendEvents)
  | _ => none

/-- The call with another sink, if it has one. -/
def withSink (text : τ) : ApiCall τ → ApiCall τ
  | .rescan _ handle fromHeight config => .rescan text handle fromHeight config
  | .sendTransaction _ details => .sendTransaction text details
  | .startScan _ handle config => .startScan text handle config
  | call => call

theorem sink_withSink (text : τ) (call : ApiCall τ) :
    (call.withSink text).sink = call.sink.map fun s => (text, s.2) := by
  cases call <;> rfl

theorem sink_map (f : τ → σ) (call : ApiCall τ) :
    (call.map f).sink = call.sink.map fun s => (f s.1, s.2) := by
  cases call <;> rfl

theorem fits_of_sink {call : ApiCall τ} {text : τ} {listener : Listener} {due : Due}
    (h : call.sink = some (text, listener, due)) : listener.Fits due := by
  cases call <;> cases h <;> trivial

end ApiCall

/-- `RustStreamSink.setupAndSerialize`, and `StreamSink::deserialize` of what it makes: the sink puts its events
on the port the stream listens to. -/
structure StreamSinks where
  setupAndSerialize : Nat → DartString
  deserialize : String → Option Nat
  deserialize_setupAndSerialize : ∀ port, deserialize (setupAndSerialize port).toRust = some port

/-! ## The API -/

/-- What sets Rust going: a call, with the ports of its reply and of its sink, a port that was closed, or nothing
but time. -/
inductive Input where
  | invoke (call : ApiCall String) (reply : Nat) (sink : Option Nat)
  | closed (port : Nat)
  | time

/-- The ports Rust has while it runs on this input, besides those it `held`. -/
def Input.hands (held : Nat → Option Due) : Input → Nat → Option Due
  | .time, port | .closed _, port => held port
  | .invoke call reply sink, port =>
    if port = reply then some (.reply call)
    else if sink = some port then call.sink.map fun s => s.2.2
    else held port

/-- The functions behind the calls, and what goes on between them.  `holds` are the ports Rust has kept; the laws
are Rust's types. -/
structure Api (State : Type) where
  holds : State → Nat → Option Due
  /-- A sync function runs to its end. -/
  sync : State → ApiCall String → State × Except String (Reply String)
  /-- Any other is started, and goes on in its own time. -/
  turn : State → Input → State × List (Nat × Post String)
  sync_outcome : ∀ s call, Rust.Outcome call (sync s call).2
  sync_holds : ∀ s call port due, holds (sync s call).1 port = some due → holds s port = some due
  turn_posts : ∀ s input port post, (port, post) ∈ (turn s input).2 →
    ∃ due, input.hands (holds s) port = some due ∧ due.Admits post
  turn_holds : ∀ s input port due, holds (turn s input).1 port = some due →
    input.hands (holds s) port = some due

/-! ## A caller in Dart -/

/-- How calls and posts get to the other side; `none` where they cannot be made out. -/
structure Transport (Msg : Type) where
  carry : ApiCall DartString → Option (ApiCall String)
  put : Post String → Msg
  take : Listener → Msg → Option (Post DartString)

/-- What a caller does: call a function, wait a while, stop listening to a port, or see what has come on one. -/
inductive Act where
  | invoke (call : ApiCall DartString)
  | time
  | cancel (port : Nat)
  | receive (port : Nat)

/-- What it gets to see. -/
inductive Seen where
  | returned (post : Post DartString)
  | future (port : Nat)
  | stream (port : Nat)
  | received (port : Nat) (post : Post DartString)
  | nothing

/-- What of it came off a port. -/
def Seen.cameOn (port : Nat) : Seen → Option (Post DartString)
  | .received p post => if p = port then some post else none
  | _ => none

/-- Both sides, and what is under way from Rust to Dart.  `posted` and `answered` are history: all that was put
on a port, and all that sync calls came to. -/
structure Session (State Msg : Type) where
  rust : State
  ports : Nat
  listeners : Nat → Option Listener
  underWay : Nat → List Msg
  seen : List Seen
  posted : Nat → List (Post String)
  answered : List (Post String)

/-- Those for one port. -/
def postsOn (port : Nat) (posts : List (Nat × Post String)) : List (Post String) :=
  posts.filterMap fun x => if x.1 = port then some x.2 else none

namespace Session

variable {State Msg : Type}

/-- Before the first call. -/
def start (s : State) : Session State Msg := ⟨s, 0, fun _ => none, fun _ => [], [], fun _ => [], []⟩

def sees (w : Session State Msg) (x : Seen) : Session State Msg := { w with seen := w.seen ++ [x] }

/-- `n` new ports, with a listener on the first. -/
def opens (w : Session State Msg) (listener : Listener) (n : Nat) : Session State Msg :=
  { w with ports := w.ports + n, listeners := Function.update w.listeners w.ports (some listener) }

/-- Nobody listens to a port any more. -/
def closes (w : Session State Msg) (port : Nat) : Session State Msg :=
  { w with listeners := Function.update w.listeners port none }

/-- What came off a port. -/
def receivedOn (w : Session State Msg) (port : Nat) : List (Post DartString) :=
  w.seen.filterMap (Seen.cameOn port)

theorem receivedOn_sees (w : Session State Msg) (x : Seen) (port : Nat) :
    (w.sees x).receivedOn port = w.receivedOn port ++ (x.cameOn port).toList := by
  rw [receivedOn, sees, List.filterMap_append, receivedOn]
  cases hx : x.cameOn port <;> simp [hx]

section

variable (sinks : StreamSinks) (api : Api State) (carrier : Transport Msg)

/-- Rust goes on, and puts what it has on the ports. -/
def turn (w : Session State Msg) (input : Input) : Session State Msg :=
  let (rust, posts) := api.turn w.rust input
  { w with
    rust := rust
    underWay := fun port => w.underWay port ++ (postsOn port posts).map carrier.put
    posted := fun port => w.posted port ++ postsOn port posts }

/-- A sync call: it returns with what its function came to. -/
def callSync (w : Session State Msg) (call : ApiCall DartString) : Option (Session State Msg) := do
  let arrived ← carrier.carry call
  let (rust, outcome) := api.sync w.rust arrived
  let post ← carrier.take (.future call) (carrier.put (.reply outcome))
  some ({ w with rust := rust, answered := w.answered ++ [Post.reply outcome] }.sees (.returned post))

/-- A call that returns a future. -/
def callFuture (w : Session State Msg) (call : ApiCall DartString) : Option (Session State Msg) := do
  let arrived ← carrier.carry call
  some (((w.opens (.future call) 1).turn api carrier (.invoke arrived w.ports none)).sees (.future w.ports))

/-- A call that returns a stream: of the two ports it opens the first is the sink's. -/
def callStream (w : Session State Msg) (call : ApiCall DartString) (listener : Listener) :
    Option (Session State Msg) := do
  let arrived ← carrier.carry (call.withSink (sinks.setupAndSerialize w.ports))
  let (text, _) ← arrived.sink
  let port ← sinks.deserialize text
  some (((w.opens listener 2).turn api carrier (.invoke arrived (w.ports + 1) (some port))).sees
    (.stream w.ports))

/-- The next that has come on a port, if the caller has it and something has. -/
def receive (w : Session State Msg) (port : Nat) : Option (Session State Msg) :=
  match w.listeners port, w.underWay port with
  | some listener, msg :: rest => do
    let post ← carrier.take listener msg
    some ({ w with underWay := Function.update w.underWay port rest }.sees (.received port post))
  | _, _ => some (w.sees .nothing)

/-- One act of the caller; `none` where one side cannot make out what the other sent. -/
def step (mode : ApiCall DartString → FfiCallMode) (w : Session State Msg) : Act → Option (Session State Msg)
  | .invoke call =>
    match mode call, call.sink with
    | .sync, _ => w.callSync api carrier call
    | .normal, none => w.callFuture api carrier call
    | .normal, some (_, listener, _) => w.callStream sinks api carrier call listener
  | .time => some (w.turn api carrier .time)
  | .cancel port => some ((w.closes port).turn api carrier (.closed port))
  | .receive port => w.receive carrier port

/-- One act after the other. -/
def run (mode : ApiCall DartString → FfiCallMode) : List Act → Session State Msg → Option (Session State Msg)
  | [], w => some w
  | act :: acts, w => (w.step sinks api carrier mode act).bind (run mode acts)

end

end Session

/-! ## The bridge, and the API without it -/

section

variable (b : Buffer) (action : Format Rust2DartAction)

namespace Rust

/-- What is sent for a post. -/
def encodePost : Post String → Bytes
  | .reply outcome => transformResultSse b action outcome
  | .scanEvent event => sinkAdd action (sseEncodeScanEventDto b event)
  | .sendEvent event => sinkAdd action (sseEncodeSendTransactionEvent b event)

end Rust

namespace Dart

/-- What a listener makes of a message. -/
def decodePost (listener : Listener) (bytes : Bytes) : Option (Post DartString) :=
  match listener with
  | .future call => ((codecOf b call).decodeObject action bytes).map .reply
  | .scanEvents => do
    let .ok event ← (scanEventCodec b).decodeObject action bytes | none
    some (.scanEvent event)
  | .sendEvents => do
    let .ok event ← (sendTransactionEventCodec b).decodeObject action bytes | none
    some (.sendEvent event)

end Dart

/-- Every call crosses as a message, and everything that is put on a port as one. -/
def wire : Transport Bytes where
  carry call := Rust.dispatch b (Dart.callFfi b call)
  put := Rust.encodePost b action
  take := Dart.decodePost b action

/-- No message at all: every text is put in the other side's form, and that is that. -/
def direct : Transport (Post String) where
  carry call := some (call.map DartString.toRust)
  put := id
  take _ post := some (post.map DartString.ofRust)

/-- The mode of a call's `callFfi`. -/
abbrev modeOf (call : ApiCall DartString) : FfiCallMode := (Dart.callFfi b call).mode

end

end CwTariWallet.FrbGenerated
