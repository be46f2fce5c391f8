/-
# CwTariWallet.Bridge.Streams -- what a scan's callback is called with

A scan's stream has five places where it can end, and a forwarder that runs beside the scanner and holds
the terminal event back.  Whatever the scanner sends, wherever the callback fails and whenever the scan is
refused, stopped or replaced, the callback sees the non-terminal events up to its first failure and then
one terminal event, the last call it ever gets (`scan_stream`).

The events a scan's forwarder read are not part of its position; they are its record (`streams`).
-/
import CwTariWallet.Bridge.LockedScans
import CwTariWallet.Recording
import Mathlib.Data.List.Induction

namespace CwTariWallet

open Interleaving

/-! ## What the forwarder makes of a log of events -/

/-- The Dto images of the non-terminal events of a log, each with the callback's answer to it. -/
def images (log : List (ProcessingEvent × Bool)) : List (ScanEventDto × Bool) :=
  log.filterMap fun e =>
    ((mapProcessingEvent e.1).filter fun dto => !isTerminal dto).map fun dto => (dto, e.2)

/-- The events up to and including the first one whose delivery fails. -/
def throughFailure : List (ScanEventDto × Bool) → List ScanEventDto
  | [] => []
  | (dto, true) :: rest => dto :: throughFailure rest
  | (dto, false) :: _ => [dto]

/-- The last terminal event of a log. -/
def heldBack (log : List (ProcessingEvent × Bool)) : Option ScanEventDto :=
  (log.filterMap fun e => (mapProcessingEvent e.1).filter isTerminal).getLast?

/-- The `run_forwarder` loop, once it has read a log. -/
def Forwarder.read (log : List (ProcessingEvent × Bool)) : Forwarder :=
  log.foldl (fun f e => (f.receive e.1 e.2).1) {}

theorem Forwarder.read_snoc (log : List (ProcessingEvent × Bool)) (event : ProcessingEvent)
    (accepts : Bool) :
    Forwarder.read (log ++ [(event, accepts)]) = ((Forwarder.read log).receive event accepts).1 := by
  simp [Forwarder.read]

theorem images_snoc (log : List (ProcessingEvent × Bool)) (event : ProcessingEvent) (accepts : Bool) :
    images (log ++ [(event, accepts)]) = images log ++
      (((mapProcessingEvent event).filter fun dto => !isTerminal dto).map fun dto =>
        (dto, accepts)).toList := by
  rw [images, images, List.filterMap_append]
  congr 1

theorem heldBack_snoc (log : List (ProcessingEvent × Bool)) (event : ProcessingEvent) (accepts : Bool) :
    heldBack (log ++ [(event, accepts)]) =
      ((mapProcessingEvent event).filter isTerminal).or (heldBack log) := by
  rw [heldBack, heldBack, List.filterMap_append, List.filterMap_cons, List.filterMap_nil]
  cases (mapProcessingEvent event).filter isTerminal with
  | none => simp
  | some dto => simp

/-- Delivering one more event: it goes out unless a delivery has failed. -/
theorem throughFailure_snoc (sent : List (ScanEventDto × Bool)) (dto : ScanEventDto) (accepts : Bool) :
    throughFailure (sent ++ [(dto, accepts)]) =
      throughFailure sent ++ if sent.all (·.2) then [dto] else [] := by
  induction sent with
  | nil => cases accepts <;> rfl
  | cons first rest ih =>
    obtain ⟨dto', accepted⟩ := first
    cases accepted with
    | true =>
      show dto' :: throughFailure (rest ++ [(dto, accepts)]) = _
      rw [ih, List.all_cons, Bool.true_and]
      rfl
    | false => rfl

/-- What the loop has delivered, whether its sink is open, and what it holds back. -/
theorem Forwarder.read_eq (log : List (ProcessingEvent × Bool)) :
    Forwarder.read log =
      ⟨throughFailure (images log), (images log).all (·.2), heldBack log⟩ := by
  induction log using List.reverseRecOn with
  | nil => rfl
  | append_singleton log e ih =>
    obtain ⟨event, accepts⟩ := e
    rw [Forwarder.read_snoc, ih, images_snoc, heldBack_snoc, Forwarder.receive]
    cases hdto : mapProcessingEvent event with
    | none => simp
    | some dto =>
      cases hterminal : isTerminal dto with
      | true => simp [hterminal, Option.filter_some]
      | false =>
        cases hopen : (images log).all (·.2) with
        | false => simp [hterminal, Option.filter_some, throughFailure_snoc, hopen]
        | true => cases accepts <;> simp [hterminal, Option.filter_some, throughFailure_snoc, hopen]

/-- No event the scanner can send is an error or a supersession. -/
theorem mapProcessingEvent_ne {event : ProcessingEvent} {dto : ScanEventDto}
    (h : mapProcessingEvent event = some dto) : dto ≠ .superseded ∧ ∀ message, dto ≠ .error message := by
  cases event with
  | scanStatus status => cases status <;> cases h <;> exact ⟨nofun, nofun⟩
  | _ => cases h <;> exact ⟨nofun, nofun⟩

/-- What is held back is a terminal event the scanner sent. -/
theorem of_heldBack {log : List (ProcessingEvent × Bool)} {dto : ScanEventDto}
    (h : heldBack log = some dto) :
    isTerminal dto = true ∧ dto ≠ .superseded ∧ ∀ message, dto ≠ .error message := by
  have hmem := List.mem_of_getLast? h
  obtain ⟨e, -, he⟩ := List.mem_filterMap.mp hmem
  obtain ⟨hdto, hterminal⟩ := Option.filter_eq_some_iff.mp he
  exact ⟨hterminal, mapProcessingEvent_ne hdto⟩

/-- What is delivered of a log is not terminal. -/
theorem not_isTerminal_of_throughFailure {sent : List (ScanEventDto × Bool)}
    (h : ∀ e ∈ sent, isTerminal e.1 = false) : ∀ dto ∈ throughFailure sent, isTerminal dto = false := by
  induction sent with
  | nil => intro dto hdto; cases hdto
  | cons first rest ih =>
    obtain ⟨dto', accepted⟩ := first
    have hfirst : isTerminal dto' = false := h (dto', accepted) List.mem_cons_self
    intro dto hdto
    cases accepted with
    | true =>
      rcases List.mem_cons.mp hdto with rfl | hrest
      · exact hfirst
      · exact ih (fun e he => h e (List.mem_cons_of_mem _ he)) dto hrest
    | false =>
      obtain rfl := List.mem_singleton.mp hdto
      exact hfirst

theorem not_isTerminal_of_images {log : List (ProcessingEvent × Bool)} :
    ∀ e ∈ images log, isTerminal e.1 = false := by
  intro e he
  obtain ⟨received, -, h⟩ := List.mem_filterMap.mp he
  obtain ⟨dto, hdto, rfl⟩ := Option.map_eq_some_iff.mp h
  have hfilter := (Option.filter_eq_some_iff.mp hdto).2
  simpa using hfilter

/-! ## What a scan records -/

variable {me c : CallId} {ch : Choice} {σ σ' : Shared} {x x' : Scan}

/-- What a step of a scan has to say. -/
inductive StreamRecord where
  /-- The forwarder received an event; `accepts` is the callback's answer if it is called. -/
  | received (event : ProcessingEvent) (accepts : Bool)
  /-- The scan took its slot from `scan`, whose token was cancelled or not. -/
  | tookSlot (scan : CallId) (cancelled : Bool)
  deriving DecidableEq

def Scan.record (me : CallId) (ch : Choice) (σ : Shared) (x : Scan) : List StreamRecord :=
  match x.pos with
  | .running | .draining _ =>
    match ch.event with
    | some (event, accepts) => [.received event accepts]
    | none => []
  | .slot =>
    match (σ.enterSlot x.walletName ⟨x.handle.id, x.priority, me⟩).1 with
    | .ok (some (some previous)) => [.tookSlot previous (σ.tokens previous).cancelled]
    | _ => []
  | _ => []

def Call.record (me : CallId) (call : Call) (ch : Choice) (σ : Shared) : List StreamRecord :=
  match call with
  | .scan x => x.record me ch σ
  | _ => []

/-- The bridge, with the record of every scan. -/
def streams : Recording system Choice StreamRecord where
  next := Call.next
  record := Call.record
  step_iff := Call.step_iff

/-- The configurations of the bridge, with the record of every scan. -/
abbrev StreamWorld := Config (Recorded Shared StreamRecord) Call

/-- The events a record says were received. -/
def received (records : List StreamRecord) : List (ProcessingEvent × Bool) :=
  records.filterMap fun r =>
    match r with
    | .received event accepts => some (event, accepts)
    | .tookSlot _ _ => none

theorem received_append (records more : List StreamRecord) :
    received (records ++ more) = received records ++ received more := List.filterMap_append

/-! ## The forwarder and the outcome -/

/-- The outcome a scan carries to its end. -/
def ScanAt.outcome : ScanAt → Option ScanOutcome
  | .clear outcome | .leaveMaintenance outcome | .unstart outcome | .terminal outcome => some outcome
  | .goneConn e | .gone _ e => some (.error e)
  | _ => none

/-- What a scan that has sent its terminal event returns. -/
def ScanAt.ended : ScanAt → Option (Except BridgeError Unit)
  | .stop r | .returned r => some r
  | _ => none

/-- An outcome that is an event is a terminal one, and no error. -/
def Ends (outcome : ScanOutcome) : Prop :=
  ∀ event, outcome = .ok event → isTerminal event = true ∧ ∀ message, event ≠ .error message

theorem ends_error (e : BridgeError) : Ends (.error e) := by
  intro event h
  cases h

theorem ends_cancelled : Ends (.ok .cancelled) := by
  intro event h
  cases h
  exact ⟨rfl, nofun⟩

theorem ends_superseded : Ends (.ok .superseded) := by
  intro event h
  cases h
  exact ⟨rfl, nofun⟩

theorem ends_stoppedEvent (superseded : Bool) : Ends (.ok (stoppedEvent superseded)) := by
  cases superseded
  · exact ends_cancelled
  · exact ends_superseded

theorem ends_heldBack (log : List (ProcessingEvent × Bool)) :
    Ends (.ok ((heldBack log).getD .cancelled)) := by
  cases h : heldBack log with
  | none => exact ends_cancelled
  | some dto =>
    intro event hevent
    cases hevent
    exact ⟨(of_heldBack h).1, (of_heldBack h).2.2⟩

/-- The forwarder of a scan stands where the events of its log leave it, and the terminal event of a
valid outcome comes after them. -/
structure Scan.OnStream (x : Scan) (log : List (ProcessingEvent × Bool)) : Prop where
  reading : x.pos.ended = none → x.forwarder = .read log
  outcome : ∀ outcome, x.pos.outcome = some outcome → Ends outcome
  ended : ∀ r, x.pos.ended = some r → ∃ outcome, Ends outcome ∧ r = Scan.result outcome ∧
    x.forwarder = { Forwarder.read log with
      delivered := (Forwarder.read log).delivered ++ [Scan.terminalEvent outcome] }

/-- Somewhere else, with the forwarder as it is. -/
theorem Scan.OnStream.goto {log : List (ProcessingEvent × Bool)} (h : x.OnStream log)
    (hopen : x.pos.ended = none) (hforwarder : x'.forwarder = x.forwarder)
    (hended : x'.pos.ended = none)
    (hends : ∀ outcome, x'.pos.outcome = some outcome → Ends outcome) : x'.OnStream log where
  reading _ := hforwarder.trans (h.reading hopen)
  outcome := hends
  ended r hr := by
    rw [hended] at hr
    cases hr

/-- The forwarder reads one more event. -/
theorem Scan.OnStream.receive {log : List (ProcessingEvent × Bool)} (h : x.OnStream log)
    (hopen : x.pos.ended = none) (hnone : x.pos.outcome = none) (me : CallId) (σ : Shared)
    (event : ProcessingEvent) (accepts : Bool) :
    (x.receive me σ event accepts).1.OnStream (log ++ [(event, accepts)]) where
  reading _ := by
    rw [Forwarder.read_snoc, ← h.reading hopen]
    rfl
  outcome outcome ho := by
    rw [show (x.receive me σ event accepts).1.pos = x.pos from rfl, hnone] at ho
    cases ho
  ended r hr := by
    rw [show (x.receive me σ event accepts).1.pos = x.pos from rfl, hopen] at hr
    cases hr

/-- A scan stays on its stream, with whatever the step records. -/
theorem Scan.OnStream.step {log : List (ProcessingEvent × Bool)} (h : x.OnStream log)
    (hnext : x.next me ch σ = some (x', σ')) :
    x'.OnStream (log ++ received (x.record me ch σ)) := by
  obtain ⟨handle, w, priority, continuous, rescanFrom, pos, dbPath, forwarder, checked, swept, rolledBack⟩ := x
  unfold Scan.next at hnext
  cases pos with
  | running | draining result =>
    dsimp only at hnext
    cases hevent : ch.event with
    | some received =>
      obtain ⟨event, accepts⟩ := received
      rw [hevent] at hnext
      cases hnext
      simp only [Scan.record, hevent]
      exact h.receive rfl rfl me σ event accepts
    | none =>
      rw [hevent] at hnext
      simp only [Scan.record, hevent, received, List.filterMap_nil, List.append_nil]
      dsimp only at hnext
      (repeat' split at hnext) <;> cases hnext <;> refine h.goto rfl rfl rfl ?_ <;> intro outcome ho <;>
        cases ho <;> exact ends_error _
  | slot =>
    -- Taking the slot is recorded, but it is no event.
    have hnothing : received (Scan.record me ch σ ⟨handle, w, priority, continuous, rescanFrom, .slot, dbPath,
        forwarder, checked, swept, rolledBack⟩) = [] := by
      simp only [Scan.record]
      split <;> rfl
    rw [hnothing, List.append_nil]
    dsimp only at hnext
    split at hnext <;> cases hnext <;> refine h.goto rfl rfl rfl ?_ <;> intro outcome ho <;> cases ho
    · exact ends_error _
    · exact ends_cancelled
  | terminal outcome =>
    cases hnext
    simp only [Scan.record, received, List.filterMap_nil, List.append_nil]
    have hforwarder : forwarder = .read log := h.reading rfl
    refine ⟨fun hopen => (by cases hopen), fun outcome ho => (by cases ho), fun r hr => ?_⟩
    cases hr
    exact ⟨outcome, h.outcome outcome rfl, rfl, by rw [hforwarder]⟩
  | stop r =>
    cases hnext
    simp only [Scan.record, received, List.filterMap_nil, List.append_nil]
    refine ⟨fun hopen => (by cases hopen), fun outcome ho => (by cases ho), fun r' hr => ?_⟩
    cases hr
    exact h.ended r rfl
  | returned r => cases hnext
  | maintenance =>
    simp only [Scan.record, received, List.filterMap_nil, List.append_nil]
    obtain ⟨σ₁, -, hnext⟩ := Option.map_eq_some_iff.mp hnext
    cases hnext
    refine h.goto rfl rfl rfl ?_
    intro outcome ho
    cases ho
  | readSuperseded =>
    simp only [Scan.record, received, List.filterMap_nil, List.append_nil]
    have hheld : forwarder.terminal = heldBack log := by
      rw [show forwarder = .read log from h.reading rfl, Forwarder.read_eq]
    dsimp only at hnext
    split at hnext <;> cases hnext <;> refine h.goto rfl rfl rfl ?_ <;> intro outcome ho <;> cases ho
    · exact ends_superseded
    · rw [hheld]
      exact ends_heldBack log
  | firstCheck | secondCheck =>
    simp only [Scan.record, received, List.filterMap_nil, List.append_nil]
    dsimp only at hnext
    split at hnext <;> cases hnext <;> refine h.goto rfl rfl rfl ?_ <;> intro outcome ho <;> cases ho
    exact ends_stoppedEvent _
  | sweepConn | sweep file =>
    simp only [Scan.record, received, List.filterMap_nil, List.append_nil]
    cases rescanFrom <;> dsimp only at hnext <;> (repeat' split at hnext) <;> cases hnext <;>
      refine h.goto rfl rfl rfl ?_ <;> intro outcome ho <;> cases ho
  | leaveMaintenance outcome | unstart outcome =>
    cases hnext
    simp only [Scan.record, received, List.filterMap_nil, List.append_nil]
    exact h.goto rfl rfl rfl h.outcome
  | clear outcome =>
    simp only [Scan.record, received, List.filterMap_nil, List.append_nil]
    dsimp only at hnext
    split at hnext <;> cases hnext <;> exact h.goto rfl rfl rfl h.outcome
  | claim =>
    simp only [Scan.record, received, List.filterMap_nil, List.append_nil]
    dsimp only at hnext
    (repeat' split at hnext) <;> cases hnext <;> refine h.goto rfl rfl rfl ?_ <;> intro outcome ho <;>
      cases ho
    · exact ends_error _
    · exact ends_cancelled
    · exact ends_error _
  | dropMaintenance previous =>
    simp only [Scan.record, received, List.filterMap_nil, List.append_nil]
    cases previous <;> cases hnext <;> refine h.goto rfl rfl rfl ?_ <;> intro outcome ho <;> cases ho
  | _ =>
    -- Everywhere else a scan goes on, or fails.
    simp only [Scan.record, received, List.filterMap_nil, List.append_nil]
    dsimp only at hnext
    (repeat' split at hnext) <;> cases hnext <;> refine h.goto rfl rfl rfl ?_ <;> intro outcome ho <;>
      cases ho <;> exact ends_error _

variable {ok : Guard (Recorded Shared StreamRecord) Call} {s : StreamWorld}

/-- Every scan is on the stream its record tells of. -/
theorem scan_onStream (h : streams.recorded.Reach ok s) (hc : s.calls c = some (.scan x)) :
    x.OnStream (received (s.shared.records c)) := by
  refine Recording.own_course (R := streams)
    (A := fun _ call es => ∀ x, call = .scan x → x.OnStream (received es)) ?_ ?_ h hc x rfl
  · rintro c call hstart x rfl
    have hx : x = _ := of_decide_eq_true hstart
    rw [hx]
    exact ⟨fun _ => rfl, fun outcome ho => (by cases ho), fun r hr => (by cases hr)⟩
  · intro s c call ch call' σ' _ _ hA hnext x' hx'
    subst hx'
    obtain ⟨x, rfl, hx⟩ := Call.of_next_scan hnext
    rw [received_append]
    exact (hA x rfl).step hx

/-! ## A failed delivery, and a supersession -/

/-- The sink closes only as the scan's token is cancelled. -/
theorem Scan.next_sinkOpen (h : x.next me ch σ = some (x', σ'))
    (hclosed : x'.forwarder.sinkOpen = false) :
    x.forwarder.sinkOpen = false ∨ (σ'.tokens me).cancelled = true := by
  have hreceive (event : ProcessingEvent) (accepts : Bool)
      (hclosed : (x.receive me σ event accepts).1.forwarder.sinkOpen = false) :
      x.forwarder.sinkOpen = false ∨
        ((x.receive me σ event accepts).2.tokens me).cancelled = true := by
    by_cases hopen : x.forwarder.sinkOpen = true
    · right
      have hcancel : (x.forwarder.receive event accepts).2 = true := by
        simp only [receive, Forwarder.receive] at hclosed ⊢
        cases hdto : mapProcessingEvent event with
        | none => simp [hdto, hopen] at hclosed
        | some dto =>
          simp only [hdto] at hclosed ⊢
          cases hterminal : isTerminal dto <;> cases accepts <;> simp_all
      simp [receive, hcancel]
    · exact Or.inl (by simpa using hopen)
  obtain ⟨handle, w, priority, continuous, rescanFrom, pos, dbPath, forwarder, checked, swept, rolledBack⟩ := x
  unfold next at h
  cases pos with
  | running | draining result =>
    dsimp only at h
    split at h
    · cases h
      exact hreceive _ _ hclosed
    · (repeat' split at h) <;> cases h <;> exact Or.inl hclosed
  | maintenance =>
    obtain ⟨σ₁, -, h⟩ := Option.map_eq_some_iff.mp h
    cases h
    exact Or.inl hclosed
  | sweepConn | sweep file =>
    cases rescanFrom <;> dsimp only at h <;> (repeat' split at h) <;> cases h <;> exact Or.inl hclosed
  | _ =>
    dsimp only at h
    (repeat' split at h) <;> cases h <;> exact Or.inl hclosed

/-- A scan whose sink is closed has its token cancelled. -/
theorem cancelled_of_closed {ok : Guard Shared Call} {s : World} (h : system.Reach ok s)
    (hc : s.calls c = some (.scan x)) (hclosed : x.forwarder.sinkOpen = false) :
    (s.shared.tokens c).cancelled = true := by
  refine h.outline (A := fun c call σ => ∀ x, call = .scan x → x.forwarder.sinkOpen = false →
    (σ.tokens c).cancelled = true) ?_ ?_ ?_ hc x rfl hclosed
  · rintro s c call _ _ hstart x rfl hclosed
    have hx : x = _ := of_decide_eq_true hstart
    rw [hx] at hclosed
    cases hclosed
  · intro s c call call' σ' _ _ _ hA hstep x' hx' hclosed
    subst hx'
    obtain ⟨ch, hstep⟩ := hstep
    obtain ⟨x, rfl, hnext⟩ := Call.of_next_scan hstep
    rcases Scan.next_sinkOpen hnext hclosed with hbefore | hcancelled
    · exact (Call.scanStep hstep).cancelled (hA x rfl hbefore)
    · exact hcancelled
  · intro s m l l' σ' d call _ _ _ _ hstep _ _ hB x hx hclosed
    obtain ⟨ch, hstep⟩ := hstep
    exact (Call.scanStep hstep).cancelled (hB x hx hclosed)

/-- A scan that ends, or has ended, as superseded. -/
def Scan.EndsSuperseded (x : Scan) : Prop :=
  x.pos.outcome = some (.ok .superseded) ∨ .superseded ∈ x.forwarder.delivered

/-- The forwarder delivers no supersession. -/
theorem superseded_of_receive {f : Forwarder} {event : ProcessingEvent} {accepts : Bool}
    (h : .superseded ∈ (f.receive event accepts).1.delivered) : .superseded ∈ f.delivered := by
  unfold Forwarder.receive at h
  cases hdto : mapProcessingEvent event with
  | none => simpa [hdto] using h
  | some dto =>
    have hne : .superseded ≠ dto := Ne.symm (mapProcessingEvent_ne hdto).1
    simp only [hdto] at h
    (repeat' split at h) <;> simpa [hne] using h

/-- A scan comes to end as superseded only where it reads its flag. -/
theorem Scan.EndsSuperseded.before (h : x.next me ch σ = some (x', σ'))
    (hheld : x.forwarder.terminal ≠ some .superseded) (hends : x'.EndsSuperseded) :
    x.EndsSuperseded ∨ (σ.tokens me).superseded = true := by
  obtain ⟨handle, w, priority, continuous, rescanFrom, pos, dbPath, forwarder, checked, swept, rolledBack⟩ := x
  unfold next at h
  cases pos with
  | running | draining result =>
    dsimp only at h
    split at h
    · cases h
      rcases hends with hoe | hdelivered
      · cases hoe
      · exact Or.inl (Or.inr (superseded_of_receive hdelivered))
    · (repeat' split at h) <;> cases h <;> rcases hends with hoe | hdelivered <;>
        first | cases hoe | exact Or.inl (Or.inr hdelivered)
  | maintenance =>
    obtain ⟨σ₁, -, h⟩ := Option.map_eq_some_iff.mp h
    cases h
    rcases hends with hoe | hdelivered
    · cases hoe
    · exact Or.inl (Or.inr hdelivered)
  | sweepConn | sweep file =>
    cases rescanFrom <;> dsimp only at h <;> (repeat' split at h) <;> cases h <;>
      rcases hends with hoe | hdelivered <;> first | cases hoe | exact Or.inl (Or.inr hdelivered)
  | firstCheck | secondCheck =>
    dsimp only at h
    split at h <;> cases h <;> rcases hends with hoe | hdelivered
    · right
      cases hsuperseded : (σ.tokens me).superseded with
      | true => rfl
      | false =>
        rw [hsuperseded] at hoe
        cases hoe
    · exact Or.inl (Or.inr hdelivered)
    · cases hoe
    · exact Or.inl (Or.inr hdelivered)
  | readSuperseded =>
    dsimp only at h
    split at h <;> cases h <;> rcases hends with hoe | hdelivered
    · exact Or.inr ‹_›
    · exact Or.inl (Or.inr hdelivered)
    · -- What was held back is no supersession.
      have hevent : forwarder.terminal.getD .cancelled = .superseded := by
        simpa [ScanAt.outcome, Scan.goto] using hoe
      cases hterminal : forwarder.terminal with
      | none =>
        rw [hterminal] at hevent
        cases hevent
      | some dto =>
        rw [hterminal] at hevent
        exact absurd (hterminal.trans (congrArg some hevent)) hheld
    · exact Or.inl (Or.inr hdelivered)
  | terminal outcome =>
    cases h
    rcases hends with hoe | hdelivered
    · cases hoe
    · rcases List.mem_append.mp hdelivered with hold | hlast
      · exact Or.inl (Or.inr hold)
      · left
        left
        cases outcome with
        | ok event =>
          have hevent : ScanEventDto.superseded = event := List.mem_singleton.mp hlast
          subst hevent
          rfl
        | error e => cases List.mem_singleton.mp hlast
  | _ =>
    dsimp only at h
    (repeat' split at h) <;> cases h <;> rcases hends with hoe | hdelivered <;>
      first | (cases hoe; done) | exact Or.inl (Or.inl hoe) | exact Or.inl (Or.inr hdelivered)

/-- A scan that ends as superseded has its flag set. -/
theorem superseded_of_ends (h : streams.recorded.Reach ok s) (hc : s.calls c = some (.scan x))
    (hends : x.EndsSuperseded) : (s.shared.shared.tokens c).superseded = true := by
  refine h.outline (A := fun c call r => ∀ x, call = .scan x → x.EndsSuperseded →
    (r.shared.tokens c).superseded = true) ?_ ?_ ?_ hc x rfl hends
  · rintro s c call _ _ hstart x rfl hends
    have hx : x = _ := of_decide_eq_true hstart
    rw [hx] at hends
    rcases hends with hoe | hdelivered
    · cases hoe
    · cases hdelivered
  · intro s c call call' r' hs _ hc hA hstep x' hx' hends
    subst hx'
    obtain ⟨ch, σ', hstep, rfl⟩ := hstep
    obtain ⟨x, rfl, hnext⟩ := Call.of_next_scan hstep
    have hheld : x.forwarder.terminal ≠ some .superseded := by
      have hon := scan_onStream hs hc
      cases hended : x.pos.ended with
      | none =>
        rw [hon.reading hended, Forwarder.read_eq]
        exact fun hsome => (of_heldBack hsome).2.1 rfl
      | some r =>
        obtain ⟨outcome, -, -, hforwarder⟩ := hon.ended r hended
        rw [hforwarder, Forwarder.read_eq]
        exact fun hsome => (of_heldBack hsome).2.1 rfl
    have hscan : ScanStep c (.scan x) s.shared.shared (.scan x') σ' := Call.scanStep hstep
    rcases hends.before hnext hheld with hbefore | hflag
    · exact hscan.superseded (hA x rfl hbefore)
    · exact hscan.superseded hflag
  · intro s m l l' r' d call _ _ _ _ hstep _ _ hB x hx hends
    obtain ⟨ch, σ', hstep, rfl⟩ := hstep
    exact (Call.scanStep hstep).superseded (hB x hx hends)

/-- Taking a slot from another scan is recorded, with how that scan's token was. -/
theorem Scan.record_of_takes {previous : CallId} (h : x.next me ch σ = some (x', σ'))
    (hpos : x.pos = .slot) (hgoes : x'.pos = .dropMaintenance (some previous)) :
    x.record me ch σ = [.tookSlot previous (σ.tokens previous).cancelled] := by
  unfold next at h
  rw [hpos] at h
  dsimp only at h
  split at h <;> cases h
  · cases hgoes
  · cases hgoes
  · rename_i hslot
    obtain rfl := ScanAt.dropMaintenance.inj hgoes
    simp only [record, hpos, hslot]

/-- A newer scan of `c`'s wallet took the slot from `c`, while `c`'s token was not cancelled. -/
def StreamWorld.Replaced (s : StreamWorld) (c : CallId) (w : WalletName) : Prop :=
  ∃ d y, d ≠ c ∧ s.calls d = some (.scan y) ∧ y.walletName = w ∧
    .tookSlot c false ∈ s.shared.records d

/-- A superseded scan was replaced while it was still wanted. -/
theorem replaced_of_superseded {ok : Guard Shared Call}
    (h : streams.recorded.Reach (Recording.guard ok) s) :
    ∀ c, (s.shared.shared.tokens c).superseded = true →
      ∃ x, s.calls c = some (.scan x) ∧ StreamWorld.Replaced s c x.walletName := by
  refine h.invariant (I := fun s : StreamWorld => ∀ c,
    (s.shared.shared.tokens c).superseded = true →
      ∃ x, s.calls c = some (.scan x) ∧ StreamWorld.Replaced s c x.walletName) ?_ ?_ ?_
  · rintro r ⟨⟨files, tariCommon, hr⟩, -⟩ c hc
    rw [show r.shared = Shared.initial files tariCommon from hr] at hc
    cases hc
  · intro s m call _ ih _ hfree _ c hc
    obtain ⟨x, hx, d, y, hne, hd, hw, hrecord⟩ := ih c hc
    exact ⟨x, Config.put_calls_of_free hfree hx, d, y, hne, Config.put_calls_of_free hfree hd, hw, hrecord⟩
  · rintro s m l l' r' hs ih _ hm hrecorded c hc
    have hgrow {d : CallId} {e : StreamRecord} (he : e ∈ s.shared.records d) : e ∈ r'.records d :=
      Recording.records_grow hrecorded he
    obtain ⟨ch, σ', hstep, rfl⟩ := hrecorded
    rcases (Call.scanStep hstep).superseded_of hc with hold | ⟨y, old, rfl, htakes, rfl, hlive⟩
    · obtain ⟨x, hx, d, y, hne, hd, hw, hrecord⟩ := ih c hold
      -- Both go on being the scans they were.
      obtain ⟨x', hx', hxnext⟩ := scan_put (s := Recording.plain s) hm hstep hx
      obtain ⟨y', hy', hynext⟩ := scan_put (s := Recording.plain s) hm hstep hd
      have hxname : x'.walletName = x.walletName := by
        rcases hxnext with ⟨-, hnext⟩ | ⟨-, rfl⟩
        · exact (Scan.next_same hnext).2
        · rfl
      have hyname : y'.walletName = y.walletName := by
        rcases hynext with ⟨-, hnext⟩ | ⟨-, rfl⟩
        · exact (Scan.next_same hnext).2
        · rfl
      exact ⟨x', hx', d, y', hne, hy', by rw [hyname, hxname, hw], hgrow hrecord⟩
    · -- The mover takes the slot now, and records it.
      obtain ⟨call, hcall, hslot⟩ := running_sound (Recording.forget hs) _ _ htakes.slot
      cases call with
      | scan x =>
        simp only [Call.slot, Option.ite_none_right_eq_some, Option.some.injEq, Prod.mk.injEq] at hslot
        obtain ⟨hactive, hname, -⟩ := hslot
        have hne : m ≠ old.scan := by
          rintro rfl
          obtain rfl := Call.scan.inj (Option.some.inj (hm.symm.trans hcall))
          rw [htakes.pos] at hactive
          cases hactive
        obtain ⟨y', hy', hnext⟩ := Call.next_scan hstep
        have hgoes : y'.pos = .dropMaintenance (some old.scan) := by
          rw [Call.scan.inj (hy'.symm.trans htakes.goes)]
          rfl
        refine ⟨x, ?_, m, y', hne, ?_, (Scan.next_same hnext).2.trans hname.symm, ?_⟩
        · rw [Config.put_calls_ne _ _ _ hne.symm]
          exact hcall
        · rw [Config.put_calls_self, hy']
        · rw [Config.put_shared, Recording.write_records_self]
          show _ ∈ _ ++ y.record m ch s.shared.shared
          rw [Scan.record_of_takes hnext htakes.pos hgoes, hlive]
          exact List.mem_append_right _ List.mem_cons_self
      | _ => cases hslot

/-! ## The stream of a scan -/

/-- What a scan's callback has been called with, where its forwarder read the events of `log`. -/
structure StreamWorld.Streams (s : StreamWorld) (c : CallId) (x : Scan)
    (log : List (ProcessingEvent × Bool)) : Prop where
  /-- Up to its terminal event, with the images of the log up to the first failure, none of them
  terminal. -/
  before : x.pos.ended = none → x.forwarder.delivered = throughFailure (images log)
  nonterminal : ∀ dto ∈ throughFailure (images log), isTerminal dto = false
  /-- Then with one terminal event, which is an error if the call fails, and a supersession only if the
  scan was replaced while its token was uncancelled. -/
  after : ∀ r, x.pos.ended = some r → ∃ last,
    x.forwarder.delivered = throughFailure (images log) ++ [last] ∧ isTerminal last = true ∧
    ((∃ message, last = .error message) ↔ ∃ e, r = .error e) ∧
    (last = .superseded → StreamWorld.Replaced s c x.walletName)
  /-- A failed delivery cancels the scan's token. -/
  cancels : ∀ dto, (dto, false) ∈ images log → (s.shared.shared.tokens c).cancelled = true
  /-- What is held back is the last terminal event of the whole log, failure or not. -/
  holds : x.forwarder.terminal = heldBack log
  /-- And any further event is read. -/
  reads : x.pos = .running ∨ (∃ result, x.pos = .draining result) →
    ∀ ch event accepts, ch.event = some (event, accepts) →
      ∃ x' σ', x.next c ch s.shared.shared = some (x', σ') ∧ x'.pos = x.pos ∧
        received (x.record c ch s.shared.shared) = [(event, accepts)]

/-- A scan that reads its forwarder takes the event there, and its record is that event. -/
theorem Scan.next_of_reads {x : Scan} {ch : Choice} {σ : Shared} {event : ProcessingEvent} {accepts : Bool}
    (hreads : x.pos = .running ∨ ∃ result, x.pos = .draining result)
    (hevent : ch.event = some (event, accepts)) :
    x.next c ch σ = some (x.receive c σ event accepts) ∧
      received (x.record c ch σ) = [(event, accepts)] := by
  rcases hreads with hpos | ⟨result, hpos⟩
  · refine ⟨by simp only [Scan.next, hpos, hevent], ?_⟩
    simp only [Scan.record, hpos, hevent]
    rfl
  · refine ⟨by simp only [Scan.next, hpos, hevent], ?_⟩
    simp only [Scan.record, hpos, hevent]
    rfl

/-- Every scan stream is the events its forwarder read, up to the first failed delivery, and then exactly
one terminal event. -/
theorem scan_stream {ok : Guard Shared Call} (h : streams.recorded.Reach (Recording.guard ok) s)
    (hc : s.calls c = some (.scan x)) :
    StreamWorld.Streams s c x (received (s.shared.records c)) := by
  have hon := scan_onStream h hc
  have hforwarder : x.forwarder.sinkOpen = (images (received (s.shared.records c))).all (·.2) ∧
      x.forwarder.terminal = heldBack (received (s.shared.records c)) := by
    cases hended : x.pos.ended with
    | none =>
      rw [hon.reading hended, Forwarder.read_eq]
      exact ⟨rfl, rfl⟩
    | some r =>
      obtain ⟨outcome, -, -, heq⟩ := hon.ended r hended
      rw [heq, Forwarder.read_eq]
      exact ⟨rfl, rfl⟩
  refine ⟨fun hopen => ?_, not_isTerminal_of_throughFailure not_isTerminal_of_images, fun r hr => ?_,
    fun dto hdto => ?_, hforwarder.2, fun hreads ch event accepts hevent => ?_⟩
  · rw [hon.reading hopen, Forwarder.read_eq]
  · obtain ⟨outcome, hends, rfl, heq⟩ := hon.ended r hr
    refine ⟨Scan.terminalEvent outcome, by rw [heq, Forwarder.read_eq], ?_, ?_, ?_⟩
    · cases outcome with
      | ok event => exact (hends event rfl).1
      | error e => rfl
    · cases outcome with
      | ok event =>
        refine ⟨fun ⟨message, hmessage⟩ => ?_, fun ⟨e, he⟩ => by cases he⟩
        exact absurd hmessage ((hends event rfl).2 message)
      | error e => exact ⟨fun _ => ⟨_, rfl⟩, fun _ => ⟨_, rfl⟩⟩
    · intro hlast
      have hsuperseded : x.EndsSuperseded := by
        right
        rw [heq, hlast]
        exact List.mem_append_right _ List.mem_cons_self
      obtain ⟨x₁, hx₁, hreplaced⟩ := replaced_of_superseded h c (superseded_of_ends h hc hsuperseded)
      obtain rfl := Call.scan.inj (Option.some.inj (hc.symm.trans hx₁))
      exact hreplaced
  · refine cancelled_of_closed (Recording.forget h) hc ?_
    rw [hforwarder.1, List.all_eq_false]
    exact ⟨_, hdto, by simp⟩
  · obtain ⟨hnext, hrecord⟩ := Scan.next_of_reads hreads hevent
    exact ⟨_, _, hnext, rfl, hrecord⟩

/-- A fresh process, nothing recorded. -/
def freshStreams : StreamWorld := ⟨⟨fresh.shared, fun _ => []⟩, fun _ => none⟩

/-- The forwarder of a scan receives an event, and the callback answers. -/
def receives (c : CallId) (event : ProcessingEvent) (accepts : Bool) : Act Call Choice :=
  .step c { event := some (event, accepts) }

/-- Where a call is a scan: what its callback was called with, and what it returned. -/
def Call.streamed : Call → Option (List ScanEventDto × Option (Except BridgeError Unit))
  | .scan x => some (x.forwarder.delivered, x.pos.ended)
  | _ => none

/-- A scan that has delivered a progress event, and holds back that it is through, is replaced. -/
def streamReplaced : Option StreamWorld :=
  (streams.replay 5 Call.starts fun _ _ => true).exec freshStreams (unlocks 0 firstPath ++
    startsScan 1 2 0 ++ go 2 3 ++ [receives 2 (.scanStatus (.progress 1 5 10 5)) true,
      receives 2 .blockProcessed true, receives 2 (.scanStatus (.completed 1 10 10)) true] ++
    startsScan 3 4 1 ++ go 2 7)

theorem scan_stream_streamReplaced : ∃ s x, streamReplaced = some s ∧ s.calls 2 = some (.scan x) ∧
    x.forwarder.delivered = [.progress 1 5 10 5, .superseded] ∧
    StreamWorld.Streams s 2 x (received (s.shared.records 2)) := by
  obtain ⟨s, hs⟩ := Option.isSome_iff_exists.mp (by decide : streamReplaced.isSome = true)
  have facts : (streamReplaced.bind fun s => s.calls 2).bind Call.streamed =
      some ([.progress 1 5 10 5, .superseded], some (.ok ())) := by decide
  rw [hs, Option.bind_some, Option.bind_eq_some_iff] at facts
  obtain ⟨call, hcall, hstreamed⟩ := facts
  cases call <;> simp only [Call.streamed, reduceCtorEq, Option.some.injEq, Prod.mk.injEq] at hstreamed
  case scan x =>
  have hR : (streams.replay 5 Call.starts fun _ _ => true).Sound streams.recorded
      (Recording.guard fun _ _ => True) :=
    Recording.replay_sound (fun _ h => h) fun _ _ _ _ => trivial
  have hreach : streams.recorded.Reach (Recording.guard fun _ _ => True) s :=
    hR.reach ⟨fresh_init, rfl⟩ hs
  exact ⟨s, x, hs, hcall, hstreamed.1, scan_stream hreach hcall⟩

end CwTariWallet
