/-
# CwTariWallet.Api.LogWriter -- the log file writer and the panic hook

Every record goes through `LogWriteFlagged` to the rotating file.  A panic in there runs the panic hook
before it unwinds, and the hook logs, through the same writer and the same output lock of fern; so the writer
marks the thread (`IN_LOG_WRITE`), catches what unwinds out of the file, and latches `LOG_WRITER_BROKEN`.

A thread is the stack of what it has called, the innermost first, and a panic can unwind through it.  Code
that is not of this module (the application, the formatting of a record, the inner writer) does what it
likes: it logs, returns, fails, raises panics and catches them.
-/
import CwTariWallet.Interleaving

namespace CwTariWallet.LogWriter

open Interleaving

/-- The name of one thread. -/
abbrev ThreadId := CallId

/-! ## The calls of a thread -/

/-- A call of `std::io::Write`. -/
inductive Op where
  | write (buf : List UInt8)
  | flush
  deriving DecidableEq

/-- What such a call says it has done. -/
inductive Done where
  | written (n : Nat)
  | flushed
  deriving DecidableEq

/-- The text of a `std::io::Error`. -/
abbrev IoError := String

/-- How a call of the inner writer ends. -/
inductive Ending where
  | ok
  | error (e : IoError)
  | panicked
  deriving DecidableEq

/-- Where `write` or `flush` of a `LogWriteFlagged` stands. -/
inductive WriteAt where
  /-- Before `self.broken.load`. -/
  | load
  /-- Before `LogWriteGuard::enter`. -/
  | enter
  /-- In `catch_unwind`, around the call of the inner writer. -/
  | inner
  /-- `catch_unwind` has answered, with a panic or without; `self.broken.store` comes next. -/
  | caught (panicked : Bool)
  /-- The guard is dropped on the way out. -/
  | leave (result : Except IoError Done)
  deriving DecidableEq

/-- Where the panic hook stands. -/
inductive HookAt where
  /-- Before `IN_LOG_WRITE.get`. -/
  | inLogWrite
  /-- Before `LOG_WRITER_BROKEN.load`. -/
  | broken
  /-- Logging, or done with it; the previous hook comes next. -/
  | prevHook
  deriving DecidableEq

/-- What a thread has called. -/
inductive Frame where
  /-- The logger with one record: formatting it, and then `locked`, with the output lock of fern. -/
  | log (locked : Bool)
  /-- `LogWriteFlagged`. -/
  | write (op : Op) (pos : WriteAt)
  /-- The inner writer. -/
  | inner (op : Op)
  /-- The panic hook, at the point of a panic. -/
  | hook (pos : HookAt)
  deriving DecidableEq

/-- A thread: its calls, the innermost first, and whether a panic is unwinding through them.  Below them
all runs the application. -/
structure Thread where
  stack : List Frame
  unwinding : Bool
  deriving DecidableEq

/-- What has happened at the writer. -/
inductive WriteEvent where
  | entered (op : Op)
  | left (op : Op) (how : Ending)
  | returned (op : Op) (result : Except IoError Done)
  | unwound (op : Op)
  deriving DecidableEq

structure LogGlobals where
  /-- `LOG_WRITER_BROKEN`. -/
  broken : Bool
  /-- `IN_LOG_WRITE` of every thread. -/
  inLogWrite : ThreadId → Bool
  /-- The thread that holds fern's lock of the file output. -/
  outputLock : Option ThreadId
  /-- The process is gone: a panic was raised in the panic hook. -/
  aborted : Bool
  /-- The history, the latest first; no step reads it. -/
  trace : List (ThreadId × WriteEvent)

/-- What the code that is not modelled does next. -/
inductive Choice where
  | log
  | lock
  | call (op : Op)
  | done
  | fail (e : IoError)
  | panic
  | recover

/-! ## The writer -/

namespace LogGlobals

variable (σ : LogGlobals) (c : ThreadId)

/-- The state with one more event. -/
def record (e : WriteEvent) : LogGlobals := { σ with trace := (c, e) :: σ.trace }

/-- `LogWriteGuard::enter`. -/
def enterLogWrite : LogGlobals := { σ with inLogWrite := Function.update σ.inLogWrite c true }

/-- `impl Drop for LogWriteGuard`. -/
def dropLogWrite : LogGlobals := { σ with inLogWrite := Function.update σ.inLogWrite c false }

end LogGlobals

/-- What `write` returns, broken or not: `Ok(buf.len())`; and `flush`: `Ok(())`. -/
def Op.result : Op → Except IoError Done
  | .write buf => .ok (.written buf.length)
  | .flush => .ok .flushed

/-- `LogWriteFlagged::write` and `LogWriteFlagged::flush`, above `rest`. -/
def logWriteFlagged (c : ThreadId) (op : Op) (pos : WriteAt) (rest : List Frame) (σ : LogGlobals) :
    Option (Thread × LogGlobals) :=
  match pos with
  | .load =>
    if σ.broken then some (⟨rest, false⟩, σ.record c (.returned op op.result))
    else some (⟨.write op .enter :: rest, false⟩, σ)
  | .enter =>
    some (⟨.inner op :: .write op .inner :: rest, false⟩, (σ.enterLogWrite c).record c (.entered op))
  | .inner => none
  | .caught panicked =>
    some (⟨.write op (.leave op.result) :: rest, false⟩, if panicked then { σ with broken := true } else σ)
  | .leave result => some (⟨rest, false⟩, (σ.dropLogWrite c).record c (.returned op result))

/-! ## Panics -/

def Frame.isHook : Frame → Bool
  | .hook _ => true
  | _ => false

/-- A panic at the innermost frame: it runs the hook, unless the hook is what raises it. -/
def Thread.raise (t : Thread) (σ : LogGlobals) : Thread × LogGlobals :=
  if t.stack.any Frame.isHook then (t, { σ with aborted := true })
  else (⟨.hook .inLogWrite :: t.stack, false⟩, σ)

/-- The closure that `install_panic_hook` sets, above `rest`.  When it returns, the panic unwinds. -/
def panicHook (c : ThreadId) (pos : HookAt) (rest : List Frame) (σ : LogGlobals) : Thread × LogGlobals :=
  match pos with
  | .inLogWrite =>
    if σ.inLogWrite c then (⟨.hook .prevHook :: rest, false⟩, σ) else (⟨.hook .broken :: rest, false⟩, σ)
  | .broken =>
    if σ.broken then (⟨.hook .prevHook :: rest, false⟩, σ)
    else (⟨.log false :: .hook .prevHook :: rest, false⟩, σ)
  | .prevHook => (⟨rest, true⟩, σ)

/-- Whether the guard of a write is up. -/
def WriteAt.guarded : WriteAt → Bool
  | .load | .enter => false
  | .inner | .caught _ | .leave _ => true

/-- A panic unwinds through the innermost frame.  The application catches it somewhere; a record's own
formatting and the inner writer may; `catch_unwind` of the writer does; nothing else. -/
def unwind (c : ThreadId) (ch : Choice) (stack : List Frame) (σ : LogGlobals) : Thread × LogGlobals :=
  match stack, ch with
  | [], _ => (⟨[], false⟩, σ)
  | .log false :: rest, .recover => (⟨.log false :: rest, false⟩, σ)
  | .log false :: rest, _ => (⟨rest, true⟩, σ)
  | .log true :: rest, _ => (⟨rest, true⟩, { σ with outputLock := none })
  | .inner op :: rest, .recover => (⟨.inner op :: rest, false⟩, σ)
  | .inner _ :: rest, _ => (⟨rest, true⟩, σ)
  | .write op .inner :: rest, _ =>
    (⟨.write op (.caught true) :: rest, false⟩, σ.record c (.left op .panicked))
  | .write op pos :: rest, _ =>
    (⟨rest, true⟩, (if pos.guarded then σ.dropLogWrite c else σ).record c (.unwound op))
  | .hook _ :: rest, _ => (⟨rest, true⟩, { σ with aborted := true })

/-! ## Steps -/

/-- The inner writer has answered without a panic: so does `catch_unwind`. -/
def answer (c : ThreadId) (how : Ending) (stack : List Frame) (σ : LogGlobals) :
    Option (Thread × LogGlobals) :=
  match stack with
  | .inner op :: .write op' .inner :: rest =>
    some (⟨.write op' (.caught false) :: rest, false⟩, σ.record c (.left op how))
  | _ => none

/-- The next step of a thread. -/
def Thread.next (c : ThreadId) (t : Thread) (ch : Choice) (σ : LogGlobals) : Option (Thread × LogGlobals) :=
  if σ.aborted then none
  else if t.unwinding then some (unwind c ch t.stack σ)
  else match t.stack, ch with
    | [], .log => some (⟨[.log false], false⟩, σ)
    | [], .panic => some (t.raise σ)
    | .log false :: rest, .log => some (⟨.log false :: .log false :: rest, false⟩, σ)
    | .log false :: rest, .lock =>
      if σ.outputLock = none then some (⟨.log true :: rest, false⟩, { σ with outputLock := some c }) else none
    | .log false :: rest, .done => some (⟨rest, false⟩, σ)
    | .log true :: rest, .call op => some (⟨.write op .load :: .log true :: rest, false⟩, σ)
    | .log true :: rest, .done => some (⟨rest, false⟩, { σ with outputLock := none })
    | .log _ :: _, .panic => some (t.raise σ)
    | .inner _ :: _, .done => answer c .ok t.stack σ
    | .inner _ :: _, .fail e => answer c (.error e) t.stack σ
    | .inner _ :: _, .panic => some (t.raise σ)
    | .write op pos :: rest, _ => logWriteFlagged c op pos rest σ
    | .hook pos :: rest, _ => some (panicHook c pos rest σ)
    | _, _ => none

/-- Any number of threads that log. -/
def logWrites : System LogGlobals Thread where
  init σ := σ.broken = false ∧ (∀ c, σ.inLogWrite c = false) ∧ σ.outputLock = none ∧ σ.trace = []
  start t := t = ⟨[], false⟩
  step c t σ t' σ' := ∃ ch, t.next c ch σ = some (t', σ')

/-! ## What a step does -/

/-- Whether the innermost code is some that may log: the application, or the formatting of a record. -/
def mayLog : List Frame → Bool
  | [] | .log false :: _ => true
  | _ => false

/-- Whether the innermost code is some that may raise a panic. -/
def mayRaise : List Frame → Bool
  | [] | .log _ :: _ | .inner _ :: _ => true
  | _ => false

inductive Moves (c : ThreadId) (σ : LogGlobals) : Thread → Thread → LogGlobals → Prop
  | log {rest} : mayLog rest = true → Moves c σ ⟨rest, false⟩ ⟨.log false :: rest, false⟩ σ
  | skip {rest} : Moves c σ ⟨.log false :: rest, false⟩ ⟨rest, false⟩ σ
  | lock {rest} : σ.outputLock = none →
      Moves c σ ⟨.log false :: rest, false⟩ ⟨.log true :: rest, false⟩ { σ with outputLock := some c }
  | call {op rest} : Moves c σ ⟨.log true :: rest, false⟩ ⟨.write op .load :: .log true :: rest, false⟩ σ
  | unlock {rest u} : Moves c σ ⟨.log true :: rest, u⟩ ⟨rest, u⟩ { σ with outputLock := none }
  | latched {op rest} : σ.broken = true →
      Moves c σ ⟨.write op .load :: rest, false⟩ ⟨rest, false⟩ (σ.record c (.returned op op.result))
  | load {op rest} : σ.broken = false →
      Moves c σ ⟨.write op .load :: rest, false⟩ ⟨.write op .enter :: rest, false⟩ σ
  | enter {op rest} : Moves c σ ⟨.write op .enter :: rest, false⟩
      ⟨.inner op :: .write op .inner :: rest, false⟩ ((σ.enterLogWrite c).record c (.entered op))
  | answer {op op' how rest} : how ≠ .panicked →
      Moves c σ ⟨.inner op :: .write op' .inner :: rest, false⟩
        ⟨.write op' (.caught false) :: rest, false⟩ (σ.record c (.left op how))
  | store {op panicked rest} : Moves c σ ⟨.write op (.caught panicked) :: rest, false⟩
      ⟨.write op (.leave op.result) :: rest, false⟩ (if panicked then { σ with broken := true } else σ)
  | leave {op result rest} : Moves c σ ⟨.write op (.leave result) :: rest, false⟩ ⟨rest, false⟩
      ((σ.dropLogWrite c).record c (.returned op result))
  | raise {stack} : mayRaise stack = true → stack.any Frame.isHook = false →
      Moves c σ ⟨stack, false⟩ ⟨.hook .inLogWrite :: stack, false⟩ σ
  | abort {stack} : mayRaise stack = true → stack.any Frame.isHook = true →
      Moves c σ ⟨stack, false⟩ ⟨stack, false⟩ { σ with aborted := true }
  | silent {pos rest} : pos ≠ .prevHook →
      Moves c σ ⟨.hook pos :: rest, false⟩ ⟨.hook .prevHook :: rest, false⟩ σ
  | unmarked {rest} : σ.inLogWrite c = false →
      Moves c σ ⟨.hook .inLogWrite :: rest, false⟩ ⟨.hook .broken :: rest, false⟩ σ
  | report {rest} : Moves c σ ⟨.hook .broken :: rest, false⟩ ⟨.log false :: .hook .prevHook :: rest, false⟩ σ
  | unwinds {rest} : Moves c σ ⟨.hook .prevHook :: rest, false⟩ ⟨rest, true⟩ σ
  | recover {stack} : mayRaise stack = true → Moves c σ ⟨stack, true⟩ ⟨stack, false⟩ σ
  | through {f rest} : f = .log false ∨ (∃ op, f = .inner op) → Moves c σ ⟨f :: rest, true⟩ ⟨rest, true⟩ σ
  | caught {op rest} : Moves c σ ⟨.write op .inner :: rest, true⟩
      ⟨.write op (.caught true) :: rest, false⟩ (σ.record c (.left op .panicked))
  | escape {op pos rest} : pos ≠ .inner → Moves c σ ⟨.write op pos :: rest, true⟩ ⟨rest, true⟩
      ((if pos.guarded then σ.dropLogWrite c else σ).record c (.unwound op))
  | escapeHook {pos rest} : Moves c σ ⟨.hook pos :: rest, true⟩ ⟨rest, true⟩ { σ with aborted := true }

variable {c : ThreadId} {t t' : Thread} {ch : Choice} {σ σ' : LogGlobals}

theorem Moves.raised {stack : List Frame} (hraise : mayRaise stack = true)
    (h : Thread.raise ⟨stack, false⟩ σ = (t', σ')) : Moves c σ ⟨stack, false⟩ t' σ' := by
  unfold Thread.raise at h
  split at h <;> obtain ⟨rfl, rfl⟩ := Prod.mk.inj h
  · exact .abort hraise ‹_›
  · exact .raise hraise (Bool.eq_false_iff.mpr ‹_›)

theorem moves_of_panicHook {pos : HookAt} {rest : List Frame} (h : panicHook c pos rest σ = (t', σ')) :
    Moves c σ ⟨.hook pos :: rest, false⟩ t' σ' := by
  cases pos <;> simp only [panicHook] at h
  case inLogWrite =>
    split at h <;> obtain ⟨rfl, rfl⟩ := Prod.mk.inj h
    · exact .silent nofun
    · exact .unmarked (Bool.eq_false_iff.mpr ‹_›)
  case broken =>
    split at h <;> obtain ⟨rfl, rfl⟩ := Prod.mk.inj h
    · exact .silent nofun
    · exact .report
  case prevHook =>
    obtain ⟨rfl, rfl⟩ := Prod.mk.inj h
    exact .unwinds

theorem moves_of_logWriteFlagged {op : Op} {pos : WriteAt} {rest : List Frame}
    (h : logWriteFlagged c op pos rest σ = some (t', σ')) : Moves c σ ⟨.write op pos :: rest, false⟩ t' σ' := by
  cases pos <;> simp only [logWriteFlagged] at h
  case load =>
    split at h <;> cases h
    · exact .latched ‹_›
    · exact .load (Bool.eq_false_iff.mpr ‹_›)
  case enter =>
    cases h
    exact .enter
  case inner => cases h
  case caught panicked =>
    cases h
    exact .store
  case leave result =>
    cases h
    exact .leave

theorem moves_of_unwind {stack : List Frame} (h : unwind c ch stack σ = (t', σ')) :
    Moves c σ ⟨stack, true⟩ t' σ' := by
  unfold unwind at h
  split at h <;> obtain ⟨rfl, rfl⟩ := Prod.mk.inj h
  · exact .recover rfl
  · exact .recover rfl
  · exact .through (Or.inl rfl)
  · exact .unlock
  · exact .recover rfl
  · exact .through (Or.inr ⟨_, rfl⟩)
  · exact .caught
  · rename_i hpos
    exact .escape hpos
  · exact .escapeHook

theorem moves_of_answer {how : Ending} {stack : List Frame} (h : answer c how stack σ = some (t', σ'))
    (hhow : how ≠ .panicked) : Moves c σ ⟨stack, false⟩ t' σ' := by
  unfold answer at h
  split at h <;> cases h
  exact .answer hhow

/-- Every step is one of these. -/
theorem moves_of_next (h : t.next c ch σ = some (t', σ')) : Moves c σ t t' σ' := by
  obtain ⟨stack, unwinding⟩ := t
  unfold Thread.next at h
  split at h
  · cases h
  split at h
  · rename_i hunwinding
    obtain rfl : unwinding = true := hunwinding
    exact moves_of_unwind (Option.some.inj h)
  rename_i hrunning
  obtain rfl : unwinding = false := Bool.eq_false_iff.mpr hrunning
  dsimp only at h
  split at h
  · cases h
    exact .log rfl
  · exact .raised rfl (Option.some.inj h)
  · cases h
    exact .log rfl
  · split at h <;> cases h
    exact .lock ‹_›
  · cases h
    exact .skip
  · cases h
    exact .call
  · cases h
    exact .unlock
  · exact .raised rfl (Option.some.inj h)
  · exact moves_of_answer h nofun
  · exact moves_of_answer h nofun
  · exact .raised rfl (Option.some.inj h)
  · exact moves_of_logWriteFlagged h
  · exact moves_of_panicHook (Option.some.inj h)
  · cases h

end CwTariWallet.LogWriter
