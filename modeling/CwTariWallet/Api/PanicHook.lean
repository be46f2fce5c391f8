/-
# CwTariWallet.Api.PanicHook -- the log file writer never re-enters or unwinds

Three things hold together.  A thread's `IN_LOG_WRITE` is true exactly while a guarded call of the writer is
on its stack, so the hook that a panic in there runs does not log.  The output lock lets one thread write at
a time.  And from the panic that leaves the inner writer to the store of `LOG_WRITER_BROKEN` that thread
keeps the lock, so nobody has passed the check in between.
-/
import CwTariWallet.Api.LogWriter
import Mathlib.Data.List.Count

namespace CwTariWallet.LogWriter

open Interleaving

variable {c d : ThreadId} {t t' : Thread} {σ σ' : LogGlobals} {stack rest : List Frame}

/-! ## Stacks -/

namespace Frame

/-- A call of the writer with its guard up. -/
def guarded : Frame → Bool
  | .write _ pos => pos.guarded
  | _ => false

/-- The logger with the output lock. -/
def locked : Frame → Bool
  | .log locked => locked
  | _ => false

def isWrite : Frame → Bool
  | .write _ _ => true
  | _ => false

def isInner : Frame → Bool
  | .inner _ => true
  | _ => false

/-- What lies below a call. -/
def Above (rest : List Frame) : Frame → Prop
  | .log locked => (mayLog rest = true ∨ ∃ below, rest = .hook .prevHook :: below) ∧
      rest.any guarded = false ∧ (locked = true → rest.any Frame.locked = false)
  | .write _ _ => ∃ below, rest = .log true :: below
  | .inner op => ∃ below, rest = .write op .inner :: below
  | .hook pos => mayRaise rest = true ∧ rest.any isHook = false ∧ (pos = .broken → rest.any guarded = false)

end Frame

/-- Every call lies on one that makes such calls. -/
def Stacked : List Frame → Prop
  | [] => True
  | f :: rest => f.Above rest ∧ Stacked rest

/-- The writer is called with the output lock. -/
theorem Stacked.locked_of_write (h : Stacked stack) (hwrite : stack.any Frame.isWrite = true) :
    stack.any Frame.locked = true := by
  induction stack with
  | nil => cases hwrite
  | cons f rest ih =>
    obtain ⟨habove, hrest⟩ := h
    rw [List.any_cons, Bool.or_eq_true] at hwrite ⊢
    rcases hwrite with hf | hwrite
    · cases f with
      | write op pos =>
        obtain ⟨below, rfl⟩ := habove
        exact Or.inr rfl
      | _ => cases hf
    · exact Or.inr (ih hrest hwrite)

/-- No second call of the writer is below one. -/
theorem Stacked.write_below {op : Op} {pos : WriteAt} (h : Stacked (.write op pos :: rest)) :
    rest.any Frame.isWrite = false := by
  obtain ⟨⟨below, rfl⟩, ⟨-, -, hlocked⟩, hbelow⟩ := h
  rw [Bool.eq_false_iff]
  intro hwrite
  have hheld := hbelow.locked_of_write hwrite
  rw [hlocked rfl] at hheld
  cases hheld

/-- The inner writer is called by the writer. -/
theorem Stacked.write_of_inner (h : Stacked stack) (hinner : stack.any Frame.isInner = true) :
    stack.any Frame.isWrite = true := by
  induction stack with
  | nil => cases hinner
  | cons f rest ih =>
    obtain ⟨habove, hrest⟩ := h
    rw [List.any_cons, Bool.or_eq_true] at hinner ⊢
    rcases hinner with hf | hinner
    · cases f with
      | inner op =>
        obtain ⟨below, rfl⟩ := habove
        exact Or.inr rfl
      | _ => cases hf
    · exact Or.inr (ih hrest hinner)

/-- At most one inner call is on a stack. -/
theorem Stacked.count_inner (h : Stacked stack) : stack.countP Frame.isInner ≤ 1 := by
  induction stack with
  | nil => exact Nat.zero_le _
  | cons f rest ih =>
    obtain ⟨habove, hrest⟩ := h
    cases f with
    | inner op =>
      obtain ⟨below, rfl⟩ := habove
      have hnone : below.countP Frame.isInner = 0 := by
        rw [List.countP_eq_zero]
        intro f hf hinner
        have hwrite := hrest.2.write_of_inner (List.any_eq_true.mpr ⟨f, hf, hinner⟩)
        rw [hrest.write_below] at hwrite
        cases hwrite
      have hone : (Frame.inner op :: Frame.write op .inner :: below).countP Frame.isInner = 1 := by
        rw [List.countP_cons_of_pos rfl, List.countP_cons_of_neg Bool.false_ne_true, hnone]
      exact Nat.le_of_eq hone
    | _ => simpa [Frame.isInner] using ih hrest

/-- The logger is never above a call of the writer: what is there is the inner writer, with the guard up, and
the hook, which has seen it. -/
theorem Stacked.above_write {above below : List Frame} {op : Op} {pos : WriteAt}
    (h : Stacked (above ++ .write op pos :: below)) : ∀ b, .log b ∉ above := by
  induction above with
  | nil => exact fun _ => List.not_mem_nil
  | cons f above ih =>
    obtain ⟨habove, hrest⟩ := h
    have hnone := ih hrest
    intro b hb
    rcases List.mem_cons.mp hb with rfl | hb
    · obtain ⟨hmay, hguarded, -⟩ := habove
      cases above with
      | nil => rcases hmay with hmay | ⟨_, hmay⟩ <;> cases hmay
      | cons g above =>
        rcases hmay with hmay | ⟨below', hmay⟩
        · cases g with
          | log b' => exact hnone b' List.mem_cons_self
          | _ => cases hmay
        · obtain ⟨rfl, -⟩ := List.cons.inj hmay
          obtain ⟨⟨hraise, -⟩, hrest⟩ := hrest
          cases above with
          | nil => cases hraise
          | cons k above =>
            cases k with
            | log b' => exact hnone b' (List.mem_cons_of_mem _ List.mem_cons_self)
            | inner op' =>
              obtain ⟨⟨_, heq⟩, -⟩ := hrest
              have hunguarded : (above ++ .write op pos :: below).any Frame.guarded = false := hguarded
              rw [show above ++ .write op pos :: below = _ from heq] at hunguarded
              cases hunguarded
            | _ => cases hraise
    · exact hnone b hb

/-! ## One thread -/

/-- A call of the writer that has found the latch open and has not left the inner writer with a panic. -/
def Frame.clean : Frame → Bool
  | .write _ pos => pos = .enter ∨ pos = .inner ∨ pos = .caught false
  | _ => false

/-- The inner writer has panicked. -/
def LogGlobals.Panicked (σ : LogGlobals) : Prop := ∃ d op, (d, .left op .panicked) ∈ σ.trace

/-- What holds of a thread, wherever it is. -/
structure Thread.Sound (c : ThreadId) (t : Thread) (σ : LogGlobals) : Prop where
  stacked : Stacked t.stack
  flag : σ.inLogWrite c = t.stack.any Frame.guarded
  lock : t.stack.any Frame.locked = true → σ.outputLock = some c
  unwinding : t.unwinding = true →
    t.stack.any Frame.isHook = false ∧ ∀ op pos rest, t.stack = .write op pos :: rest → pos = .inner
  result : ∀ op result, .write op (.leave result) ∈ t.stack → result = op.result
  clean : t.stack.any Frame.clean = true → ¬ σ.Panicked

theorem Stacked.guarded_of_mayLog (h : Stacked rest) (hmay : mayLog rest = true) :
    rest.any Frame.guarded = false := by
  unfold mayLog at hmay
  split at hmay
  · rfl
  · exact h.1.2.1
  · cases hmay

/-- Nothing of the writer is below the logger that calls it. -/
theorem Stacked.guarded_of_write {op : Op} {pos : WriteAt} (h : Stacked (.write op pos :: rest)) :
    rest.any Frame.guarded = false := by
  obtain ⟨⟨below, rfl⟩, ⟨-, hguarded, -⟩, -⟩ := h
  exact hguarded

theorem Thread.Sound.stacked_next (ht : t.Sound c σ) (h : Moves c σ t t' σ') : Stacked t'.stack := by
  have hstacked := ht.stacked
  cases h with
  | log hmay => exact ⟨⟨Or.inl hmay, hstacked.guarded_of_mayLog hmay, nofun⟩, hstacked⟩
  | lock hfree =>
    obtain ⟨⟨hmay, hguarded, -⟩, hrest⟩ := hstacked
    refine ⟨⟨hmay, hguarded, fun _ => ?_⟩, hrest⟩
    rw [Bool.eq_false_iff]
    intro hlocked
    have hheld := ht.lock (by simp [hlocked])
    rw [hfree] at hheld
    cases hheld
  | call => exact ⟨⟨_, rfl⟩, hstacked⟩
  | load | store => exact ⟨hstacked.1, hstacked.2⟩
  | enter => exact ⟨⟨_, rfl⟩, hstacked⟩
  | answer => exact ⟨hstacked.2.1, hstacked.2.2⟩
  | raise hmay hnone => exact ⟨⟨hmay, hnone, nofun⟩, hstacked⟩
  | silent => exact ⟨⟨hstacked.1.1, hstacked.1.2.1, nofun⟩, hstacked.2⟩
  | unmarked hfalse =>
    have hflag := ht.flag
    rw [hfalse] at hflag
    exact ⟨⟨hstacked.1.1, hstacked.1.2.1, fun _ => hflag.symm⟩, hstacked.2⟩
  | report =>
    obtain ⟨⟨hmay, hnone, hguarded⟩, hrest⟩ := hstacked
    exact ⟨⟨Or.inr ⟨_, rfl⟩, hguarded rfl, nofun⟩, ⟨hmay, hnone, nofun⟩, hrest⟩
  | caught => exact ⟨hstacked.1, hstacked.2⟩
  | skip | unlock | latched | leave | unwinds | through | escape | escapeHook => exact hstacked.2
  | abort | recover => exact hstacked

theorem Thread.Sound.flag_next (ht : t.Sound c σ) (h : Moves c σ t t' σ') :
    σ'.inLogWrite c = t'.stack.any Frame.guarded := by
  have hflag := ht.flag
  cases h with
  | enter => exact Function.update_self _ _ _
  | leave =>
    rw [ht.stacked.guarded_of_write]
    exact Function.update_self _ _ _
  | @store op panicked rest =>
    cases panicked <;> exact hflag
  | escape hpos => exact absurd ((ht.unwinding rfl).2 _ _ _ rfl) hpos
  | through hf => rcases hf with rfl | ⟨op, rfl⟩ <;> exact hflag
  | _ => exact hflag

theorem Thread.Sound.lock_next (ht : t.Sound c σ) (h : Moves c σ t t' σ')
    (hlocked : t'.stack.any Frame.locked = true) :
    σ'.outputLock = some c := by
  have hlock := ht.lock
  cases h with
  | lock => rfl
  | unlock =>
    rw [ht.stacked.1.2.2 rfl] at hlocked
    cases hlocked
  | @store op panicked rest => cases panicked <;> exact hlock hlocked
  | escape hpos => exact absurd ((ht.unwinding rfl).2 _ _ _ rfl) hpos
  | through hf => rcases hf with rfl | ⟨op, rfl⟩ <;> exact hlock hlocked
  | _ => exact hlock hlocked

/-- Below the logger there is no call of the writer. -/
theorem Frame.Above.not_write {b : Bool} (h : Frame.Above rest (.log b)) {op : Op} {pos : WriteAt}
    {below : List Frame} : rest ≠ .write op pos :: below := by
  rintro rfl
  obtain ⟨hmay | ⟨_, hmay⟩, -⟩ := h <;> cases hmay

theorem Thread.Sound.unwinding_next (ht : t.Sound c σ) (h : Moves c σ t t' σ')
    (hunwinding : t'.unwinding = true) :
    t'.stack.any Frame.isHook = false ∧ ∀ op pos rest, t'.stack = .write op pos :: rest → pos = .inner := by
  have hstacked := ht.stacked
  cases h with
  | unlock =>
    exact ⟨(ht.unwinding hunwinding).1, fun op pos below heq => absurd heq hstacked.1.not_write⟩
  | unwinds =>
    obtain ⟨⟨hmay, hnone, -⟩, -⟩ := hstacked
    refine ⟨hnone, ?_⟩
    rintro op pos below rfl
    cases hmay
  | through hf =>
    have hnone := (ht.unwinding rfl).1
    rcases hf with rfl | ⟨op, rfl⟩
    · exact ⟨hnone, fun op pos below heq => absurd heq hstacked.1.not_write⟩
    · obtain ⟨⟨below, rfl⟩, -⟩ := hstacked
      refine ⟨hnone, ?_⟩
      intro op' pos below' heq
      cases heq
      rfl
  | escape hpos => exact absurd ((ht.unwinding rfl).2 _ _ _ rfl) hpos
  | escapeHook => cases (ht.unwinding rfl).1
  | _ => cases hunwinding

theorem Thread.Sound.result_next (ht : t.Sound c σ) (h : Moves c σ t t' σ') {op : Op}
    {result : Except IoError Done} (hleave : .write op (.leave result) ∈ t'.stack) : result = op.result := by
  have hresult := ht.result op result
  cases h with
  | store =>
    rcases List.mem_cons.mp hleave with heq | hrest
    · cases heq
      rfl
    · exact hresult (List.mem_cons_of_mem _ hrest)
  | skip | unlock | latched | leave | unwinds | through | escape | escapeHook =>
    exact hresult (List.mem_cons_of_mem _ hleave)
  | abort | recover => exact hresult hleave
  | log | call | raise =>
    rcases List.mem_cons.mp hleave with heq | hrest
    · cases heq
    · exact hresult hrest
  | lock | load | silent | unmarked | caught =>
    rcases List.mem_cons.mp hleave with heq | hrest
    · cases heq
    · exact hresult (List.mem_cons_of_mem _ hrest)
  | enter | report =>
    simp only [List.mem_cons, reduceCtorEq, Frame.write.injEq, and_false, false_or] at hleave
    exact hresult (List.mem_cons_of_mem _ hleave)
  | answer =>
    rcases List.mem_cons.mp hleave with heq | hrest
    · cases heq
    · exact hresult (List.mem_cons_of_mem _ (List.mem_cons_of_mem _ hrest))

theorem Frame.isWrite_of_clean {f : Frame} (h : f.clean = true) : f.isWrite = true := by
  cases f <;> first | rfl | cases h

/-- No call of the writer that found the latch open is below another call of the writer. -/
theorem Stacked.clean_below {op : Op} {pos : WriteAt} (h : Stacked (.write op pos :: rest)) :
    rest.any Frame.clean = false := by
  rw [List.any_eq_false]
  intro f hf hclean
  exact List.any_eq_false.mp h.write_below f hf (Frame.isWrite_of_clean hclean)

theorem LogGlobals.Panicked.of_record {e : WriteEvent} (h : (σ.record c e).Panicked)
    (he : ∀ op, e ≠ .left op .panicked) : σ.Panicked := by
  obtain ⟨d, op, hmem⟩ := h
  rcases List.mem_cons.mp hmem with heq | hmem
  · exact absurd (Prod.mk.inj heq).2.symm (he op)
  · exact ⟨d, op, hmem⟩

/-- The check of the latch is what keeps a call clean. -/
theorem Thread.Sound.clean_next (ht : t.Sound c σ) (h : Moves c σ t t' σ')
    (hopen : ∀ op rest, t.stack = .write op .load :: rest → σ.broken = false → ¬ σ.Panicked)
    (hclean : t'.stack.any Frame.clean = true) : ¬ σ'.Panicked := by
  have hnever := ht.clean
  cases h with
  | load hbroken => exact hopen _ _ rfl hbroken
  | enter => exact fun hp => hnever rfl (hp.of_record nofun)
  | answer hhow =>
    exact fun hp => hnever rfl (hp.of_record fun op heq => hhow (WriteEvent.left.inj heq).2)
  | latched | leave => exact fun hp => hnever (by simp [hclean]) (hp.of_record nofun)
  | store =>
    rw [List.any_cons, ht.stacked.clean_below] at hclean
    cases hclean
  | caught =>
    rw [List.any_cons, ht.stacked.clean_below] at hclean
    cases hclean
  | escape hpos => exact absurd ((ht.unwinding rfl).2 _ _ _ rfl) hpos
  | skip | unlock | unwinds | through | escapeHook => exact hnever (by simp [hclean])
  | _ => exact hnever hclean

/-- What a step leaves of the state of the other threads. -/
structure Others (c : ThreadId) (t : Thread) (σ σ' : LogGlobals) : Prop where
  flag : ∀ d, d ≠ c → σ'.inLogWrite d = σ.inLogWrite d
  lock : ∀ d, d ≠ c → σ.outputLock = some d → σ'.outputLock = some d
  panicked : σ'.Panicked → σ.Panicked ∨ t.stack.any Frame.locked = true
  broken : σ.broken = true → σ'.broken = true

namespace Others

theorem refl : Others c t σ σ := ⟨fun _ _ => rfl, fun _ _ h => h, Or.inl, fun h => h⟩

theorem record (h : Others c t σ σ') {e : WriteEvent} (he : ∀ op, e ≠ .left op .panicked) :
    Others c t σ (σ'.record c e) :=
  { h with panicked := fun hp => h.panicked (hp.of_record he) }

theorem flagged (h : Others c t σ σ') (b : Bool) :
    Others c t σ { σ' with inLogWrite := Function.update σ'.inLogWrite c b } :=
  { h with flag := fun d hne => by rw [← h.flag d hne]; exact Function.update_of_ne hne _ _ }

end Others

theorem Moves.others (h : Moves c σ t t' σ') (ht : t.Sound c σ) : Others c t σ σ' := by
  cases h with
  | lock hfree =>
    refine { Others.refl with lock := fun d _ hd => ?_ }
    rw [hfree] at hd
    cases hd
  | unlock =>
    refine { Others.refl with lock := fun d hne hd => ?_ }
    have hown := ht.lock rfl
    rw [hown] at hd
    exact absurd (Option.some.inj hd).symm hne
  | enter => exact (Others.refl.flagged true).record nofun
  | latched => exact Others.refl.record nofun
  | answer hhow => exact Others.refl.record fun op heq => hhow (WriteEvent.left.inj heq).2
  | @store op panicked rest =>
    cases panicked with
    | false => exact .refl
    | true => exact { Others.refl with broken := fun _ => rfl }
  | leave => exact (Others.refl.flagged false).record nofun
  | caught =>
    exact ⟨fun _ _ => rfl, fun _ _ hd => hd, fun _ => Or.inr (ht.stacked.locked_of_write rfl), fun hb => hb⟩
  | abort | escapeHook => exact ⟨fun _ _ => rfl, fun _ _ hd => hd, Or.inl, fun hb => hb⟩
  | escape hpos => exact absurd ((ht.unwinding rfl).2 _ _ _ rfl) hpos
  | _ => exact .refl

/-- Two threads do not hold the lock at once. -/
theorem Thread.Sound.alone {u : Thread} (ht : t.Sound c σ) (hu : u.Sound d σ)
    (hlocked : t.stack.any Frame.locked = true) (hlocked' : u.stack.any Frame.locked = true) : c = d :=
  Option.some.inj ((ht.lock hlocked).symm.trans (hu.lock hlocked'))

/-- A step of one thread leaves the others sound. -/
theorem Thread.Sound.other {u : Thread} (hu : u.Sound d σ) (ht : t.Sound c σ) (h : Moves c σ t t' σ')
    (hne : d ≠ c) : u.Sound d σ' := by
  obtain ⟨hflag, hlock, hpanicked, -⟩ := h.others ht
  refine { hu with flag := ?_, lock := ?_, clean := ?_ }
  · rw [hflag d hne]
    exact hu.flag
  · exact fun hlocked => hlock d hne (hu.lock hlocked)
  · intro hclean hp
    rcases hpanicked hp with hp | hlocked
    · exact hu.clean hclean hp
    · obtain ⟨f, hf, hfclean⟩ := List.any_eq_true.mp hclean
      have hwrite := List.any_eq_true.mpr ⟨f, hf, Frame.isWrite_of_clean hfclean⟩
      exact hne (ht.alone hu hlocked (hu.stacked.locked_of_write hwrite)).symm

/-! ## All threads -/

/-- What the history says: calls return what they should, and nothing enters the inner writer after its
first panic. -/
structure TraceSound (trace : List (ThreadId × WriteEvent)) : Prop where
  returned : ∀ c op result, (c, .returned op result) ∈ trace → result = op.result
  unwound : ∀ c op, (c, .unwound op) ∉ trace
  latched : trace.Pairwise fun later earlier =>
    ∀ op op', earlier.2 = .left op .panicked → later.2 ≠ .entered op'

/-- Between the panic of the inner writer and the store of the latch, the thread is still in its call. -/
def Owed (s : Config LogGlobals Thread) : Prop :=
  ∃ c op rest, s.calls c = some ⟨.write op (.caught true) :: rest, false⟩

structure Sound (s : Config LogGlobals Thread) : Prop where
  threads : ∀ c t, s.calls c = some t → t.Sound c s.shared
  free : ∀ c, s.calls c = none → s.shared.inLogWrite c = false
  trace : TraceSound s.shared.trace
  latch : s.shared.Panicked → s.shared.broken = true ∨ Owed s

theorem TraceSound.record (h : TraceSound σ.trace) {e : WriteEvent}
    (hreturned : ∀ op result, e = .returned op result → result = op.result) (hunwound : ∀ op, e ≠ .unwound op)
    (hentered : ∀ op, e = .entered op → ¬ σ.Panicked) : TraceSound (σ.record c e).trace where
  returned d op result hmem := by
    rcases List.mem_cons.mp hmem with heq | hmem
    · exact hreturned op result (Prod.mk.inj heq).2.symm
    · exact h.returned d op result hmem
  unwound d op hmem := by
    rcases List.mem_cons.mp hmem with heq | hmem
    · exact hunwound op (Prod.mk.inj heq).2.symm
    · exact h.unwound d op hmem
  latched := by
    refine List.pairwise_cons.mpr ⟨?_, h.latched⟩
    rintro ⟨d, earlier⟩ hmem op op' rfl heq
    exact hentered op' heq ⟨d, op, hmem⟩

theorem TraceSound.next (htrace : TraceSound σ.trace) (ht : t.Sound c σ) (h : Moves c σ t t' σ') :
    TraceSound σ'.trace := by
  cases h with
  | latched =>
    refine TraceSound.record htrace ?_ nofun nofun
    intro op result heq
    cases heq
    rfl
  | leave =>
    refine TraceSound.record (σ := σ.dropLogWrite c) htrace ?_ nofun nofun
    intro op result heq
    cases heq
    exact ht.result _ _ List.mem_cons_self
  | enter =>
    exact TraceSound.record (σ := σ.enterLogWrite c) htrace nofun nofun fun _ _ => ht.clean rfl
  | answer | caught => exact TraceSound.record htrace nofun nofun nofun
  | @store op panicked rest => cases panicked <;> exact htrace
  | escape hpos => exact absurd ((ht.unwinding rfl).2 _ _ _ rfl) hpos
  | _ => exact htrace

/-- Whoever has found the latch open is alone with the lock, so no panic is still to be latched. -/
theorem Sound.open_of_load {s : Config LogGlobals Thread} (hs : Sound s) (hc : s.calls c = some t)
    {op : Op} (hload : t.stack = .write op .load :: rest) (hopen : s.shared.broken = false) :
    ¬ s.shared.Panicked := by
  intro hp
  rcases hs.latch hp with hbroken | ⟨d, op', below, hd⟩
  · rw [hopen] at hbroken
    cases hbroken
  · have ht := hs.threads c t hc
    have hu := hs.threads d _ hd
    have hlocked : t.stack.any Frame.locked = true := ht.stacked.locked_of_write (by rw [hload]; rfl)
    obtain rfl := ht.alone hu hlocked (hu.stacked.locked_of_write rfl)
    rw [hc, Option.some.injEq] at hd
    rw [hd] at hload
    cases hload

/-- The panic of the inner writer stays owed until the thread stores the latch. -/
theorem Sound.latch_next {s : Config LogGlobals Thread} (hs : Sound s) (hc : s.calls c = some t)
    (h : Moves c s.shared t t' σ') (hp : σ'.Panicked) : σ'.broken = true ∨ Owed (s.put c t' σ') := by
  have keep (hbefore : s.shared.Panicked) (hnot : ∀ op rest, t ≠ ⟨.write op (.caught true) :: rest, false⟩) :
      σ'.broken = true ∨ Owed (s.put c t' σ') := by
    rcases hs.latch hbefore with hbroken | ⟨d, op, rest, hd⟩
    · exact Or.inl ((h.others (hs.threads c t hc)).broken hbroken)
    · have hne : d ≠ c := by
        rintro rfl
        rw [hc, Option.some.injEq] at hd
        exact hnot _ _ hd
      exact Or.inr ⟨d, op, rest, by rw [Config.put_calls_ne _ _ _ hne]; exact hd⟩
  cases h with
  | caught => exact Or.inr ⟨c, _, _, Config.put_calls_self _ _ _ _⟩
  | @store op panicked rest =>
    cases panicked with
    | true => exact Or.inl rfl
    | false => exact keep hp nofun
  | enter | latched | leave => exact keep (hp.of_record nofun) nofun
  | answer hhow =>
    exact keep (hp.of_record fun op heq => hhow (WriteEvent.left.inj heq).2) nofun
  | escape hpos => exact absurd (((hs.threads c _ hc).unwinding rfl).2 _ _ _ rfl) hpos
  | log hmay =>
    refine keep hp ?_
    rintro op below ⟨rfl, -⟩
    cases hmay
  | raise hmay | abort hmay =>
    refine keep hp ?_
    rintro op below ⟨rfl, -⟩
    cases hmay
  | _ => exact keep hp nofun

theorem Sound.put {s : Config LogGlobals Thread} (hs : Sound s) (hc : s.calls c = some t)
    (h : Moves c s.shared t t' σ') : Sound (s.put c t' σ') := by
  have ht := hs.threads c t hc
  have hopen : ∀ op rest, t.stack = .write op .load :: rest → s.shared.broken = false → ¬ s.shared.Panicked :=
    fun op rest hload => hs.open_of_load hc hload
  constructor
  · intro d u hd
    rcases Config.put_calls_eq_some hd with ⟨rfl, rfl⟩ | ⟨hne, hd⟩
    · exact ⟨ht.stacked_next h, ht.flag_next h, ht.lock_next h, ht.unwinding_next h,
        fun _ _ => ht.result_next h, ht.clean_next h hopen⟩
    · exact (hs.threads d u hd).other ht h hne
  · intro d hd
    have hne : d ≠ c := by
      rintro rfl
      rw [Config.put_calls_self] at hd
      cases hd
    rw [Config.put_calls_ne _ _ _ hne] at hd
    exact ((h.others ht).flag d hne).trans (hs.free d hd)
  · exact hs.trace.next ht h
  · exact hs.latch_next hc h

theorem sound_of_reach {ok : Guard LogGlobals Thread} {s : Config LogGlobals Thread}
    (h : logWrites.Reach ok s) : Sound s := by
  refine h.invariant (I := Sound) ?_ ?_ ?_
  · rintro σ ⟨-, hflag, -, htrace⟩
    refine ⟨nofun, fun c _ => hflag c, ?_, ?_⟩
    · rw [Config.shared, htrace]
      exact ⟨nofun, nofun, List.Pairwise.nil⟩
    · rintro ⟨d, op, hmem⟩
      rw [Config.shared, htrace] at hmem
      cases hmem
  · rintro s c t _ ih _ hfree rfl
    refine ⟨?_, ?_, ih.trace, ?_⟩
    · intro d u hd
      rcases Config.put_calls_eq_some hd with ⟨rfl, rfl⟩ | ⟨-, hd⟩
      · exact ⟨trivial, ih.free d hfree, nofun, nofun, nofun, nofun⟩
      · exact ih.threads d u hd
    · intro d hd
      have hne : d ≠ c := by
        rintro rfl
        rw [Config.put_calls_self] at hd
        cases hd
      rw [Config.put_calls_ne _ _ _ hne] at hd
      exact ih.free d hd
    · intro hp
      rcases ih.latch hp with hbroken | ⟨d, op, rest, hd⟩
      · exact Or.inl hbroken
      · exact Or.inr ⟨d, op, rest, Config.put_calls_of_free hfree hd⟩
  · rintro s c t t' σ' _ ih _ hc ⟨ch, hnext⟩
    exact ih.put hc (moves_of_next hnext)

/-! ## A call by itself -/

/-- A thread on its own: its next steps, with what the code that is not modelled does in each. -/
def Thread.run (c : ThreadId) : List Choice → Thread × LogGlobals → Option (Thread × LogGlobals)
  | [], p => some p
  | ch :: rest, p => (p.1.next c ch p.2).bind (Thread.run c rest)

/-- Only thread `c` takes steps. -/
def only (c : ThreadId) : Guard LogGlobals Thread
  | .start _ _, _ => False
  | .step d, _ => d = c

theorem steps_of_run {choices : List Choice} {s : Config LogGlobals Thread} (hc : s.calls c = some t)
    (hrun : Thread.run c choices (t, s.shared) = some (t', σ')) :
    ∃ s', logWrites.Steps (only c) s s' ∧ s'.calls c = some t' ∧ s'.shared = σ' := by
  induction choices generalizing s t with
  | nil =>
    obtain ⟨rfl, rfl⟩ := Prod.mk.inj (Option.some.inj hrun)
    exact ⟨s, .refl, hc, rfl⟩
  | cons ch rest ih =>
    obtain ⟨⟨u, τ⟩, hnext, hrun⟩ := Option.bind_eq_some_iff.mp hrun
    obtain ⟨s', hsteps, hc', hσ'⟩ := ih (s := s.put c u τ) (Config.put_calls_self _ _ _ _) hrun
    have hfirst : logWrites.Steps (only c) s (s.put c u τ) :=
      .move (e := .step c) .refl rfl (.step hc ⟨ch, hnext⟩)
    exact ⟨s', hfirst.trans hsteps, hc', hσ'⟩

theorem run_of_broken {op : Op} (halive : σ.aborted = false) (hbroken : σ.broken = true) :
    Thread.run c [.done] (⟨.write op .load :: rest, false⟩, σ) =
      some (⟨rest, false⟩, σ.record c (.returned op op.result)) := by
  simp [Thread.run, Thread.next, logWriteFlagged, halive, hbroken]

/-- The state a call leaves that has found the latch open. -/
def LogGlobals.written (σ : LogGlobals) (c : ThreadId) (op : Op) (how : Ending) : LogGlobals :=
  let σ := ((σ.enterLogWrite c).record c (.entered op)).record c (.left op how)
  ((if how = .panicked then { σ with broken := true } else σ).dropLogWrite c).record c (.returned op op.result)

/-- What the inner writer does to end so, and the steps of the call around it. -/
def Ending.choices : Ending → List Choice
  | .ok => [.done, .done, .done, .done, .done]
  | .error e => [.done, .done, .fail e, .done, .done]
  | .panicked => [.done, .done, .panic, .done, .done, .done, .done, .done, .done]

theorem run_of_open {op : Op} (how : Ending) (halive : σ.aborted = false) (hbroken : σ.broken = false)
    (hhow : how = .panicked → rest.any Frame.isHook = false) :
    Thread.run c how.choices (⟨.write op .load :: rest, false⟩, σ) =
      some (⟨rest, false⟩, σ.written c op how) := by
  cases how with
  | ok =>
    simp [Ending.choices, LogGlobals.written, Thread.run, Thread.next, logWriteFlagged, answer, halive, hbroken,
      LogGlobals.enterLogWrite, LogGlobals.dropLogWrite, LogGlobals.record]
  | error e =>
    simp [Ending.choices, LogGlobals.written, Thread.run, Thread.next, logWriteFlagged, answer, halive, hbroken,
      LogGlobals.enterLogWrite, LogGlobals.dropLogWrite, LogGlobals.record]
  | panicked =>
    -- the hook runs above the inner writer, sees the mark, and the panic unwinds up to `catch_unwind`
    have hraise (τ : LogGlobals) : Thread.raise ⟨.inner op :: .write op .inner :: rest, false⟩ τ =
        (⟨.hook .inLogWrite :: .inner op :: .write op .inner :: rest, false⟩, τ) := by
      have hnone : (.inner op :: .write op .inner :: rest : List Frame).any Frame.isHook = false := hhow rfl
      simp only [Thread.raise, hnone, Bool.false_eq_true, if_false]
    simp [Ending.choices, LogGlobals.written, Thread.run, Thread.next, logWriteFlagged, halive, hbroken,
      LogGlobals.enterLogWrite, LogGlobals.dropLogWrite, LogGlobals.record, hraise, panicHook, unwind]

/-! ## The writer and the hook are safe -/

/-- What a call of the writer returns: `Ok`, of a write with the full length. -/
def Op.full : Op → Done
  | .write buf => .written buf.length
  | .flush => .flushed

theorem Op.result_eq (op : Op) : op.result = .ok op.full := by
  cases op <;> rfl

/-- The call that thread `c` has just begun returns `Ok`, however the inner writer ends, and without any
step of another thread. -/
def Returns (c : ThreadId) (op : Op) (rest : List Frame) (how : Ending) (s : Config LogGlobals Thread) : Prop :=
  ∃ s', logWrites.Steps (only c) s s' ∧ s'.calls c = some ⟨rest, false⟩ ∧
    s'.shared.trace = (c, .returned op (.ok op.full)) ::
      ((if s.shared.broken then [] else [(c, .left op how), (c, .entered op)]) ++ s.shared.trace) ∧
    s'.shared.inLogWrite c = false

structure Safe (s : Config LogGlobals Thread) : Prop where
  /-- Every call that has returned has returned `Ok`. -/
  returned : ∀ c op result, (c, .returned op result) ∈ s.shared.trace → result = .ok op.full
  /-- No call has unwound. -/
  unwound : ∀ c op, (c, .unwound op) ∉ s.shared.trace
  /-- Every call returns; a panic of the inner writer under the hook aborts the process and is left out. -/
  returns : ∀ c op rest how, s.shared.aborted = false → s.calls c = some ⟨.write op .load :: rest, false⟩ →
    (how = .panicked → rest.any Frame.isHook = false) → Returns c op rest how s
  /-- The inner writer is not entered twice by one thread. -/
  inner : ∀ c t, s.calls c = some t → t.stack.countP Frame.isInner ≤ 1
  /-- Nothing logs from within a call of the writer, the hook neither. -/
  log : ∀ c t above op pos below, s.calls c = some t → t.stack = above ++ .write op pos :: below →
    ∀ b, .log b ∉ above
  /-- After its first panic the inner writer is not entered any more. -/
  latched : s.shared.trace.Pairwise fun later earlier =>
    ∀ op op', earlier.2 = .left op .panicked → later.2 ≠ .entered op'
  /-- `IN_LOG_WRITE` is true only in a call of the writer. -/
  flag : ∀ c, s.shared.inLogWrite c = true → ∃ t, s.calls c = some t ∧ t.stack.any Frame.isWrite = true

theorem Sound.returns {s : Config LogGlobals Thread} (hs : Sound s) {op : Op} (how : Ending)
    (halive : s.shared.aborted = false) (hc : s.calls c = some ⟨.write op .load :: rest, false⟩)
    (hhow : how = .panicked → rest.any Frame.isHook = false) : Returns c op rest how s := by
  have ht := hs.threads c _ hc
  cases hbroken : s.shared.broken with
  | true =>
    obtain ⟨s', hsteps, hc', hσ'⟩ := steps_of_run hc (run_of_broken halive hbroken)
    refine ⟨s', hsteps, hc', ?_, ?_⟩
    · rw [hσ', hbroken, ← op.result_eq]
      rfl
    · rw [hσ']
      exact ht.flag.trans ht.stacked.guarded_of_write
  | false =>
    obtain ⟨s', hsteps, hc', hσ'⟩ := steps_of_run hc (run_of_open how halive hbroken hhow)
    refine ⟨s', hsteps, hc', ?_, ?_⟩
    · rw [hσ', hbroken, ← op.result_eq]
      cases how <;> rfl
    · rw [hσ']
      exact Function.update_self _ _ _

/-- In every state that any threads reach, whatever the application and the inner writer do. -/
theorem safe_of_reach {s : Config LogGlobals Thread} (h : logWrites.Reach (fun _ _ => True) s) : Safe s := by
  have hs := sound_of_reach h
  constructor
  · intro c op result hmem
    rw [hs.trace.returned c op result hmem, op.result_eq]
  · exact hs.trace.unwound
  · exact fun c op rest how halive hc hhow => hs.returns how halive hc hhow
  · exact fun c t hc => (hs.threads c t hc).stacked.count_inner
  · intro c t above op pos below hc hstack
    have hstacked := (hs.threads c t hc).stacked
    rw [hstack] at hstacked
    exact hstacked.above_write
  · exact hs.trace.latched
  · intro c hflag
    cases hc : s.calls c with
    | none =>
      rw [hs.free c hc] at hflag
      cases hflag
    | some t =>
      refine ⟨t, rfl, ?_⟩
      rw [(hs.threads c t hc).flag] at hflag
      obtain ⟨f, hf, hguarded⟩ := List.any_eq_true.mp hflag
      refine List.any_eq_true.mpr ⟨f, hf, ?_⟩
      cases f <;> first | rfl | cases hguarded

/-- Two threads, replayed. -/
def replay : Replay LogGlobals Thread Choice where
  bound := 2
  starts t := decide (t = (⟨[], false⟩ : Thread))
  next := Thread.next
  check _ _ := true

theorem replay_sound : replay.Sound logWrites fun _ _ => True where
  starts t h := by
    have heq : t = ⟨[], false⟩ := by simpa [replay] using h
    exact heq
  next _ _ ch _ _ _ h := ⟨ch, h⟩
  check _ _ _ _ := trivial

/-- A write in which the file panics, and a flush after it; then a panic of another thread. -/
def panickingWrite : List (Act Thread Choice) :=
  [.start 0 ⟨[], false⟩, .start 1 ⟨[], false⟩] ++
    ([Choice.log, .lock, .call (.write [104, 105])] ++ Ending.panicked.choices ++
      [Choice.call .flush, .done, .done]).map (.step 0) ++
    [Choice.panic, .done, .done, .done, .done].map (.step 1)

/-- The write and the flush both return `Ok`, and the file is called once. -/
theorem safe_panickingWrite : ∃ s, logWrites.Reach (fun _ _ => True) s ∧ s.shared.trace =
    [(0, .returned .flush (.ok .flushed)), (0, .returned (.write [104, 105]) (.ok (.written 2))),
      (0, .left (.write [104, 105]) .panicked), (0, .entered (.write [104, 105]))] ∧ Safe s := by
  have hrun : ((replay.exec ⟨⟨false, fun _ => false, none, false, []⟩, fun _ => none⟩ panickingWrite).map fun s =>
      s.shared.trace) = some
    [(0, .returned .flush (.ok .flushed)), (0, .returned (.write [104, 105]) (.ok (.written 2))),
      (0, .left (.write [104, 105]) .panicked), (0, .entered (.write [104, 105]))] := by decide +kernel
  obtain ⟨s, hs, htrace⟩ := Option.map_eq_some_iff.mp hrun
  have hreach := replay_sound.reach ⟨rfl, fun _ => rfl, rfl, rfl⟩ hs
  exact ⟨s, hreach, htrace, safe_of_reach hreach⟩

end CwTariWallet.LogWriter
