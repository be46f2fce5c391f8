/-
# CwTariWallet.ThreadPool -- calls that share a few threads

Of the calls of a system some are *blocking*: each keeps a thread from its first step to its last, and there
are only so many threads.  A blocking call is made, goes to the back of a queue, is taken from its front once
a thread is free, and then runs as it would anyway (`System.pooled`).

* `begun_move` -- a queued call has done nothing, so leaving it out shows a schedule of the system itself:
  whatever holds of that one's reachable configurations holds here of the calls that have begun;
* `Accounts` -- the threads at work are the blocking calls that have begun and not ended;
* `exists_pooled_work` -- with one thread there is always work to do: were every thread kept by a call that
  waits, the waiting would be for calls that have begun, and those can go on without the queue;
* `pooled_winds_down` -- so the calls in flight come to rest here too.
-/
import CwTariWallet.Winding

namespace CwTariWallet.Interleaving

variable {Shared Local : Type}

/-- The calls that wait for a thread, the next one first, and the calls that have one. -/
structure ThreadPool where
  queue : List CallId
  working : List CallId

/-- A call of the system, and how far it has come with the threads. -/
inductive Job (Local : Type) where
  | made (l : Local)
  | queued (l : Local)
  | running (l : Local)

/-- The call once it has begun. -/
def Job.begun : Job Local → Option Local
  | .running l => some l
  | _ => none

namespace ThreadPool

def idle : ThreadPool := ⟨[], []⟩

def post (p : ThreadPool) (c : CallId) : ThreadPool := { p with queue := p.queue ++ [c] }

/-- The front of the queue gets a thread, if one is free. -/
def take (size : Nat) (p : ThreadPool) (c : CallId) : Option ThreadPool :=
  match p.queue with
  | [] => none
  | next :: rest => if next = c ∧ p.working.length < size then some ⟨rest, c :: p.working⟩ else none

/-- Call `c` has come to `l`; it gives its thread back when it has ended. -/
def after (ended : Local → Bool) (p : ThreadPool) (c : CallId) (l : Local) : ThreadPool :=
  if ended l then { p with working := p.working.erase c } else p

theorem take_eq_some {size : Nat} {p p' : ThreadPool} {c : CallId} :
    p.take size c = some p' ↔
      ∃ rest, p.queue = c :: rest ∧ p.working.length < size ∧ p' = ⟨rest, c :: p.working⟩ := by
  unfold take
  constructor
  · intro h
    split at h
    · cases h
    · rename_i next rest hqueue
      simp only [Option.ite_none_right_eq_some, Option.some.injEq] at h
      obtain ⟨⟨rfl, hfree⟩, rfl⟩ := h
      exact ⟨rest, hqueue, hfree, rfl⟩
  · rintro ⟨rest, hqueue, hfree, rfl⟩
    rw [hqueue]
    exact if_pos ⟨rfl, hfree⟩

@[simp]
theorem after_queue (ended : Local → Bool) (p : ThreadPool) (c : CallId) (l : Local) :
    (p.after ended c l).queue = p.queue := by
  unfold after
  split <;> rfl

end ThreadPool

/-- What a call does about the threads before it begins. -/
inductive Queues (size : Nat) : StepRel (Shared × ThreadPool) (Job Local)
  | post {c : CallId} {l : Local} {σ : Shared} {p : ThreadPool} :
      Queues size c (.made l) (σ, p) (.queued l) (σ, p.post c)
  | take {c : CallId} {l : Local} {σ : Shared} {p p' : ThreadPool} :
      p.take size c = some p' → Queues size c (.queued l) (σ, p) (.running l) (σ, p')

/-- What a call that has begun does. -/
inductive Runs (step : StepRel Shared Local) (ended : Local → Bool) : StepRel (Shared × ThreadPool) (Job Local)
  | mk {c : CallId} {l l' : Local} {σ σ' : Shared} {p : ThreadPool} :
      step c l σ l' σ' → Runs step ended c (.running l) (σ, p) (.running l') (σ', p.after ended c l')

/-- To queue is work as much as to run is. -/
def PoolStep (size : Nat) (step : StepRel Shared Local) (ended : Local → Bool) :
    StepRel (Shared × ThreadPool) (Job Local) :=
  fun c j s j' s' => Queues size c j s j' s' ∨ Runs step ended c j s j' s'

/-- `S` on `size` threads. -/
def System.pooled (S : System Shared Local) (size : Nat) (blocking ended : Local → Bool) :
    System (Shared × ThreadPool) (Job Local) where
  init s := S.init s.1 ∧ s.2 = .idle
  start j := ∃ l, S.start l ∧ j = if blocking l then .made l else .running l
  step := PoolStep size S.step ended

/-- What has begun of a configuration. -/
def Config.begun (s : Config (Shared × ThreadPool) (Job Local)) : Config Shared Local :=
  ⟨s.shared.1, fun c => (s.calls c).bind Job.begun⟩

/-- What the pool needs to know of the calls. -/
structure Threaded (S : System Shared Local) (blocking ended : Local → Bool) : Prop where
  start : ∀ {l}, S.start l → ended l = false
  ended : ∀ {c l σ l' σ'}, S.step c l σ l' σ' → ended l = false
  blocking : ∀ {c l σ l' σ'}, S.step c l σ l' σ' → blocking l' = blocking l

/-- The books of the pool: who waits, who works, and that a call that waits is where it was made. -/
structure Accounts (S : System Shared Local) (size : Nat) (blocking ended : Local → Bool)
    (s : Config (Shared × ThreadPool) (Job Local)) : Prop where
  queue : ∀ c, c ∈ s.shared.2.queue ↔ ∃ l, s.calls c = some (.queued l)
  working : ∀ c, c ∈ s.shared.2.working ↔
    ∃ l, s.calls c = some (.running l) ∧ blocking l = true ∧ ended l = false
  nodup : s.shared.2.queue.Nodup ∧ s.shared.2.working.Nodup
  bound : s.shared.2.working.length ≤ size
  waiting : ∀ c l, s.calls c = some (.made l) ∨ s.calls c = some (.queued l) → S.start l ∧ blocking l = true

variable {S : System Shared Local} {size : Nat} {blocking ended : Local → Bool}
  {s t : Config (Shared × ThreadPool) (Job Local)} {c : CallId}

namespace Accounts

theorem init {σ : Shared × ThreadPool} (h : σ.2 = .idle) :
    Accounts S size blocking ended ⟨σ, fun _ => none⟩ := by
  obtain ⟨σ, p⟩ := σ
  obtain rfl : p = .idle := h
  constructor <;> simp [ThreadPool.idle]

theorem not_waits (h : Accounts S size blocking ended s) (hc : s.calls c = none) :
    c ∉ s.shared.2.queue ∧ c ∉ s.shared.2.working := by
  constructor
  · intro hmem
    obtain ⟨l, hl⟩ := (h.queue c).mp hmem
    rw [hc] at hl
    cases hl
  · intro hmem
    obtain ⟨l, hl, -⟩ := (h.working c).mp hmem
    rw [hc] at hl
    cases hl

theorem start (h : Accounts S size blocking ended s) {l : Local}
    (hl : S.start l) (hc : s.calls c = none) :
    Accounts S size blocking ended (s.put c (if blocking l then .made l else .running l) s.shared) := by
  obtain ⟨hqueue, hworking⟩ := h.not_waits hc
  refine ⟨fun d => ?_, fun d => ?_, h.nodup, h.bound, fun d m hd => ?_⟩
  · by_cases hdc : d = c
    · subst hdc
      cases hblocking : blocking l <;> simp [hqueue]
    · rw [Config.put_calls_ne _ _ _ hdc]
      exact h.queue d
  · by_cases hdc : d = c
    · subst hdc
      cases hblocking : blocking l <;> simp [hworking, hblocking]
    · rw [Config.put_calls_ne _ _ _ hdc]
      exact h.working d
  · by_cases hdc : d = c
    · subst hdc
      cases hblocking : blocking l <;> simp [hblocking] at hd
      subst hd
      exact ⟨hl, hblocking⟩
    · rw [Config.put_calls_ne _ _ _ hdc] at hd
      exact h.waiting d m hd

theorem post (h : Accounts S size blocking ended s) {l : Local} (hc : s.calls c = some (.made l)) :
    Accounts S size blocking ended (s.put c (.queued l) (s.shared.1, s.shared.2.post c)) := by
  have hout : c ∉ s.shared.2.queue := by
    intro hmem
    obtain ⟨m, hm⟩ := (h.queue c).mp hmem
    rw [hc] at hm
    cases hm
  refine ⟨fun d => ?_, fun d => ?_, ⟨?_, h.nodup.2⟩, h.bound, fun d m hd => ?_⟩
  · show d ∈ s.shared.2.queue ++ [c] ↔ _
    by_cases hdc : d = c
    · subst hdc
      simp
    · rw [Config.put_calls_ne _ _ _ hdc, ← h.queue d]
      simp [hdc]
  · show d ∈ s.shared.2.working ↔ _
    by_cases hdc : d = c
    · subst hdc
      rw [h.working d, hc]
      simp
    · rw [Config.put_calls_ne _ _ _ hdc]
      exact h.working d
  · show (s.shared.2.queue ++ [c]).Nodup
    exact List.nodup_append.mpr ⟨h.nodup.1, List.nodup_singleton c, fun d hd e he => by
      obtain rfl := List.mem_singleton.mp he
      rintro rfl
      exact hout hd⟩
  · by_cases hdc : d = c
    · subst hdc
      simp at hd
      subst hd
      exact h.waiting d _ (Or.inl hc)
    · rw [Config.put_calls_ne _ _ _ hdc] at hd
      exact h.waiting d m hd

theorem take (hthreads : Threaded S blocking ended) (h : Accounts S size blocking ended s) {l : Local}
    {p' : ThreadPool} (hc : s.calls c = some (.queued l)) (htake : s.shared.2.take size c = some p') :
    Accounts S size blocking ended (s.put c (.running l) (s.shared.1, p')) := by
  obtain ⟨rest, hqueue, hfree, rfl⟩ := ThreadPool.take_eq_some.mp htake
  obtain ⟨hstart, hblocking⟩ := h.waiting c l (Or.inr hc)
  have hnodup := h.nodup.1
  rw [hqueue, List.nodup_cons] at hnodup
  have hout : c ∉ s.shared.2.working := by
    intro hmem
    obtain ⟨m, hm, -⟩ := (h.working c).mp hmem
    rw [hc] at hm
    cases hm
  refine ⟨fun d => ?_, fun d => ?_, ⟨hnodup.2, ?_⟩, ?_, fun d m hd => ?_⟩
  · show d ∈ rest ↔ _
    by_cases hdc : d = c
    · subst hdc
      simp [hnodup.1]
    · have hold := h.queue d
      rw [hqueue, List.mem_cons, or_iff_right hdc] at hold
      rw [Config.put_calls_ne _ _ _ hdc]
      exact hold
  · show d ∈ c :: s.shared.2.working ↔ _
    by_cases hdc : d = c
    · subst hdc
      simp [hblocking, hthreads.start hstart]
    · rw [Config.put_calls_ne _ _ _ hdc, List.mem_cons, or_iff_right hdc]
      exact h.working d
  · exact List.nodup_cons.mpr ⟨hout, h.nodup.2⟩
  · exact hfree
  · by_cases hdc : d = c
    · subst hdc
      simp at hd
    · rw [Config.put_calls_ne _ _ _ hdc] at hd
      exact h.waiting d m hd

theorem run (hthreads : Threaded S blocking ended) (h : Accounts S size blocking ended s) {l l' : Local}
    {σ' : Shared} (hc : s.calls c = some (.running l)) (hst : S.step c l s.shared.1 l' σ') :
    Accounts S size blocking ended (s.put c (.running l') (σ', s.shared.2.after ended c l')) := by
  have hkeeps := hthreads.blocking hst
  have hflight := hthreads.ended hst
  have hmine := h.working c
  rw [hc] at hmine
  refine ⟨fun d => ?_, fun d => ?_, ⟨?_, ?_⟩, ?_, fun d m hd => ?_⟩
  · show d ∈ (s.shared.2.after ended c l').queue ↔ _
    rw [ThreadPool.after_queue]
    by_cases hdc : d = c
    · subst hdc
      rw [h.queue d, hc]
      simp
    · rw [Config.put_calls_ne _ _ _ hdc]
      exact h.queue d
  · show d ∈ (s.shared.2.after ended c l').working ↔ _
    unfold ThreadPool.after
    by_cases hdc : d = c
    · subst hdc
      split
      · rename_i hended
        simp [h.nodup.2.mem_erase_iff, hended]
      · rename_i hended
        simp only [Option.some.injEq, Job.running.injEq, exists_eq_left', hflight] at hmine
        simp [hmine, hkeeps, hended]
    · rw [Config.put_calls_ne _ _ _ hdc, ← h.working d]
      split
      · exact List.mem_erase_of_ne hdc
      · rfl
  · show (s.shared.2.after ended c l').queue.Nodup
    rw [ThreadPool.after_queue]
    exact h.nodup.1
  · show (s.shared.2.after ended c l').working.Nodup
    unfold ThreadPool.after
    split
    · exact h.nodup.2.erase c
    · exact h.nodup.2
  · show (s.shared.2.after ended c l').working.length ≤ size
    unfold ThreadPool.after
    split
    · exact Nat.le_trans List.erase_sublist.length_le h.bound
    · exact h.bound
  · by_cases hdc : d = c
    · subst hdc
      simp at hd
    · rw [Config.put_calls_ne _ _ _ hdc] at hd
      exact h.waiting d m hd

end Accounts

abbrev anySchedule : Guard Shared Local := fun _ _ => True

theorem accounts_of_reach (hthreads : Threaded S blocking ended)
    (h : (S.pooled size blocking ended).Reach anySchedule s) : Accounts S size blocking ended s := by
  refine h.invariant ?_ ?_ ?_
  · rintro σ ⟨-, hidle⟩
    exact Accounts.init hidle
  · rintro s c j _ ih _ hc ⟨l, hl, rfl⟩
    exact ih.start hl hc
  · rintro ⟨⟨σ, p⟩, calls⟩ c j j' σ' _ ih _ hc (hqueues | hruns)
    · cases hqueues with
      | post => exact ih.post hc
      | take htake => exact ih.take hthreads hc htake
    · cases hruns with
      | mk hst => exact ih.run hthreads hc hst

/-! ## The calls that have begun -/

theorem begun_calls {j : Job Local} (hc : s.calls c = some j) : s.begun.calls c = j.begun := by
  show (s.calls c).bind Job.begun = _
  rw [hc]
  rfl

/-- Nothing of a call shows before it begins. -/
theorem begun_put_waiting {j : Job Local} (hj : j.begun = none) (hc : s.begun.calls c = none)
    (p : ThreadPool) : (s.put c j (s.shared.1, p)).begun = s.begun := by
  have hcalls : (fun d => ((s.put c j (s.shared.1, p)).calls d).bind Job.begun) =
      fun d => (s.calls d).bind Job.begun := by
    funext d
    by_cases hd : d = c
    · subst hd
      rw [Config.put_calls_self, Option.bind_some, hj]
      exact hc.symm
    · rw [Config.put_calls_ne _ _ _ hd]
  show Config.mk s.shared.1 _ = Config.mk s.shared.1 _
  rw [hcalls]

theorem begun_put_running (l : Local) (σ : Shared) (p : ThreadPool) :
    (s.put c (.running l) (σ, p)).begun = s.begun.put c l σ := by
  have hcalls : (fun d => ((s.put c (.running l) (σ, p)).calls d).bind Job.begun) =
      Function.update (fun d => (s.calls d).bind Job.begun) c (some l) := by
    funext d
    by_cases hd : d = c
    · subst hd
      rw [Config.put_calls_self, Function.update_self]
      rfl
    · rw [Config.put_calls_ne _ _ _ hd, Function.update_of_ne hd]
  show Config.mk σ _ = Config.mk σ (Function.update (fun d => (s.calls d).bind Job.begun) c (some l))
  rw [hcalls]

/-- An event shows as an event of the system itself, or not at all. -/
theorem begun_move {e : Event (Job Local)} (hthreads : Threaded S blocking ended)
    (h : (S.pooled size blocking ended).Reach anySchedule s)
    (hmove : (S.pooled size blocking ended).Move e s t) :
    t.begun = s.begun ∨ ∃ e', S.Move e' s.begun t.begun := by
  cases hmove with
  | @start _ c j hc hj =>
    obtain ⟨l, hl, rfl⟩ := hj
    have hnone : s.begun.calls c = none := by
      show (s.calls c).bind Job.begun = none
      rw [hc]
      rfl
    cases blocking l with
    | true => exact Or.inl (begun_put_waiting rfl hnone s.shared.2)
    | false =>
      refine Or.inr ⟨.start c l, ?_⟩
      rw [if_neg Bool.false_ne_true, show s.shared = (s.shared.1, s.shared.2) from rfl, begun_put_running]
      exact .start hnone hl
  | @step _ c j j' σ' hc hst =>
    obtain ⟨⟨σ, p⟩, calls⟩ := s
    rcases hst with hqueues | hruns
    · cases hqueues with
      | post => exact Or.inl (begun_put_waiting rfl (begun_calls hc) _)
      | @take _ l _ _ _ htake =>
        obtain ⟨hl, -⟩ := (accounts_of_reach hthreads h).waiting c l (Or.inr hc)
        refine Or.inr ⟨.start c l, ?_⟩
        rw [begun_put_running]
        exact .start (begun_calls hc) hl
    · cases hruns with
      | @mk _ l l' _ σ' _ hst =>
        refine Or.inr ⟨.step c, ?_⟩
        rw [begun_put_running]
        exact .step (begun_calls hc) hst

/-- What has begun is a configuration the system reaches without the threads. -/
theorem begun_reach (hthreads : Threaded S blocking ended)
    (h : (S.pooled size blocking ended).Reach anySchedule s) : S.Reach anySchedule s.begun := by
  induction h with
  | init hσ => exact .init hσ.1
  | move hs _ hmove ih =>
    rcases begun_move hthreads hs hmove with hsame | ⟨e, hmove⟩
    · rwa [hsame]
    · exact ih.move trivial hmove

/-! ## There is always work to do -/

/-- Every call has begun and come to rest. -/
def Config.AtRest (rests : CallId → Local → Shared → Prop) (s : Config (Shared × ThreadPool) (Job Local)) :
    Prop :=
  ∀ c j, s.calls c = some j → ∃ l, j = .running l ∧ rests c l s.shared.1

/-- Where a call of the system itself can always work until all rest, one can on its threads.  A blocking call
rests only once it has ended, and given its thread back. -/
theorem exists_pooled_work {work : StepRel Shared Local} {rests : CallId → Local → Shared → Prop}
    (hsize : 0 < size) (hthreads : Threaded S blocking ended)
    (hrests : ∀ c l σ, rests c l σ → blocking l = true → ended l = true)
    (hprogress : ∀ s, S.Reach anySchedule s → (∃ c l, s.calls c = some l ∧ ¬ rests c l s.shared) →
      ∃ c l l' σ', s.calls c = some l ∧ work c l s.shared l' σ')
    (h : (S.pooled size blocking ended).Reach anySchedule s) :
    s.AtRest rests ∨ ∃ c j j' σ', s.calls c = some j ∧ PoolStep size work ended c j s.shared j' σ' := by
  have haccounts := accounts_of_reach hthreads h
  by_cases hflight : ∃ c l, s.calls c = some (.running l) ∧ ¬ rests c l s.shared.1
  · -- a call that has begun and does not rest: the system itself finds one that works
    obtain ⟨c, l, hc, hmoves⟩ := hflight
    obtain ⟨d, m, m', σ', hd, hwork⟩ := hprogress _ (begun_reach hthreads h) ⟨c, l, begun_calls hc, hmoves⟩
    obtain ⟨j, hj, hm⟩ := Option.bind_eq_some_iff.mp hd
    cases j with
    | running m =>
      obtain rfl := Option.some.inj hm
      exact Or.inr ⟨d, _, _, _, hj, Or.inr (.mk hwork)⟩
    | _ => cases hm
  · -- else every thread is free
    have hfree : s.shared.2.working = [] := by
      apply List.eq_nil_iff_forall_not_mem.mpr
      intro c hmem
      obtain ⟨l, hl, hblocking, hended⟩ := (haccounts.working c).mp hmem
      refine hflight ⟨c, l, hl, fun hrest => ?_⟩
      rw [hrests _ _ _ hrest hblocking] at hended
      cases hended
    cases hqueue : s.shared.2.queue with
    | cons c rest =>
      obtain ⟨l, hl⟩ := (haccounts.queue c).mp (by rw [hqueue]; exact List.mem_cons_self)
      have hroom : s.shared.2.working.length < size := by
        rw [hfree]
        exact hsize
      exact Or.inr ⟨c, _, _, _, hl, Or.inl (.take (ThreadPool.take_eq_some.mpr ⟨rest, hqueue, hroom, rfl⟩))⟩
    | nil =>
      by_cases hmade : ∃ c l, s.calls c = some (.made l)
      · obtain ⟨c, l, hl⟩ := hmade
        exact Or.inr ⟨c, _, _, _, hl, Or.inl .post⟩
      · refine Or.inl fun c j hj => ?_
        cases j with
        | made l => exact absurd ⟨c, l, hj⟩ hmade
        | queued l =>
          have hmem := (haccounts.queue c).mpr ⟨l, hj⟩
          rw [hqueue] at hmem
          cases hmem
        | running l =>
          refine ⟨l, rfl, ?_⟩
          by_contra hmoves
          exact hflight ⟨c, l, hj, hmoves⟩

/-! ## The calls come to rest -/

/-- To be queued and taken are two steps more. -/
def Job.rank (rank : Local → Nat) : Job Local → Nat
  | .made l => rank l + 2
  | .queued l => rank l + 1
  | .running l => rank l

theorem Job.rank_le {rank : Local → Nat} {k : Nat} (hk : ∀ l, rank l ≤ k) (j : Job Local) :
    j.rank rank ≤ k + 2 := by
  cases j with
  | made l => exact Nat.add_le_add_right (hk l) 2
  | queued l => exact Nat.le_trans (Nat.succ_le_succ (hk l)) (Nat.le_succ _)
  | running l => exact Nat.le_trans (hk l) (Nat.le_add_right k 2)

theorem Ranked.pooled {work idle : StepRel Shared Local} {rank : Local → Nat} (h : Ranked work idle rank)
    (size : Nat) (ended : Local → Bool) :
    Ranked (PoolStep size work ended) (Runs idle ended) (Job.rank rank) where
  work := by
    rintro c j σ j' σ' (hqueues | hruns)
    · cases hqueues with
      | post => exact Nat.lt_succ_self _
      | take _ => exact Nat.lt_succ_self _
    · cases hruns with
      | mk hwork => exact h.work hwork
  idle := by
    rintro c j σ j' σ' hruns
    cases hruns with
    | mk hidle => exact h.idle hidle

section

variable {work idle : StepRel Shared Local}

/-- A schedule of the threads that makes no new call, with `n` steps of work among its steps. -/
abbrev Config.PoolWinds (work idle : StepRel Shared Local) (ended : Local → Bool) (size : Nat)
    (s : Config (Shared × ThreadPool) (Job Local)) (n : Nat) (t : Config (Shared × ThreadPool) (Job Local)) :
    Prop :=
  Winds (PoolStep size work ended) (Runs idle ended) s n t

/-- On its threads the system winds down as it does without them, in two more steps a call. -/
theorem pooled_winds_down {rests : CallId → Local → Shared → Prop} {rank : Local → Nat} {k : Nat}
    (hsize : 0 < size) (hthreads : Threaded S blocking ended)
    (hrests : ∀ c l σ, rests c l σ → blocking l = true → ended l = true)
    (hwork : ∀ {c l σ l' σ'}, work c l σ l' σ' → S.step c l σ l' σ')
    (hidle : ∀ {c l σ l' σ'}, idle c l σ l' σ' → S.step c l σ l' σ')
    (hrank : Ranked work idle rank) (hk : ∀ l, rank l ≤ k)
    (hprogress : ∀ s, S.Reach anySchedule s → (∃ c l, s.calls c = some l ∧ ¬ rests c l s.shared) →
      ∃ c l l' σ', s.calls c = some l ∧ work c l s.shared l' σ')
    (h : (S.pooled size blocking ended).Reach anySchedule s) : ∃ made, s.Made made ∧
      (∀ n t, s.PoolWinds work idle ended size n t →
        n ≤ made.card * (k + 2) ∧ (t.AtRest rests ∨ ∃ t', s.PoolWinds work idle ended size (n + 1) t')) ∧
      ∃ n t, s.PoolWinds work idle ended size n t ∧ t.AtRest rests := by
  obtain ⟨made, hmade⟩ := h.exists_made
  have hreach : ∀ {n t}, s.PoolWinds work idle ended size n t →
      (S.pooled size blocking ended).Reach anySchedule t := by
    intro n t ht
    have hsteps : (S.pooled size blocking ended).Steps anySchedule s t := by
      refine ht.steps (fun _ _ => trivial) ?_ ?_
      · rintro c j σ j' σ' (hqueues | hruns)
        · exact Or.inl hqueues
        · cases hruns with
          | mk hst => exact Or.inr (.mk (hwork hst))
      · rintro c j σ j' σ' hruns
        cases hruns with
        | mk hst => exact Or.inr (.mk (hidle hst))
    exact h.steps (fun _ _ _ => trivial) hsteps
  have hmore : ∀ {n t}, s.PoolWinds work idle ended size n t →
      t.AtRest rests ∨ ∃ t', s.PoolWinds work idle ended size (n + 1) t' := by
    intro n t ht
    rcases exists_pooled_work hsize hthreads hrests hprogress (hreach ht) with hover | ⟨c, j, j', σ', hc, hst⟩
    · exact Or.inl hover
    · exact Or.inr ⟨_, ht.work hc hst⟩
  have hpooled := hrank.pooled size ended
  refine ⟨made, hmade, fun n t ht => ?_, Winds.exists_rest hpooled hmade hmore⟩
  exact ⟨ht.le_card_mul hpooled (Job.rank_le hk) hmade, hmore ht⟩

end

/-! ## Schedules as data -/

variable {Choice : Type}

/-- `R` on `size` threads. -/
def Replay.pooled (R : Replay Shared Local Choice) (size : Nat) (blocking ended : Local → Bool) :
    Replay (Shared × ThreadPool) (Job Local) Choice where
  bound := R.bound
  starts
    | .made l => R.starts l && blocking l
    | .queued _ => false
    | .running l => R.starts l && !blocking l
  next c j ch s :=
    match j with
    | .made l => some (.queued l, s.1, s.2.post c)
    | .queued l => (s.2.take size c).map fun p => (.running l, s.1, p)
    | .running l => (R.next c l ch s.1).map fun r => (.running r.1, r.2, s.2.after ended c r.1)
  check _ _ := true

theorem Replay.Sound.pooled {R : Replay Shared Local Choice} {ok : Guard Shared Local} (h : R.Sound S ok)
    (size : Nat) (blocking ended : Local → Bool) :
    (R.pooled size blocking ended).Sound (S.pooled size blocking ended) anySchedule where
  starts := by
    intro j hj
    cases j with
    | made l =>
      obtain ⟨hl, hblocking⟩ := Bool.and_eq_true_iff.mp hj
      exact ⟨l, h.starts l hl, by rw [if_pos hblocking]⟩
    | queued l => cases hj
    | running l =>
      obtain ⟨hl, hblocking⟩ := Bool.and_eq_true_iff.mp hj
      exact ⟨l, h.starts l hl, by rw [if_neg (by simpa using hblocking)]⟩
  next := by
    rintro c j ch ⟨σ, p⟩ j' σ' hnext
    cases j with
    | made l =>
      cases hnext
      exact Or.inl .post
    | queued l =>
      obtain ⟨p', htake, hp'⟩ := Option.map_eq_some_iff.mp hnext
      cases hp'
      exact Or.inl (.take htake)
    | running l =>
      obtain ⟨r, hr, hp'⟩ := Option.map_eq_some_iff.mp hnext
      cases hp'
      exact Or.inr (.mk (h.next c l ch σ r.1 r.2 hr))
  check := fun _ _ _ _ => trivial

end CwTariWallet.Interleaving
