/-
# CwTariWallet.Bridge.PoolThreads -- the bridge on its two pool threads

Calls that the generated code hands to `wrap_normal` run on `BRIDGE_THREAD_POOL_SIZE` threads, each from its
first line to its last: an `unlock_wallet` keeps its thread while it waits for a wallet's gate.  The others
are futures, which leave their worker wherever they wait, or run where they are called (`create_scan_handle`).

Two threads can both be waiting while a third call is queued.  That is no deadlock: a call that waits for a
thread holds nothing, so the waits of those that have one never lead to it (`pool_winds_down`).
-/
import CwTariWallet.ThreadPool
import CwTariWallet.Isolation.Calls
import CwTariWallet.Bridge.WindsDown

namespace CwTariWallet

open Interleaving

/-- `BRIDGE_THREAD_POOL_SIZE`. -/
def bridgeThreadPoolSize : Nat := 2

namespace Call

/-- The calls of `wrap_normal`. -/
def wrapNormal : Call → Bool
  | .setDatabasePath _ | .unlockWallet _ | .createWallet _ | .getAddress _ => true
  | _ => false

theorem wrapNormal_begun (call : Call) : call.begun.wrapNormal = call.wrapNormal := by
  cases call <;> rfl

/-- A call has not returned where it starts. -/
theorem returned_of_starts {call : Call} (h : call.starts = true) : call.returned = false := by
  cases call with
  | scan s =>
    obtain ⟨handle, v, priority, continuous, rescanFrom, pos, dbPath,
      forwarder, checked, swept, rolledBack⟩ := s
    cases of_decide_eq_true h
    rfl
  | sendTransaction s =>
    obtain ⟨details, pos, log⟩ := s
    cases of_decide_eq_true h
    rfl
  | getAddress a =>
    obtain ⟨v, network, pos, live⟩ := a
    cases of_decide_eq_true h
    rfl
  | _ =>
    have hpos := of_decide_eq_true h
    simp only [returned, hpos]

end Call

theorem threaded : Threaded system Call.wrapNormal Call.returned where
  start := Call.returned_of_starts
  ended := by
    rintro c call σ call' σ' ⟨ch, hnext⟩
    by_contra hreturned
    rw [Call.next_of_returned (by simpa using hreturned)] at hnext
    cases hnext
  blocking := by
    rintro c call σ call' σ' ⟨ch, hnext⟩
    rw [← call'.wrapNormal_begun, Call.next_begun hnext, call.wrapNormal_begun]

/-- The bridge as `FLUTTER_RUST_BRIDGE_HANDLER` runs it. -/
def pooledSystem : System (Shared × ThreadPool) (Job Call) :=
  system.pooled bridgeThreadPoolSize Call.wrapNormal Call.returned

/-- Its configurations. -/
abbrev PooledWorld := Config (Shared × ThreadPool) (Job Call)

namespace PooledWorld

/-- `t` is reached from `s` with no new call, and with `n` steps that took a call on. -/
abbrev Winds (s : PooledWorld) (n : Nat) (t : PooledWorld) : Prop :=
  s.PoolWinds Call.Works Call.Idles Call.returned bridgeThreadPoolSize n t

/-- Every call has returned, but for continuous scans that nobody has told to stop. -/
abbrev Settled (s : PooledWorld) : Prop :=
  s.AtRest fun c call σ => call.returned = true ∨ call.goesOn c σ = true

end PooledWorld

variable {s : PooledWorld}

/-- On its pool the bridge does nothing it could not do without, and winds down as it does without.  What
has begun is a state the bridge reaches anyway; at most two blocking calls are at work, which have the two
threads; and in whatever order the threads are given out and the calls go on, they take at most 26 steps a call
between them, one of them can take such a step until all have returned, but for the continuous scans that go on,
and it comes to that. -/
theorem pool_winds_down (h : pooledSystem.Reach anySchedule s) :
    system.Reach anySchedule s.begun ∧
    (s.shared.2.working.length ≤ 2 ∧ ∀ c call, s.calls c = some (.running call) → call.wrapNormal = true →
      call.returned = false → c ∈ s.shared.2.working) ∧
    ∃ made, s.Made made ∧
      (∀ n t, s.Winds n t → n ≤ made.card * 26 ∧ (t.Settled ∨ ∃ t', s.Winds (n + 1) t')) ∧
      ∃ n t, s.Winds n t ∧ t.Settled := by
  have haccounts := accounts_of_reach threaded h
  refine ⟨begun_reach threaded h, ⟨haccounts.bound, fun c call hc hnormal hflight => ?_⟩, ?_⟩
  · exact (haccounts.working c).mpr ⟨call, hc, hnormal, hflight⟩
  · refine pooled_winds_down (by decide) threaded ?_ ?_ ?_ Call.ranked Call.toGo_le ?_ h
    · rintro c call σ (hreturned | hgoes) hnormal
      · exact hreturned
      · obtain ⟨x, rfl, -⟩ := Call.eq_of_goesOn hgoes
        cases hnormal
    · rintro c call σ call' σ' ⟨ch, -, hnext⟩
      exact ⟨ch, hnext⟩
    · rintro c call σ call' σ' ⟨ch, -, hnext⟩
      exact ⟨ch, hnext⟩
    · rintro t ht ⟨c, call, hc, hflight⟩
      exact exists_works ht hc hflight

/-- A blocking call from where it is made to where it has a thread. -/
def takesThread (c : CallId) (call : Call) : List (Act (Job Call) Choice) :=
  .start c (.made call) :: [.step c {}, .step c {}]

/-- A continuous scan of "main" is at work.  Of three more unlocks the first has the gate, the second waits for
it, and the third for a thread. -/
def threeUnlocks : Option PooledWorld :=
  let unlock : Call := .unlockWallet ⟨firstPath, "main", "secret", .count⟩
  ((replay 6 fun _ _ => true).pooled bridgeThreadPoolSize Call.wrapNormal Call.returned).exec
    ⟨(fresh.shared, .idle), fun _ => none⟩
    (takesThread 0 unlock ++ List.replicate 6 (.step 0 {}) ++
      .start 1 (.running (.createScanHandle ⟨"main", .fetch⟩)) :: List.replicate 2 (.step 1 {}) ++
      .start 2 (.running
        (.scan ⟨⟨"main", 0⟩, "main", .background, true, none, .claim, none, {}, none, none, none⟩)) ::
          List.replicate 11 (.step 2 {}) ++
      takesThread 3 unlock ++ takesThread 4 unlock ++ .start 5 (.made unlock) ::
        [5, 3, 4, 3].map fun c => .step c {})

theorem pool_winds_down_threeUnlocks : ∃ s scan, threeUnlocks = some s ∧ s.shared.2.queue = [5] ∧
    s.shared.2.working = [4, 3] ∧ s.shared.1.gates "main" = some 3 ∧
    s.calls 2 = some (.running scan) ∧ scan.goesOn 2 s.shared.1 = true ∧ ∃ n t, s.Winds n t ∧ t.Settled := by
  obtain ⟨s, hs⟩ := Option.isSome_iff_exists.mp (by decide : threeUnlocks.isSome = true)
  have facts : threeUnlocks.map (fun s => (s.shared.2.queue, s.shared.2.working, s.shared.1.gates "main",
      ((s.calls 2).bind Job.begun).map fun call => call.goesOn 2 s.shared.1)) =
      some ([5], [4, 3], some 3, some true) := by decide
  simp only [hs, Option.map_some, Option.some.injEq, Prod.mk.injEq, Option.map_eq_some_iff,
    Option.bind_eq_some_iff] at facts
  obtain ⟨hqueue, hworking, hgate, scan, ⟨j, hj, hbegun⟩, hgoes⟩ := facts
  have hrunning : j = .running scan := by
    cases j <;> cases hbegun
    rfl
  have hsound : (replay 6 fun _ _ => true).Sound system anySchedule := replay_sound fun _ _ _ _ => trivial
  have hreach : pooledSystem.Reach anySchedule s :=
    (hsound.pooled bridgeThreadPoolSize Call.wrapNormal Call.returned).reach ⟨fresh_init, rfl⟩ hs
  obtain ⟨-, -, made, -, -, hend⟩ := pool_winds_down hreach
  exact ⟨s, scan, hs, hqueue, hworking, hgate, hrunning ▸ hj, hgoes, hend⟩

end CwTariWallet
