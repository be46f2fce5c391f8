/-
# CwTariWallet.Linearization -- calls that each act at one instant

Many objects are shared, and each call performs at most one operation on one of them, in a single step
somewhere between its start and its return.  Then what a run did to the objects is what the operations do
one after the other, in the order of those steps (`Linearizes.exists_history`); and the order is that of
real time: what acts after some moment are calls not over at that moment (`Linearizes.goes_on`).
Nothing here knows what the calls, the objects or the operations are.
-/
import CwTariWallet.Interleaving
import Mathlib.Data.List.Nodup

namespace CwTariWallet.Interleaving

/-- An operation performed: by which call, on which object. -/
structure Performed (Obj Op : Type) where
  call : CallId
  object : Obj
  op : Op

/-- What `Obj` objects with the abstract state `A` and the operations `Op` are.  `run` is the sequential
meaning of an operation, `none` where it is refused; `asks` the operation a call is there to perform, `acted`
and `mayHaveActed` what its position tells of whether it has; `ended` says that it does nothing more. -/
structure Objects (Shared Local Obj Op A : Type) where
  state : Shared → Obj → A
  run : Op → A → Option A
  asks : Local → Option Op
  acted : Local → Bool
  mayHaveActed : Local → Bool
  ended : Local → Bool

variable {Shared Local Obj Op A : Type}

namespace Objects

variable (O : Objects Shared Local Obj Op A)

/-- A step that performs no operation. -/
structure Idle (l : Local) (σ : Shared) (l' : Local) (σ' : Shared) : Prop where
  state : O.state σ' = O.state σ
  asks : O.asks l' = O.asks l
  acted : O.acted l' = true → O.acted l = true
  mayHaveActed : O.mayHaveActed l = true → O.mayHaveActed l' = true

/-- The step that performs the call's operation, on `obj`. -/
structure Acts [DecidableEq Obj] (obj : Obj) (op : Op) (l : Local) (σ : Shared) (l' : Local)
    (σ' : Shared) : Prop where
  asked : O.asks l = some op
  asks : O.asks l' = O.asks l
  fresh : O.mayHaveActed l = false
  mayHaveActed : O.mayHaveActed l' = true
  run : ∃ a, O.run op (O.state σ obj) = some a ∧ O.state σ' = Function.update (O.state σ) obj a

/-- Every step a schedule within `ok` takes is idle or performs the operation of its call. -/
structure Linearizes [DecidableEq Obj] (S : System Shared Local) (ok : Guard Shared Local) : Prop where
  start : ∀ {l}, S.start l → O.acted l = false
  step : ∀ {s c l l' σ'}, S.Reach ok s → s.calls c = some l → S.step c l s.shared l' σ' →
    O.Idle l s.shared l' σ' ∨ ∃ obj op, O.Acts obj op l s.shared l' σ'
  ended : ∀ {c l σ l' σ'}, O.ended l = true → ¬ S.step c l σ l' σ'

variable [DecidableEq Obj]

/-- The operations of `history` on `obj`, one after the other; `none` if one of them is refused. -/
def replay (history : List (Performed Obj Op)) (obj : Obj) (a : A) : Option A :=
  (history.filter fun p => decide (p.object = obj)).foldlM (fun a p => O.run p.op a) a

theorem replay_nil (obj : Obj) (a : A) : O.replay [] obj a = some a := rfl

/-- What is performed last is performed on what the others left. -/
theorem replay_concat (history : List (Performed Obj Op)) (p : Performed Obj Op) (obj : Obj) (a : A) :
    O.replay (history ++ [p]) obj a =
      (O.replay history obj a).bind fun b => if p.object = obj then O.run p.op b else some b := by
  unfold replay
  rw [List.filter_append, List.foldlM_append]
  refine congrArg (Option.bind _) (funext fun b => ?_)
  by_cases hobj : p.object = obj
  · simp [hobj]
  · simp [hobj]

/-- `history` explains how the objects came from `σ` to where they are in `s`: each operation was performed
by the one call that asked for it, and every call that acted is there. -/
structure Explains (σ : Shared) (s : Config Shared Local) (history : List (Performed Obj Op)) : Prop where
  state : ∀ obj, O.replay history obj (O.state σ obj) = some (O.state s.shared obj)
  nodup : (history.map (·.call)).Nodup
  asked : ∀ p ∈ history, ∃ l, s.calls p.call = some l ∧ O.asks l = some p.op ∧ O.mayHaveActed l = true
  acted : ∀ c l, s.calls c = some l → O.acted l = true → ∃ p ∈ history, p.call = c

variable {O} {σ σ' : Shared} {s t : Config Shared Local} {history : List (Performed Obj Op)} {c : CallId}
  {l l' : Local}

theorem Explains.nil (σ : Shared) : O.Explains σ ⟨σ, fun _ => none⟩ [] where
  state obj := O.replay_nil obj _
  nodup := List.nodup_nil
  asked _ hp := absurd hp List.not_mem_nil
  acted _ _ hc := nomatch hc

/-- A call that cannot have acted is not in the history. -/
theorem Explains.not_mem (h : O.Explains σ s history) (hc : s.calls c = some l)
    (hfresh : O.mayHaveActed l = false) : ∀ p ∈ history, p.call ≠ c := by
  rintro p hp rfl
  obtain ⟨m, hm, -, hacted⟩ := h.asked p hp
  obtain rfl := Option.some.inj (hc.symm.trans hm)
  rw [hfresh] at hacted
  cases hacted

theorem Explains.start (h : O.Explains σ s history) (hfree : s.calls c = none) (hstart : O.acted l = false) :
    O.Explains σ (s.put c l s.shared) history where
  state := h.state
  nodup := h.nodup
  asked p hp := by
    obtain ⟨m, hm, hasks⟩ := h.asked p hp
    exact ⟨m, Config.put_calls_of_free hfree hm, hasks⟩
  acted d m hd hacted := by
    rcases Config.put_calls_eq_some hd with ⟨rfl, rfl⟩ | ⟨-, hd⟩
    · rw [hstart] at hacted
      cases hacted
    · exact h.acted d m hd hacted

theorem Explains.idle (h : O.Explains σ s history) (hc : s.calls c = some l) (hidle : O.Idle l s.shared l' σ') :
    O.Explains σ (s.put c l' σ') history where
  state obj := by
    rw [Config.put_shared, hidle.state]
    exact h.state obj
  nodup := h.nodup
  asked p hp := by
    obtain ⟨m, hm, hasks, hacted⟩ := h.asked p hp
    by_cases hpc : p.call = c
    · rw [hpc] at hm ⊢
      obtain rfl := Option.some.inj (hc.symm.trans hm)
      exact ⟨l', Config.put_calls_self _ _ _ _, hidle.asks.trans hasks, hidle.mayHaveActed hacted⟩
    · exact ⟨m, by rw [Config.put_calls_ne _ _ _ hpc]; exact hm, hasks, hacted⟩
  acted d m hd hacted := by
    rcases Config.put_calls_eq_some hd with ⟨rfl, rfl⟩ | ⟨-, hd⟩
    · exact h.acted d l hc (hidle.acted hacted)
    · exact h.acted d m hd hacted

/-- What a call performs now comes last. -/
theorem Explains.acts (h : O.Explains σ s history) (hc : s.calls c = some l) {obj : Obj} {op : Op}
    (hacts : O.Acts obj op l s.shared l' σ') :
    O.Explains σ (s.put c l' σ') (history ++ [⟨c, obj, op⟩]) where
  state o := by
    obtain ⟨a, hrun, hstate⟩ := hacts.run
    rw [O.replay_concat, h.state o, Config.put_shared, hstate]
    by_cases ho : obj = o
    · subst ho
      simp [hrun]
    · rw [Function.update_of_ne (Ne.symm ho)]
      simp [ho]
  nodup := by
    rw [List.map_append, List.map_singleton]
    refine List.Nodup.append h.nodup (List.nodup_singleton c) ?_
    rw [List.disjoint_singleton]
    intro hmem
    obtain ⟨p, hp, hpc⟩ := List.mem_map.mp hmem
    exact h.not_mem hc hacts.fresh p hp hpc
  asked p hp := by
    rcases List.mem_append.mp hp with hp | hp
    · obtain ⟨m, hm, hasks⟩ := h.asked p hp
      have hpc := h.not_mem hc hacts.fresh p hp
      exact ⟨m, by rw [Config.put_calls_ne _ _ _ hpc]; exact hm, hasks⟩
    · obtain rfl := List.mem_singleton.mp hp
      exact ⟨l', Config.put_calls_self _ _ _ _, hacts.asks.trans hacts.asked, hacts.mayHaveActed⟩
  acted d m hd hacted := by
    rcases Config.put_calls_eq_some hd with ⟨rfl, -⟩ | ⟨-, hd⟩
    · exact ⟨_, List.mem_append_right _ (List.mem_singleton_self _), rfl⟩
    · obtain ⟨p, hp, hpc⟩ := h.acted d m hd hacted
      exact ⟨p, List.mem_append_left _ hp, hpc⟩

namespace Linearizes

variable {S : System Shared Local} {ok : Guard Shared Local}

/-- A call that is over stays as it is. -/
theorem calls_of_over (hO : O.Linearizes S ok) (hst : S.Steps ok s t) (hc : s.calls c = some l)
    (hover : O.ended l = true) : t.calls c = some l := by
  induction hst with
  | refl => exact hc
  | move _ _ hmove ih =>
    cases hmove with
    | start hfree _ => exact Config.put_calls_of_free hfree ih
    | @step _ d m m' σ' hd hstep =>
      have hne : c ≠ d := by
        rintro rfl
        obtain rfl := Option.some.inj (ih.symm.trans hd)
        exact hO.ended hover hstep
      rw [Config.put_calls_ne _ _ _ hne]
      exact ih

/-- A history goes on: what is performed later comes after it, and by calls that are not over yet. -/
theorem goes_on (hO : O.Linearizes S ok) (hs : S.Reach ok s) (h : O.Explains σ s history)
    (hst : S.Steps ok s t) :
    ∃ more, O.Explains σ t (history ++ more) ∧
      ∀ p ∈ more, ∀ l, s.calls p.call = some l → O.ended l = false := by
  induction hst with
  | refl => exact ⟨[], by rwa [List.append_nil], fun p hp => absurd hp List.not_mem_nil⟩
  | @move e u u' hsu hok hmove ih =>
    obtain ⟨more, hmore, hlive⟩ := ih
    cases hmove with
    | start hfree hl => exact ⟨more, hmore.start hfree (hO.start hl), hlive⟩
    | @step _ c l l' σ' hc hstep =>
      rcases hO.step (hs.steps (fun _ _ h => h) hsu) hc hstep with hidle | ⟨obj, op, hacts⟩
      · exact ⟨more, hmore.idle hc hidle, hlive⟩
      · refine ⟨more ++ [⟨c, obj, op⟩], ?_, ?_⟩
        · rw [← List.append_assoc]
          exact hmore.acts hc hacts
        · intro p hp m hm
          rcases List.mem_append.mp hp with hp | hp
          · exact hlive p hp m hm
          · obtain rfl := List.mem_singleton.mp hp
            -- a call that was over could not have moved since
            rw [Bool.eq_false_iff]
            intro hover
            obtain rfl := Option.some.inj (hc.symm.trans (hO.calls_of_over hsu hm hover))
            exact hO.ended hover hstep

/-- Every run from `σ` on has a history. -/
theorem exists_history (hO : O.Linearizes S ok) (hσ : S.init σ) (hst : S.Steps ok ⟨σ, fun _ => none⟩ s) :
    ∃ history, O.Explains σ s history := by
  obtain ⟨more, hmore, -⟩ := hO.goes_on (.init hσ) (Explains.nil σ) hst
  exact ⟨more, hmore⟩

end Linearizes

end Objects

end CwTariWallet.Interleaving
