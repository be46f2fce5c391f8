/-
# CwTariWallet.Interleaving -- calls that interleave over one shared state

A `System` says what one atomic step of one call does to the call's own position and to the state
all calls share.  Everything else here is about schedules: which configurations any order of steps
reaches (`Reach`), what lies between two of them (`Steps`), which configurations a run went through
(`Run`), and how to prove things about all of them at once.

* `Reach.invariant` -- what holds at first and survives every start and every step of any call
  holds in every reachable configuration;
* `Reach.outline` -- the per-call form: an assertion about each call's own position, kept by the
  call's own step and stable under everybody else's;
* `Hom` -- a second system that sees less and takes a matching step whenever the first one steps:
  what it can never reach, the first can never reach either;
* `Replay` -- schedules written down as data and replayed.

A `Guard` narrows the schedules (which calls may start, in which states a call may move).  Nothing
here knows what the calls are.
-/
import Mathlib.Logic.Function.Basic
import Mathlib.Data.List.Basic

namespace CwTariWallet.Interleaving

/-- The name of one call. -/
abbrev CallId := Nat

/-- What the calls are, one atomic step at a time.  `start` says where a call may begin; `step c l σ
l' σ'` that call `c`, standing at `l`, can move to `l'` while the shared state goes from `σ` to
`σ'`. -/
structure System (Shared Local : Type) where
  init : Shared → Prop
  start : Local → Prop
  step : CallId → Local → Shared → Local → Shared → Prop

/-- The shared state together with the position of every call made so far. -/
structure Config (Shared Local : Type) where
  shared : Shared
  calls : CallId → Option Local

/-- What a schedule can do next. -/
inductive Event (Local : Type) where
  | start (c : CallId) (l : Local)
  | step (c : CallId)

/-- Which events a schedule may take in which configuration. -/
abbrev Guard (Shared Local : Type) := Event Local → Config Shared Local → Prop

variable {Shared Local : Type}

namespace Config

/-- The configuration once call `c` stands at `l` and the shared state is `σ`. -/
def put (s : Config Shared Local) (c : CallId) (l : Local) (σ : Shared) : Config Shared Local :=
  ⟨σ, Function.update s.calls c (some l)⟩

@[simp]
theorem put_shared (s : Config Shared Local) (c : CallId) (l : Local) (σ : Shared) :
    (s.put c l σ).shared = σ := rfl

@[simp]
theorem put_calls_self (s : Config Shared Local) (c : CallId) (l : Local) (σ : Shared) :
    (s.put c l σ).calls c = some l := by
  simp [put]

theorem put_calls_ne (s : Config Shared Local) {c d : CallId} (l : Local) (σ : Shared)
    (h : d ≠ c) : (s.put c l σ).calls d = s.calls d := by
  simp [put, h]

/-- A new call takes the place of none. -/
theorem put_calls_of_free {s : Config Shared Local} {c d : CallId} {l m : Local} {σ : Shared}
    (hfree : s.calls c = none) (hd : s.calls d = some m) : (s.put c l σ).calls d = some m := by
  rw [put_calls_ne _ _ _ (by rintro rfl; rw [hfree] at hd; cases hd)]
  exact hd

/-- A call of the new configuration is the one that moved or one of the old ones. -/
theorem put_calls_eq_some {s : Config Shared Local} {c d : CallId} {l m : Local} {σ : Shared}
    (h : (s.put c l σ).calls d = some m) :
    (d = c ∧ m = l) ∨ (d ≠ c ∧ s.calls d = some m) := by
  by_cases hd : d = c
  · subst hd
    rw [put_calls_self, Option.some.injEq] at h
    exact Or.inl ⟨rfl, h.symm⟩
  · rw [put_calls_ne s l σ hd] at h
    exact Or.inr ⟨hd, h⟩

/-- Some call with `P` stays one, as long as the call that moved keeps `P`. -/
theorem exists_put {s : Config Shared Local} {c : CallId} {l' : Local} {σ : Shared}
    {P : Local → Prop} (hkeep : ∀ l, s.calls c = some l → P l → P l')
    (h : ∃ d m, s.calls d = some m ∧ P m) : ∃ d m, (s.put c l' σ).calls d = some m ∧ P m := by
  obtain ⟨d, m, hd, hm⟩ := h
  by_cases hdc : d = c
  · subst hdc
    exact ⟨d, l', put_calls_self _ _ _ _, hkeep m hd hm⟩
  · exact ⟨d, m, by rw [put_calls_ne _ _ _ hdc]; exact hd, hm⟩

/-- The configuration with its state and its calls mapped. -/
def map {Shared' Local' : Type} (f : Shared → Shared') (g : Local → Local') (s : Config Shared Local) :
    Config Shared' Local' :=
  ⟨f s.shared, fun c => (s.calls c).map g⟩

theorem map_put {Shared' Local' : Type} (f : Shared → Shared') (g : Local → Local')
    (s : Config Shared Local) (c : CallId) (l : Local) (σ : Shared) :
    (s.put c l σ).map f g = (s.map f g).put c (g l) (f σ) := by
  have hcalls : (fun d => ((s.put c l σ).calls d).map g) =
      Function.update (fun d => (s.calls d).map g) c (some (g l)) := by
    funext d
    by_cases hd : d = c
    · subst hd
      simp
    · rw [put_calls_ne s l σ hd, Function.update_of_ne hd]
  simp only [map, put] at hcalls ⊢
  rw [hcalls]

end Config

namespace System

variable (S : System Shared Local)

/-- One event of a schedule: a new call begins, or a call takes its next atomic step. -/
inductive Move : Event Local → Config Shared Local → Config Shared Local → Prop
  | start {s : Config Shared Local} {c : CallId} {l : Local} :
      s.calls c = none → S.start l → Move (.start c l) s (s.put c l s.shared)
  | step {s : Config Shared Local} {c : CallId} {l l' : Local} {σ' : Shared} :
      s.calls c = some l → S.step c l s.shared l' σ' → Move (.step c) s (s.put c l' σ')

/-- The configurations some schedule within `ok` reaches. -/
inductive Reach (ok : Guard Shared Local) : Config Shared Local → Prop
  | init {σ : Shared} : S.init σ → Reach ok ⟨σ, fun _ => none⟩
  | move {e : Event Local} {s s' : Config Shared Local} :
      Reach ok s → ok e s → S.Move e s s' → Reach ok s'

/-- `t` is reached from `s` by a schedule within `ok`. -/
inductive Steps (ok : Guard Shared Local) (s : Config Shared Local) : Config Shared Local → Prop
  | refl : Steps ok s s
  | move {e : Event Local} {t t' : Config Shared Local} :
      Steps ok s t → ok e t → S.Move e t t' → Steps ok s t'

/-- The configurations of one schedule within `ok`, the latest first. -/
inductive Run (ok : Guard Shared Local) : List (Config Shared Local) → Prop
  | init {σ : Shared} : S.init σ → Run ok [⟨σ, fun _ => none⟩]
  | move {e : Event Local} {s s' : Config Shared Local} {past : List (Config Shared Local)} :
      Run ok (s :: past) → ok e s → S.Move e s s' → Run ok (s' :: s :: past)

variable {S}

/-! ## Invariants -/

/-- The induction over schedules.  The two preservation goals may use that the configuration is
reachable, hence every invariant proved before. -/
theorem Reach.invariant {ok : Guard Shared Local} {I : Config Shared Local → Prop}
    (hinit : ∀ σ, S.init σ → I ⟨σ, fun _ => none⟩)
    (hstart : ∀ s c l, S.Reach ok s → I s → ok (.start c l) s → s.calls c = none → S.start l →
      I (s.put c l s.shared))
    (hstep : ∀ s c l l' σ', S.Reach ok s → I s → ok (.step c) s → s.calls c = some l →
      S.step c l s.shared l' σ' → I (s.put c l' σ'))
    {s : Config Shared Local} (h : S.Reach ok s) : I s := by
  induction h with
  | init hσ => exact hinit _ hσ
  | move hs hok hmove ih =>
    cases hmove with
    | start hc hl => exact hstart _ _ _ hs ih hok hc hl
    | step hc hst => exact hstep _ _ _ _ _ hs ih hok hc hst

/-- The per-call form: `A c l σ` is asserted of every call `c` that stands at `l`.  A call's own
step has to keep its assertion, and the step of one call the assertion of every other. -/
theorem Reach.outline {ok : Guard Shared Local} {A : CallId → Local → Shared → Prop}
    (hstart : ∀ s c l, S.Reach ok s → ok (.start c l) s → S.start l → A c l s.shared)
    (hown : ∀ s c l l' σ', S.Reach ok s → ok (.step c) s → s.calls c = some l → A c l s.shared →
      S.step c l s.shared l' σ' → A c l' σ')
    (hother : ∀ s c l l' σ' d m, S.Reach ok s → ok (.step c) s → s.calls c = some l →
      A c l s.shared → S.step c l s.shared l' σ' → d ≠ c → s.calls d = some m →
      A d m s.shared → A d m σ')
    {s : Config Shared Local} (h : S.Reach ok s) {c : CallId} {l : Local}
    (hc : s.calls c = some l) : A c l s.shared := by
  have all : ∀ d m, s.calls d = some m → A d m s.shared := by
    refine Reach.invariant (I := fun s => ∀ d m, s.calls d = some m → A d m s.shared) ?_ ?_ ?_ h
    · intro σ _ d m hd
      simp at hd
    · intro s c l hs ih hok _ hl d m hd
      rcases Config.put_calls_eq_some hd with ⟨rfl, rfl⟩ | ⟨_, hd⟩
      · exact hstart s _ _ hs hok hl
      · exact ih d m hd
    · intro s c l l' σ' hs ih hok hc hst d m hd
      rcases Config.put_calls_eq_some hd with ⟨rfl, rfl⟩ | ⟨hne, hd⟩
      · exact hown s _ l _ σ' hs hok hc (ih _ _ hc) hst
      · exact hother s c l l' σ' d m hs hok hc (ih _ _ hc) hst hne hd (ih _ _ hd)
  exact all c l hc

/-- What a schedule within `ok` reaches, one within a wider guard reaches. -/
theorem Reach.mono {ok ok' : Guard Shared Local} (h : ∀ e s, ok e s → ok' e s)
    {s : Config Shared Local} (hs : S.Reach ok s) : S.Reach ok' s := by
  induction hs with
  | init hσ => exact .init hσ
  | move _ hok hmove ih => exact .move ih (h _ _ hok) hmove

/-! ## Segments of a schedule -/

theorem Steps.trans {ok : Guard Shared Local} {s t u : Config Shared Local}
    (h₁ : S.Steps ok s t) (h₂ : S.Steps ok t u) : S.Steps ok s u := by
  induction h₂ with
  | refl => exact h₁
  | move _ hok hmove ih => exact .move ih hok hmove

/-- A segment that starts in a reachable configuration ends in one, when its guard is the
narrower. -/
theorem Reach.steps {ok ok' : Guard Shared Local} (h : ∀ e s, ok' e s → ok e s)
    {s t : Config Shared Local} (hs : S.Reach ok s) (ht : S.Steps ok' s t) : S.Reach ok t := by
  induction ht with
  | refl => exact hs
  | move _ hok hmove ih => exact .move ih (h _ _ hok) hmove

/-- What holds where a segment begins and survives its starts and steps holds where it ends. -/
theorem Steps.stable {ok ok' : Guard Shared Local} {I : Config Shared Local → Prop}
    (hle : ∀ e s, ok' e s → ok e s)
    (hstart : ∀ s c l, S.Reach ok s → I s → ok' (.start c l) s → s.calls c = none → S.start l →
      I (s.put c l s.shared))
    (hstep : ∀ s c l l' σ', S.Reach ok s → I s → ok' (.step c) s → s.calls c = some l →
      S.step c l s.shared l' σ' → I (s.put c l' σ'))
    {s t : Config Shared Local} (hs : S.Reach ok s) (hI : I s) (ht : S.Steps ok' s t) : I t := by
  induction ht with
  | refl => exact hI
  | move hst hok hmove ih =>
    have hreach := hs.steps hle hst
    cases hmove with
    | start hc hl => exact hstart _ _ _ hreach ih hok hc hl
    | step hc hs' => exact hstep _ _ _ _ _ hreach ih hok hc hs'

/-! ## Runs -/

/-- Every reachable configuration is the last of some run. -/
theorem Reach.run {ok : Guard Shared Local} {s : Config Shared Local} (h : S.Reach ok s) :
    ∃ past, S.Run ok (s :: past) := by
  induction h with
  | init hσ => exact ⟨[], .init hσ⟩
  | move _ hok hmove ih =>
    obtain ⟨past, hpast⟩ := ih
    exact ⟨_, .move hpast hok hmove⟩

/-- The last configuration of a run is reachable. -/
theorem Run.reach {ok : Guard Shared Local} {s : Config Shared Local}
    {past : List (Config Shared Local)} (h : S.Run ok (s :: past)) : S.Reach ok s := by
  generalize hr : s :: past = run at h
  induction h generalizing s past with
  | init hσ =>
    obtain ⟨rfl, -⟩ := List.cons.inj hr
    exact .init hσ
  | move _ hok hmove ih =>
    obtain ⟨rfl, -⟩ := List.cons.inj hr
    exact .move (ih rfl) hok hmove

/-! ## Systems that see less -/

/-- `T` sees of `S` only what `shared` and `call` keep, and matches each step a schedule within `ok`
takes. -/
structure Hom {Shared' Local' : Type} (S : System Shared Local) (ok : Guard Shared Local)
    (T : System Shared' Local') where
  shared : Shared → Shared'
  call : Local → Local'
  init : ∀ {σ}, S.init σ → T.init (shared σ)
  start : ∀ {l}, S.start l → T.start (call l)
  step : ∀ {s c l l' σ'}, S.Reach ok s → ok (.step c) s → s.calls c = some l →
    S.step c l s.shared l' σ' → T.step c (call l) (shared s.shared) (call l') (shared σ')

namespace Hom

variable {ok : Guard Shared Local} {Shared' Local' : Type} {T : System Shared' Local'}

/-- The event as `T` sees it. -/
def event (f : Hom S ok T) : Event Local → Event Local'
  | .start c l => .start c (f.call l)
  | .step c => .step c

/-- The configuration as `T` sees it. -/
def config (f : Hom S ok T) (s : Config Shared Local) : Config Shared' Local' :=
  ⟨f.shared s.shared, fun c => (s.calls c).map f.call⟩

@[simp]
theorem config_shared (f : Hom S ok T) (s : Config Shared Local) :
    (f.config s).shared = f.shared s.shared := rfl

@[simp]
theorem config_calls (f : Hom S ok T) (s : Config Shared Local) (c : CallId) :
    (f.config s).calls c = (s.calls c).map f.call := rfl

theorem config_put (f : Hom S ok T) (s : Config Shared Local) (c : CallId) (l : Local)
    (σ : Shared) :
    f.config (s.put c l σ) = (f.config s).put c (f.call l) (f.shared σ) :=
  Config.map_put f.shared f.call s c l σ

/-- `T` takes the matching event. -/
theorem move (f : Hom S ok T) {e : Event Local} {s s' : Config Shared Local} (hs : S.Reach ok s)
    (hok : ok e s) (h : S.Move e s s') : T.Move (f.event e) (f.config s) (f.config s') := by
  cases h with
  | start hc hl =>
    rw [f.config_put]
    exact .start (by simp [hc]) (f.start hl)
  | step hc hst =>
    rw [f.config_put]
    exact .step (by simp [hc]) (f.step hs hok hc hst)

/-- Whatever `S` reaches, `T` reaches as it sees it. -/
theorem reach (f : Hom S ok T) {ok' : Guard Shared' Local'}
    (hok : ∀ e s, S.Reach ok s → ok e s → ok' (f.event e) (f.config s))
    {s : Config Shared Local} (h : S.Reach ok s) : T.Reach ok' (f.config s) := by
  induction h with
  | init hσ => exact .init (f.init hσ)
  | move hs hok' hmove ih => exact .move ih (hok _ _ hs hok') (f.move hs hok' hmove)

/-- The same, where the schedules of `T` do not matter. -/
theorem reach_any (f : Hom S ok T) {s : Config Shared Local} (h : S.Reach ok s) :
    T.Reach (fun _ _ => True) (f.config s) :=
  f.reach (fun _ _ _ _ => trivial) h

end Hom

end System

/-! ## Schedules as data -/

/-- One entry of a written-down schedule; `Choice` is what the environment answers a step. -/
inductive Act (Local Choice : Type) where
  | start (c : CallId) (l : Local)
  | step (c : CallId) (ch : Choice)

/-- No call is named `n` or above. -/
def Config.Within (n : Nat) (s : Config Shared Local) : Prop := ∀ c, n ≤ c → s.calls c = none

/-- Whether every call below `n` satisfies `p`. -/
def Config.allBelow (n : Nat) (p : Local → Bool) (s : Config Shared Local) : Bool :=
  (List.range n).all fun c => (s.calls c).all p

theorem Config.Within.of_allBelow {n : Nat} {s : Config Shared Local} (h : s.Within n)
    {p : Local → Bool} (hp : s.allBelow n p = true) {c : CallId} {l : Local}
    (hc : s.calls c = some l) : p l = true := by
  by_cases hlt : c < n
  · have hall := List.all_eq_true.mp hp c (List.mem_range.mpr hlt)
    simpa [hc] using hall
  · rw [h c (Nat.le_of_not_lt hlt)] at hc
    cases hc

/-- A system that can be replayed: `check` decides the guard on configurations within `bound`. -/
structure Replay (Shared Local Choice : Type) where
  bound : Nat
  starts : Local → Bool
  next : CallId → Local → Choice → Shared → Option (Local × Shared)
  check : Event Local → Config Shared Local → Bool

namespace Replay

variable {Choice : Type} (R : Replay Shared Local Choice)

/-- Replay one entry; `none` when the schedule asks for something that cannot happen. -/
def act (s : Config Shared Local) : Act Local Choice → Option (Config Shared Local)
  | .start c l =>
    if decide (c < R.bound) && (s.calls c).isNone && R.starts l && R.check (.start c l) s then
      some (s.put c l s.shared)
    else none
  | .step c ch =>
    match s.calls c with
    | none => none
    | some l =>
      if R.check (.step c) s then (R.next c l ch s.shared).map fun r => s.put c r.1 r.2 else none

/-- Replay a schedule. -/
def exec (s : Config Shared Local) : List (Act Local Choice) → Option (Config Shared Local)
  | [] => some s
  | a :: rest => (R.act s a).bind fun t => exec t rest

/-- What `R` replays, `S` can do within `ok`. -/
structure Sound (S : System Shared Local) (ok : Guard Shared Local) : Prop where
  starts : ∀ l, R.starts l = true → S.start l
  next : ∀ c l ch σ l' σ', R.next c l ch σ = some (l', σ') → S.step c l σ l' σ'
  check : ∀ e s, s.Within R.bound → R.check e s = true → ok e s

variable {R} {S : System Shared Local} {ok : Guard Shared Local}

theorem Sound.act (hR : R.Sound S ok) {s t : Config Shared Local} {a : Act Local Choice}
    (hs : s.Within R.bound) (h : R.act s a = some t) :
    t.Within R.bound ∧ ∃ e, ok e s ∧ S.Move e s t := by
  cases a with
  | start c l =>
    simp only [Replay.act, Option.ite_none_right_eq_some, Bool.and_eq_true, decide_eq_true_eq,
      Option.isNone_iff_eq_none, Option.some.injEq] at h
    obtain ⟨⟨⟨⟨hlt, hc⟩, hl⟩, hcheck⟩, rfl⟩ := h
    refine ⟨fun d hd => ?_, _, hR.check _ _ hs hcheck, .start hc (hR.starts l hl)⟩
    rw [Config.put_calls_ne _ _ _ (Nat.ne_of_gt (Nat.lt_of_lt_of_le hlt hd))]
    exact hs d hd
  | step c ch =>
    simp only [Replay.act] at h
    split at h
    · cases h
    · rename_i l hc
      simp only [Option.ite_none_right_eq_some, Option.map_eq_some_iff] at h
      obtain ⟨hcheck, ⟨l', σ'⟩, hn, rfl⟩ := h
      refine ⟨fun d hd => ?_, _, hR.check _ _ hs hcheck, .step hc (hR.next c l ch _ l' σ' hn)⟩
      have hne : d ≠ c := by
        rintro rfl
        rw [hs d hd] at hc
        cases hc
      rw [Config.put_calls_ne _ _ _ hne]
      exact hs d hd

/-- A schedule that replays is a segment of the system. -/
theorem Sound.steps (hR : R.Sound S ok) {acts : List (Act Local Choice)} :
    ∀ {s t : Config Shared Local}, s.Within R.bound → R.exec s acts = some t →
      t.Within R.bound ∧ S.Steps ok s t := by
  induction acts with
  | nil =>
    intro s t hs h
    obtain rfl := Option.some.inj h
    exact ⟨hs, .refl⟩
  | cons a rest ih =>
    intro s t hs h
    obtain ⟨u, hu, hrest⟩ := Option.bind_eq_some_iff.mp h
    obtain ⟨hwithin, e, hok, hmove⟩ := hR.act hs hu
    obtain ⟨ht, hsteps⟩ := ih hwithin hrest
    exact ⟨ht, (System.Steps.move .refl hok hmove).trans hsteps⟩

/-- A schedule that replays from the start reaches what it replays to. -/
theorem Sound.reach (hR : R.Sound S ok) {σ : Shared} (hσ : S.init σ)
    {acts : List (Act Local Choice)} {t : Config Shared Local}
    (h : R.exec ⟨σ, fun _ => none⟩ acts = some t) : S.Reach ok t :=
  System.Reach.steps (fun _ _ h => h) (.init hσ) (hR.steps (fun _ _ => rfl) h).2

end Replay

end CwTariWallet.Interleaving
