/-
# CwTariWallet.Recording -- what a call's steps were answered, kept as a history

A step of a `System` hides what the environment answered it.  A `Recording` writes down, for each call,
what its steps have to say about their answers, and changes nothing else: what the recorded system
reaches the system reaches (`forget`), and what the system reaches the recorded one reaches with some
history (`exists_records`).  A call's record and its position are then two sides of one course of steps
(`own_course`).
-/
import CwTariWallet.Interleaving

namespace CwTariWallet.Interleaving

variable {Shared Local Choice E : Type}

/-- How the steps of `S` come about, and what a call's step from a position records of its answer. -/
structure Recording (S : System Shared Local) (Choice E : Type) where
  next : CallId → Local → Choice → Shared → Option (Local × Shared)
  record : CallId → Local → Choice → Shared → List E
  step_iff : ∀ c l σ l' σ', S.step c l σ l' σ' ↔ ∃ ch, next c l ch σ = some (l', σ')

/-- The shared state, and what every call has recorded so far, oldest first. -/
structure Recorded (Shared E : Type) where
  shared : Shared
  records : CallId → List E

namespace Recording

variable {S : System Shared Local} (R : Recording S Choice E)

/-- The state once call `c` has moved the shared state to `σ` and recorded `es`. -/
def write (r : Recorded Shared E) (c : CallId) (es : List E) (σ : Shared) : Recorded Shared E :=
  ⟨σ, Function.update r.records c (r.records c ++ es)⟩

@[simp]
theorem write_shared (r : Recorded Shared E) (c : CallId) (es : List E) (σ : Shared) :
    (write r c es σ).shared = σ := rfl

@[simp]
theorem write_records_self (r : Recorded Shared E) (c : CallId) (es : List E) (σ : Shared) :
    (write r c es σ).records c = r.records c ++ es := by
  simp [write]

theorem write_records_ne (r : Recorded Shared E) {c d : CallId} (es : List E) (σ : Shared)
    (h : d ≠ c) : (write r c es σ).records d = r.records d := by
  simp [write, h]

/-- The system that keeps the history. -/
def recorded : System (Recorded Shared E) Local where
  init r := S.init r.shared ∧ r.records = fun _ => []
  start := S.start
  step c l r l' r' := ∃ ch σ', R.next c l ch r.shared = some (l', σ') ∧
    r' = write r c (R.record c l ch r.shared) σ'

/-- The configuration without its history. -/
def plain (s : Config (Recorded Shared E) Local) : Config Shared Local := ⟨s.shared.shared, s.calls⟩

@[simp]
theorem plain_shared (s : Config (Recorded Shared E) Local) : (plain s).shared = s.shared.shared := rfl

@[simp]
theorem plain_calls (s : Config (Recorded Shared E) Local) (c : CallId) :
    (plain s).calls c = s.calls c := rfl

@[simp]
theorem plain_put (s : Config (Recorded Shared E) Local) (c : CallId) (l : Local)
    (r : Recorded Shared E) : plain (s.put c l r) = (plain s).put c l r.shared := rfl

/-- A guard on the system, read on the recorded one. -/
def guard (ok : Guard Shared Local) : Guard (Recorded Shared E) Local := fun e s => ok e (plain s)

variable {R} {ok : Guard Shared Local}

/-- Keeping a history changes nothing that is reached. -/
theorem forget {s : Config (Recorded Shared E) Local} (h : R.recorded.Reach (guard ok) s) :
    S.Reach ok (plain s) := by
  induction h with
  | init hσ => exact .init hσ.1
  | @move e s s' _ hok hmove ih =>
    refine .move (e := e) ih hok ?_
    cases hmove with
    | start hc hl => exact .start hc hl
    | step hc hst =>
      obtain ⟨ch, σ', hnext, rfl⟩ := hst
      exact .step hc ((R.step_iff _ _ _ _ _).mpr ⟨ch, hnext⟩)

/-- Whatever the system reaches has some history. -/
theorem exists_records {s : Config Shared Local} (h : S.Reach ok s) :
    ∃ t, R.recorded.Reach (guard ok) t ∧ plain t = s := by
  induction h with
  | @init σ hσ => exact ⟨⟨⟨σ, fun _ => []⟩, fun _ => none⟩, .init ⟨hσ, rfl⟩, rfl⟩
  | @move e s s' _ hok hmove ih =>
    obtain ⟨t, ht, rfl⟩ := ih
    cases hmove with
    | @start _ c l hc hl => exact ⟨t.put c l t.shared, .move ht hok (.start hc hl), rfl⟩
    | @step _ c l l' σ' hc hst =>
      obtain ⟨ch, hnext⟩ := (R.step_iff _ _ _ _ _).mp hst
      exact ⟨t.put c l' (write t.shared c (R.record c l ch t.shared.shared) σ'),
        .move ht hok (.step hc ⟨ch, σ', hnext, rfl⟩), rfl⟩

/-- A call that has not been made has recorded nothing. -/
theorem records_of_free {ok : Guard (Recorded Shared E) Local}
    {s : Config (Recorded Shared E) Local} (h : R.recorded.Reach ok s) :
    ∀ c, s.calls c = none → s.shared.records c = [] := by
  refine h.invariant (I := fun s => ∀ c, s.calls c = none → s.shared.records c = []) ?_ ?_ ?_
  · intro r hr c _
    rw [hr.2]
  · intro s c l _ ih _ hfree _ d hd
    have hne : d ≠ c := by
      rintro rfl
      rw [Config.put_calls_self] at hd
      cases hd
    rw [Config.put_calls_ne _ _ _ hne] at hd
    exact ih d hd
  · rintro s c l l' r' _ ih _ hc ⟨ch, σ', -, rfl⟩ d hd
    have hne : d ≠ c := by
      rintro rfl
      rw [Config.put_calls_self] at hd
      cases hd
    rw [Config.put_calls_ne _ _ _ hne] at hd
    show (write _ _ _ _).records d = []
    rw [write_records_ne _ _ _ hne]
    exact ih d hd

/-- What holds of a call where it starts, with nothing recorded, and survives its own steps, each adding
what it records, holds of it ever after: nobody else moves the call or writes its record. -/
theorem own_course {ok : Guard (Recorded Shared E) Local} {A : CallId → Local → List E → Prop}
    (hstart : ∀ c l, S.start l → A c l [])
    (hown : ∀ s c l ch l' σ', R.recorded.Reach ok s → s.calls c = some l →
      A c l (s.shared.records c) → R.next c l ch s.shared.shared = some (l', σ') →
        A c l' (s.shared.records c ++ R.record c l ch s.shared.shared))
    {s : Config (Recorded Shared E) Local} (h : R.recorded.Reach ok s) {c : CallId} {l : Local}
    (hc : s.calls c = some l) : A c l (s.shared.records c) := by
  refine h.invariant (I := fun s => ∀ c l, s.calls c = some l → A c l (s.shared.records c))
    ?_ ?_ ?_ c l hc
  · intro r _ c l hc
    cases hc
  · intro s c l hs ih _ hfree hl d m hd
    rcases Config.put_calls_eq_some hd with ⟨rfl, rfl⟩ | ⟨-, hd⟩
    · rw [show (s.put d m s.shared).shared.records d = [] from records_of_free hs d hfree]
      exact hstart d m hl
    · exact ih d m hd
  · rintro s c l l' r' hs ih _ hc ⟨ch, σ', hnext, rfl⟩ d m hd
    rcases Config.put_calls_eq_some hd with ⟨rfl, rfl⟩ | ⟨hne, hd⟩
    · rw [Config.put_shared, write_records_self]
      exact hown s d l ch m σ' hs hc (ih d l hc) hnext
    · rw [Config.put_shared, write_records_ne _ _ _ hne]
      exact ih d m hd

/-- A record is never taken back. -/
theorem records_grow {s : Config (Recorded Shared E) Local} {c : CallId} {l l' : Local}
    {r' : Recorded Shared E} (h : R.recorded.step c l s.shared l' r') {d : CallId} {e : E}
    (he : e ∈ s.shared.records d) : e ∈ r'.records d := by
  obtain ⟨ch, σ', -, rfl⟩ := h
  by_cases hdc : d = c
  · subst hdc
    rw [write_records_self]
    exact List.mem_append_left _ he
  · rwa [write_records_ne _ _ _ hdc]

/-! ## Schedules of the recorded system, written down -/

/-- The recorded system, replayed like the system. -/
def replay (R : Recording S Choice E) (bound : Nat) (starts : Local → Bool)
    (check : Event Local → Config Shared Local → Bool) :
    Replay (Recorded Shared E) Local Choice where
  bound := bound
  starts := starts
  next c l ch r := (R.next c l ch r.shared).map fun p => (p.1, write r c (R.record c l ch r.shared) p.2)
  check e s := check e (plain s)

theorem replay_sound {bound : Nat} {starts : Local → Bool}
    {check : Event Local → Config Shared Local → Bool}
    (hstarts : ∀ l, starts l = true → S.start l)
    (hcheck : ∀ e s, s.Within bound → check e s = true → ok e s) :
    (R.replay bound starts check).Sound R.recorded (guard ok) where
  starts := hstarts
  next c l ch r l' r' h := by
    obtain ⟨p, hp, heq⟩ := Option.map_eq_some_iff.mp h
    obtain ⟨rfl, rfl⟩ := Prod.mk.inj heq
    exact ⟨ch, p.2, hp, rfl⟩
  check e s hs h := hcheck e (plain s) hs h

end Recording

end CwTariWallet.Interleaving
