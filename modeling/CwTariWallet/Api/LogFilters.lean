/-
# CwTariWallet.Api.LogFilters -- the stored levels and the global maximum

A record is first held against `log`'s global maximum and only then against the stored levels.  Whoever
changes the levels computes their maximum under the lock of `LOG_LEVELS` and publishes it after letting
the lock go, so another change can come in between: the one that published last need not be the one that
stored last, and the maximum stays behind (`not_filtersAgree`).  As long as no call publishes over a later
one (`PublishesInOrder`), the two filters agree whenever all calls have returned
(`filtersAgree_of_publishesInOrder`).
-/
import CwTariWallet.Interleaving
import CwTariWallet.Api.MaxLevel

namespace CwTariWallet.Logger

open Interleaving

/-! ## The process globals -/

structure Globals where
  /-- `LOG_LEVELS`. -/
  levels : Option LogLevels
  /-- The maximum of the `log` crate. -/
  maxLevel : LevelFilter
  /-- `LOGGER_INSTALLED`. -/
  installed : Bool
  /-- The call that holds its mutex. -/
  installer : Option CallId

/-- What `init_logger` reads of a `LoggerConfig`. -/
structure InitConfig extends LoggerConfig where
  maxFileSizeMb : Nat

/-- `impl Default for LoggerConfig`. -/
def InitConfig.default : InitConfig := { LoggerConfig.default with maxFileSizeMb := 10 }

/-- Where a call stands. -/
inductive Call where
  /-- `init_logger`, before it locks `LOGGER_INSTALLED`. -/
  | initLogger (config : Option InitConfig)
  /-- With the lock, on a logger that is not installed. -/
  | preparing (config : InitConfig)
  /-- `set_levels(Some(levels))` is done; `dispatch.apply()` comes next. -/
  | applying (maxLevel : LevelFilter)
  /-- The logger is in place; `log::set_max_level(max_level)` comes next. -/
  | publishing (maxLevel : LevelFilter)
  /-- The maximum is set; `*installed = true` comes next. -/
  | installing
  /-- `dispatch.apply()` has failed; `set_levels(None)` comes next. -/
  | withdrawing (error : String)
  /-- `set_log_level`, before it locks `LOG_LEVELS`. -/
  | setLogLevel (level : LogLevel)
  /-- The level is stored; `log::set_max_level(max_level)` comes next. -/
  | setting (maxLevel : LevelFilter)
  | returned (result : Except String Unit)

/-- What the file system and the logging crates answer a step. -/
structure Answer where
  /-- What goes wrong before the levels are stored. -/
  unprepared : Option String
  /-- What `dispatch.apply()` says: an error, or the maximum that it leaves behind. -/
  applied : Except String LevelFilter

namespace Call

/-- The calls that hold the mutex of `LOGGER_INSTALLED`. -/
def holds : Call → Bool
  | preparing _ | applying _ | publishing _ | installing | withdrawing _ => true
  | _ => false

/-- The calls of those that have stored levels. -/
def hasStored : Call → Bool
  | applying _ | publishing _ | installing | withdrawing _ => true
  | _ => false

/-- Those of them with the maximum or the levels still to settle. -/
def revising : Call → Bool
  | applying _ | publishing _ | withdrawing _ => true
  | _ => false

/-- The maximum a call has computed and not published yet. -/
def unpublished : Call → Option LevelFilter
  | applying maxLevel | publishing maxLevel | setting maxLevel => some maxLevel
  | _ => none

/-- The maximum a call publishes with its next step. -/
def publishes : Call → Option LevelFilter
  | publishing maxLevel | setting maxLevel => some maxLevel
  | _ => none

/-- The step of a call. -/
def next (c : CallId) (call : Call) (ch : Answer) (σ : Globals) : Option (Call × Globals) :=
  match call with
  | initLogger config =>
    if σ.installer ≠ none then none
    else if σ.installed then some (returned (.ok ()), σ)
    else some (preparing (config.getD .default), { σ with installer := some c })
  | preparing config =>
    if config.maxFileSizeMb = 0 then
      some (returned (.error "max_file_size_mb must be greater than 0"), { σ with installer := none })
    else match ch.unprepared with
      | some e => some (returned (.error e), { σ with installer := none })
      | none =>
        let levels := LogLevels.new config.toLoggerConfig
        some (applying levels.maxLevel, { σ with levels := some levels })
  | applying maxLevel =>
    match ch.applied with
    | .error e => some (withdrawing e, σ)
    | .ok left => some (publishing maxLevel, { σ with maxLevel := left })
  | publishing maxLevel => some (installing, { σ with maxLevel })
  | installing => some (returned (.ok ()), { σ with installed := true, installer := none })
  | withdrawing e =>
    some (returned (.error ("Logger could not be initialized: " ++ e ++
      ". Logs will go to the existing logger.")), { σ with levels := none, installer := none })
  | setLogLevel level =>
    match σ.levels with
    | none => some (returned (.error "Logger is not initialized; call init_logger first"), σ)
    | some levels =>
      some (setting (levels.setLogLevel level).maxLevel,
        { σ with levels := some (levels.setLogLevel level) })
  | setting maxLevel => some (returned (.ok ()), { σ with maxLevel })
  | returned _ => none

end Call

/-- Both entry points, called from any number of threads. -/
def logger : System Globals Call where
  init σ := σ.levels = none ∧ σ.installed = false ∧ σ.installer = none
  start call := (∃ config, call = .initLogger config) ∨ ∃ level, call = .setLogLevel level
  step c call σ call' σ' := ∃ ch, call.next c ch σ = some (call', σ')

/-- No call is in progress. -/
def Quiet (s : Config Globals Call) : Prop := ∀ c call, s.calls c = some call → ∃ result, call = .returned result

/-- What a quiet, installed logger should be: the maximum is that of the levels, and so it keeps no record
back that the levels let through. -/
def FiltersAgree (σ : Globals) : Prop :=
  ∃ levels, σ.levels = some levels ∧ σ.maxLevel = levels.maxLevel ∧
    ∀ level target, (level ≤ σ.maxLevel ∧ recordEnabled σ.levels level target = true) ↔
      level ≤ levels.levelFor target

/-- Nobody publishes over a later store: when a call publishes, its maximum is that of the stored levels, or
another call whose maximum that is has not published yet. -/
def PublishesInOrder : Guard Globals Call
  | .start _ _, _ => True
  | .step c, s => ∀ call v levels, s.calls c = some call → call.publishes = some v →
      s.shared.levels = some levels → v = levels.maxLevel ∨
        ∃ d other, d ≠ c ∧ s.calls d = some other ∧ other.unpublished = some levels.maxLevel

/-! ## What a step does -/

open Call

/-- The steps of a call, one by one. -/
inductive Moves (c : CallId) : Call → Globals → Call → Globals → Prop
  | already {σ config result} : σ.installer = none → Moves c (initLogger config) σ (returned result) σ
  | lock {σ config config'} : σ.installer = none → σ.installed = false →
      Moves c (initLogger config) σ (preparing config') { σ with installer := some c }
  | refuse {σ config result} : Moves c (preparing config) σ (returned result) { σ with installer := none }
  | store {σ config} (levels : LogLevels) :
      Moves c (preparing config) σ (applying levels.maxLevel) { σ with levels := some levels }
  | apply {σ v} (left : LevelFilter) : Moves c (applying v) σ (publishing v) { σ with maxLevel := left }
  | fail {σ v e} : Moves c (applying v) σ (withdrawing e) σ
  | publish {σ v} : Moves c (publishing v) σ installing { σ with maxLevel := v }
  | install {σ result} :
      Moves c installing σ (returned result) { σ with installed := true, installer := none }
  | withdraw {σ e result} :
      Moves c (withdrawing e) σ (returned result) { σ with levels := none, installer := none }
  | refuseLevel {σ level result} : Moves c (setLogLevel level) σ (returned result) σ
  | storeLevel {σ level before} (levels : LogLevels) : σ.levels = some before →
      Moves c (setLogLevel level) σ (setting levels.maxLevel) { σ with levels := some levels }
  | publishLevel {σ v result} : Moves c (setting v) σ (returned result) { σ with maxLevel := v }

theorem moves_of_step {c : CallId} {call call' : Call} {σ σ' : Globals}
    (h : logger.step c call σ call' σ') : Moves c call σ call' σ' := by
  obtain ⟨ch, h⟩ := h
  cases call with
  | initLogger config =>
    simp only [next, Option.ite_none_left_eq_some, not_not] at h
    obtain ⟨hfree, h⟩ := h
    split at h
    next => cases h; exact .already hfree
    next hinst => cases h; exact .lock hfree (by simpa using hinst)
  | preparing config =>
    simp only [next] at h
    split at h
    next => cases h; exact .refuse
    next =>
      cases hprep : ch.unprepared with
      | some e => rw [hprep] at h; cases h; exact .refuse
      | none => rw [hprep] at h; cases h; exact .store _
  | applying v =>
    simp only [next] at h
    cases happly : ch.applied with
    | error e => rw [happly] at h; cases h; exact .fail
    | ok left => rw [happly] at h; cases h; exact .apply left
  | publishing v => cases h; exact .publish
  | installing => cases h; exact .install
  | withdrawing e => cases h; exact .withdraw
  | setLogLevel level =>
    simp only [next] at h
    cases hlevels : σ.levels with
    | none => rw [hlevels] at h; cases h; exact .refuseLevel
    | some before => rw [hlevels] at h; cases h; exact .storeLevel _ hlevels
  | setting v => cases h; exact .publishLevel
  | returned result => cases h

/-! ## The installer is alone -/

/-- A call with the mutex is the installer, nothing is installed yet, and what it stored is there. -/
def Installs (c : CallId) (call : Call) (σ : Globals) : Prop :=
  call.holds = true → σ.installer = some c ∧ σ.installed = false ∧
    (call.hasStored = true → σ.levels.isSome = true)

theorem installs_of_reach {ok : Guard Globals Call} {s : Config Globals Call} (h : logger.Reach ok s)
    {c : CallId} {call : Call} (hc : s.calls c = some call) : Installs c call s.shared := by
  refine h.outline (A := Installs) ?_ ?_ ?_ hc
  · rintro s c call - - (⟨config, rfl⟩ | ⟨level, rfl⟩) hholds
    · cases hholds
    · cases hholds
  · intro s c call call' σ' _ _ _ ih hstep hholds
    cases moves_of_step hstep with
    | lock hfree hinst => exact ⟨rfl, hinst, fun hstored => by cases hstored⟩
    | store levels => exact ⟨(ih rfl).1, (ih rfl).2.1, fun _ => rfl⟩
    | apply left => exact ih rfl
    | fail => exact ih rfl
    | publish => exact ih rfl
    | already | refuse | install | withdraw | refuseLevel | storeLevel | publishLevel => cases hholds
  · intro s c call call' σ' d other _ _ _ ih hstep hne _ hother hholds
    obtain ⟨hinstaller, hinst, hlevels⟩ := hother hholds
    have hholder : call.holds = true → d = c := by
      intro hc
      have hboth := (ih hc).1
      rw [hinstaller, Option.some.injEq] at hboth
      exact hboth
    cases moves_of_step hstep with
    | lock hfree => rw [hinstaller] at hfree; cases hfree
    | storeLevel levels => exact ⟨hinstaller, hinst, fun _ => rfl⟩
    | already | refuseLevel | publishLevel => exact ⟨hinstaller, hinst, hlevels⟩
    | refuse | store | apply | fail | publish | install | withdraw => exact absurd (hholder rfl) hne

/-- An installed logger has its levels. -/
theorem levels_of_installed {ok : Guard Globals Call} {s : Config Globals Call} (h : logger.Reach ok s) :
    s.shared.installed = true → s.shared.levels.isSome = true := by
  refine h.invariant (I := fun s => s.shared.installed = true → s.shared.levels.isSome = true) ?_ ?_ ?_
  · intro σ hσ hinst
    rw [show σ.installed = false from hσ.2.1] at hinst
    cases hinst
  · intro s c call _ ih _ _ _
    exact ih
  · intro s c call call' σ' hreach ih _ hc hstep hinst
    have hown := installs_of_reach hreach hc
    cases moves_of_step hstep with
    | already | refuseLevel | publishLevel | lock => exact ih hinst
    | store | storeLevel => rfl
    | install => exact (hown rfl).2.2 rfl
    | refuse | apply | fail | publish | withdraw =>
      have hnot : s.shared.installed = true := hinst
      rw [(hown rfl).2.1] at hnot
      cases hnot

/-! ## Agreement -/

/-- A call that will still bring the maximum up to `v`, or settle it otherwise. -/
def Ahead (v : LevelFilter) (call : Call) : Prop :=
  call.revising = true ∨ call.unpublished = some v

theorem ahead_of_unpublished {v : LevelFilter} {call : Call} (h : call.unpublished = some v) : Ahead v call :=
  Or.inr h

/-- The maximum is that of the stored levels, or somebody still has to publish. -/
def Settled (s : Config Globals Call) : Prop :=
  ∀ levels, s.shared.levels = some levels →
    s.shared.maxLevel = levels.maxLevel ∨ ∃ c call, s.calls c = some call ∧ Ahead levels.maxLevel call

/-- A step that leaves the levels and the maximum alone. -/
theorem Settled.keep {s : Config Globals Call} (h : Settled s) {c : CallId} {call : Call} {σ' : Globals}
    (hlevels : σ'.levels = s.shared.levels) (hmax : σ'.maxLevel = s.shared.maxLevel)
    (hkeep : ∀ v l, s.calls c = some l → Ahead v l → Ahead v call) : Settled (s.put c call σ') := by
  intro levels hsome
  rw [Config.put_shared] at hsome ⊢
  rw [hlevels] at hsome
  rcases h levels hsome with hagree | hahead
  · left
    rw [hmax, hagree]
  · exact Or.inr (Config.exists_put (hkeep levels.maxLevel) hahead)

/-- A step that publishes `v`, in order. -/
theorem Settled.publish {s : Config Globals Call} {c : CallId} {call call' : Call} {v : LevelFilter}
    (hc : s.calls c = some call) (hv : call.publishes = some v) (hok : PublishesInOrder (.step c) s) :
    Settled (s.put c call' { s.shared with maxLevel := v }) := by
  intro levels hsome
  rw [Config.put_shared] at hsome ⊢
  rcases hok call v levels hc hv hsome with rfl | ⟨d, other, hne, hd, hother⟩
  · exact Or.inl rfl
  · refine Or.inr ⟨d, other, ?_, ahead_of_unpublished hother⟩
    rw [Config.put_calls_ne _ _ _ hne]
    exact hd

theorem settled_of_reach {s : Config Globals Call} (h : logger.Reach PublishesInOrder s) : Settled s := by
  refine h.invariant (I := Settled) ?_ ?_ ?_
  · intro σ hσ levels hsome
    rw [show σ.levels = none from hσ.1] at hsome
    cases hsome
  · intro s c call _ ih _ hfree _
    apply ih.keep rfl rfl
    intro v l hl
    rw [hfree] at hl
    cases hl
  · intro s c call call' σ' _ ih hok hc hstep
    -- a call of which nothing more is to come has nothing to keep
    have hnone (hquiet : ∀ v, ¬ Ahead v call) (after : Call) :
        ∀ v l, s.calls c = some l → Ahead v l → Ahead v after := by
      intro v l hl hahead
      rw [hc, Option.some.injEq] at hl
      exact absurd (hl ▸ hahead) (hquiet v)
    cases moves_of_step hstep with
    | already | lock | refuse | install | refuseLevel =>
      apply ih.keep rfl rfl
      apply hnone
      rintro v (hrevising | hunpublished)
      · cases hrevising
      · cases hunpublished
    | store levels | storeLevel levels =>
      intro levels' hsome
      obtain rfl : levels = levels' := Option.some.inj hsome
      exact Or.inr ⟨c, _, Config.put_calls_self _ _ _ _, ahead_of_unpublished rfl⟩
    | apply | fail =>
      intro levels hsome
      exact Or.inr ⟨c, _, Config.put_calls_self _ _ _ _, Or.inl rfl⟩
    | withdraw =>
      intro levels hsome
      cases hsome
    | publish | publishLevel => exact Settled.publish hc rfl hok

/-- Publishing in order, the two filters agree whenever the logger is installed and no call is in progress:
the stored levels are in force, and the maximum keeps none of their records back. -/
theorem filtersAgree_of_publishesInOrder {s : Config Globals Call} (h : logger.Reach PublishesInOrder s)
    (hquiet : Quiet s) (hinstalled : s.shared.installed = true) : FiltersAgree s.shared := by
  obtain ⟨levels, hlevels⟩ := Option.isSome_iff_exists.mp (levels_of_installed h hinstalled)
  have hmax : s.shared.maxLevel = levels.maxLevel := by
    rcases settled_of_reach h levels hlevels with hagree | ⟨c, call, hc, hahead⟩
    · exact hagree
    · obtain ⟨result, rfl⟩ := hquiet c call hc
      rcases hahead with hrevising | hunpublished
      · cases hrevising
      · cases hunpublished
  refine ⟨levels, hlevels, hmax, fun level target => ?_⟩
  rw [hmax, hlevels, recordEnabled, Option.any_some, decide_eq_true_eq]
  constructor
  · intro hboth
    exact hboth.2
  · intro hle
    exact ⟨le_trans hle (levels.levelFor_le_maxLevel target), hle⟩

/-! ## Two toggles -/

/-- The globals of a process that has just started. -/
def fresh : Globals := ⟨none, .off, false, none⟩

/-- The calls that have not taken a step. -/
def Call.isEntry : Call → Bool
  | initLogger _ | setLogLevel _ => true
  | _ => false

def Call.isReturned : Call → Bool
  | returned _ => true
  | _ => false

/-- Whether a step publishes nothing but the maximum of the stored levels. -/
def publishesOwn : Event Call → Config Globals Call → Bool
  | .start _ _, _ => true
  | .step c, s => (s.calls c).all fun call => call.publishes.all fun v =>
      s.shared.levels.all fun levels => decide (v = levels.maxLevel)

/-- Schedules of the logger, written down; the calls are named below three. -/
def replay (check : Event Call → Config Globals Call → Bool) : Replay Globals Call Answer where
  bound := 3
  starts := Call.isEntry
  next c call ch σ := call.next c ch σ
  check := check

theorem replay_sound {ok : Guard Globals Call} {check : Event Call → Config Globals Call → Bool}
    (hcheck : ∀ e s, check e s = true → ok e s) : (replay check).Sound logger ok where
  starts call h := by
    cases call with
    | initLogger config => exact Or.inl ⟨config, rfl⟩
    | setLogLevel level => exact Or.inr ⟨level, rfl⟩
    | _ => cases h
  next c call ch σ call' σ' h := ⟨ch, h⟩
  check e s _ h := hcheck e s h

theorem publishesOwn_inOrder (e : Event Call) (s : Config Globals Call) (h : publishesOwn e s = true) :
    PublishesInOrder e s := by
  cases e with
  | start c call => trivial
  | step c =>
    intro call v levels hc hv hlevels
    left
    simpa [publishesOwn, hc, hv, hlevels] using h

/-- What the crates answer where nothing goes wrong. -/
def Answer.fine : Answer := ⟨none, .ok .trace⟩

/-- `init_logger` with the default configuration, from start to end. -/
def initialises (c : CallId) : List (Act Call Answer) :=
  .start c (.initLogger none) :: List.replicate 5 (.step c .fine)

/-- Whether a schedule ends with all calls returned and the logger installed, at the level and the maximum. -/
def endsAt (level maxLevel : LevelFilter) (s : Config Globals Call) : Bool :=
  s.allBelow 3 Call.isReturned && s.shared.installed &&
    decide (s.shared.levels.bind (·.runtimeLevel) = some level) && decide (s.shared.maxLevel = maxLevel)

theorem quiet_of_allBelow {s : Config Globals Call} (h : s.Within 3)
    (hall : s.allBelow 3 Call.isReturned = true) : Quiet s := by
  intro c call hc
  have hreturned := h.of_allBelow hall hc
  cases call with
  | returned result => exact ⟨result, rfl⟩
  | _ => cases hreturned

/-- What a schedule that replays so has come to. -/
theorem reach_of_endsAt {ok : Guard Globals Call} {check : Event Call → Config Globals Call → Bool}
    (hcheck : ∀ e s, check e s = true → ok e s) {acts : List (Act Call Answer)} {level maxLevel : LevelFilter}
    (h : ((replay check).exec ⟨fresh, fun _ => none⟩ acts).map (endsAt level maxLevel) = some true) :
    ∃ s, logger.Reach ok s ∧ Quiet s ∧ s.shared.installed = true ∧
      s.shared.levels.bind (·.runtimeLevel) = some level ∧ s.shared.maxLevel = maxLevel := by
  obtain ⟨s, hs, hends⟩ := Option.map_eq_some_iff.mp h
  simp only [endsAt, Bool.and_eq_true, decide_eq_true_eq] at hends
  obtain ⟨⟨⟨hall, hinstalled⟩, hlevel⟩, hmax⟩ := hends
  have hR := replay_sound hcheck
  have hinit : logger.init fresh := ⟨rfl, rfl, rfl⟩
  have hreach := hR.reach hinit hs
  have hwithin := (hR.steps (fun _ _ => rfl) hs).1
  exact ⟨s, hreach, quiet_of_allBelow hwithin hall, hinstalled, hlevel, hmax⟩

/-- One toggle after the other leaves the filters at the second. -/
theorem filtersAgree_twoToggles : ∃ s, logger.Reach PublishesInOrder s ∧
    s.shared.levels.bind (·.runtimeLevel) = some .trace ∧ FiltersAgree s.shared := by
  have hrun : ((replay publishesOwn).exec ⟨fresh, fun _ => none⟩ (initialises 0 ++
      [.start 1 (.setLogLevel .error), .start 2 (.setLogLevel .trace), .step 1 .fine, .step 1 .fine,
        .step 2 .fine, .step 2 .fine])).map (endsAt .trace .trace) = some true := by decide +kernel
  obtain ⟨s, hreach, hquiet, hinstalled, hlevel, -⟩ := reach_of_endsAt publishesOwn_inOrder hrun
  exact ⟨s, hreach, hlevel, filtersAgree_of_publishesInOrder hreach hquiet hinstalled⟩

/-- Two toggles at once: Trace is stored last and Error published last, and no record below Error passes. -/
theorem not_filtersAgree : ¬ ∀ s, logger.Reach (fun _ _ => True) s → Quiet s → s.shared.installed = true →
    FiltersAgree s.shared := by
  intro hall
  have hrun : ((replay fun _ _ => true).exec ⟨fresh, fun _ => none⟩ (initialises 0 ++
      [.start 1 (.setLogLevel .error), .start 2 (.setLogLevel .trace), .step 1 .fine, .step 2 .fine,
        .step 2 .fine, .step 1 .fine])).map (endsAt .trace .error) = some true := by decide +kernel
  have hany : ∀ (e : Event Call) (s : Config Globals Call), true = true →
      (fun _ _ => True : Guard Globals Call) e s :=
    fun _ _ _ => trivial
  obtain ⟨s, hreach, hquiet, hinstalled, hlevel, hmax⟩ := reach_of_endsAt hany hrun
  obtain ⟨levels, hlevels, hagree, -⟩ := hall s hreach hquiet hinstalled
  rw [hlevels, Option.bind_some] at hlevel
  have hbase := levels.baseLevel_le_maxLevel
  rw [← hagree, hmax, LogLevels.baseLevel, hlevel, Option.getD_some] at hbase
  exact absurd hbase (by decide)

end CwTariWallet.Logger
