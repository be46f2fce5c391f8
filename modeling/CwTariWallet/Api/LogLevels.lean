/-
# CwTariWallet.Api.LogLevels -- which level a log target is filtered at

The level filter of `src/api/logger.rs`: the configured default, the per-module overrides with the cap on
`c::tx::offline_signing` added to them, the level a toggle sets at runtime, and the ceilings.  Upstream
writes every send's recipients, amounts and memos under that target at Info; what the cap is worth against
the toggle depends on the configured default (`payload_summaries_capped`).
-/
import CwTariWallet.LongestMatch
import Mathlib.Order.Basic
import Mathlib.Order.Defs.LinearOrder
import Mathlib.Order.Lattice

namespace CwTariWallet

/-! ## Levels -/

/-- `log::LevelFilter`, from the strictest to the most verbose. -/
inductive LevelFilter where
  | off
  | error
  | warn
  | info
  | debug
  | trace
  deriving DecidableEq, Repr

namespace LevelFilter

/-- Its discriminant, by which levels compare. -/
def rank : LevelFilter → Nat
  | off => 0
  | error => 1
  | warn => 2
  | info => 3
  | debug => 4
  | trace => 5

theorem rank_injective : Function.Injective rank := by
  intro a b h
  cases a <;> cases b <;> first | rfl | cases h

instance : LinearOrder LevelFilter := LinearOrder.lift' rank rank_injective

end LevelFilter

/-- Logging verbosity. -/
inductive LogLevel where
  | error
  | warn
  | info
  | debug
  | trace
  | off
  deriving DecidableEq, Repr

/-- `From<LogLevel> for LevelFilter`. -/
def LogLevel.toLevelFilter : LogLevel → LevelFilter
  | error => .error
  | warn => .warn
  | info => .info
  | debug => .debug
  | trace => .trace
  | off => .off

/-- A per-module override. -/
structure LogModuleConfig where
  target : String
  level : LogLevel
  deriving DecidableEq, Repr

/-- What `LogLevels::new` reads of a `LoggerConfig`. -/
structure LoggerConfig where
  defaultLevel : LogLevel
  moduleLevels : List LogModuleConfig
  deriving DecidableEq, Repr

/-- `PAYLOAD_SUMMARY_TARGET`. -/
def payloadSummaryTarget : String := "c::tx::offline_signing"

/-- `impl Default for LoggerConfig`. -/
def LoggerConfig.default : LoggerConfig where
  defaultLevel := .info
  moduleLevels := [⟨"minotari", .info⟩, ⟨"minotari::http", .info⟩,
    ⟨"minotari_wallet_core::http", .info⟩, ⟨"hyper", .warn⟩, ⟨"h2", .error⟩, ⟨"reqwest", .warn⟩,
    ⟨payloadSummaryTarget, .warn⟩]

/-! ## Targets -/

/-- `target_matches`: whether `target` is `module` or a path below it. -/
def targetMatches (target module : String) : Bool :=
  decide (target = module) ||
    (module.toList.isPrefixOf target.toList &&
      "::".toList.isPrefixOf (target.toList.drop module.toList.length))

/-- `LEVEL_CEILINGS`. -/
def levelCeilings : List (String × LevelFilter) :=
  [("minotari_wallet_core::http", .info), ("minotari::http", .info)]

/-- `with_payload_summary_cap`. -/
def withPayloadSummaryCap (levels : List LogModuleConfig) : List LogModuleConfig :=
  if levels.any fun m => decide (m.target = payloadSummaryTarget) then levels
  else levels ++ [⟨payloadSummaryTarget, .warn⟩]

/-! ## The filter -/

structure LogLevels where
  configuredDefault : LevelFilter
  modules : List (String × LevelFilter)
  runtimeLevel : Option LevelFilter
  deriving DecidableEq, Repr

namespace LogLevels

/-- `LogLevels::new`. -/
def new (config : LoggerConfig) : LogLevels where
  configuredDefault := config.defaultLevel.toLevelFilter
  modules := (withPayloadSummaryCap config.moduleLevels).map fun m => (m.target, m.level.toLevelFilter)
  runtimeLevel := none

/-- The loop of `level_for`: the level of the longest override that matches. -/
def moduleLevel (levels : LogLevels) (target : String) : Option LevelFilter :=
  LongestMatch.pick (targetMatches target) String.utf8ByteSize levels.modules

/-- The level before the ceilings. -/
def openLevel (levels : LogLevels) (target : String) : LevelFilter :=
  match levels.moduleLevel target, levels.runtimeLevel with
  | none, none => levels.configuredDefault
  | none, some runtime => runtime
  | some module, none => module
  | some module, some runtime =>
    if module < levels.configuredDefault then min module runtime else runtime

/-- `level_for`. -/
def levelFor (levels : LogLevels) (target : String) : LevelFilter :=
  levelCeilings.foldl
    (fun level ceiling => if targetMatches target ceiling.1 then min level ceiling.2 else level)
    (levels.openLevel target)

/-- What `set_log_level` does to the installed levels. -/
def setLogLevel (levels : LogLevels) (level : LogLevel) : LogLevels :=
  { levels with runtimeLevel := some level.toLevelFilter }

/-- The levels after some calls of `set_log_level`. -/
def setLogLevels (levels : LogLevels) (calls : List LogLevel) : LogLevels :=
  calls.foldl setLogLevel levels

end LogLevels

/-! ## Targets as paths -/

theorem targetMatches_iff {target module : String} : targetMatches target module = true ↔
    target = module ∨ ∃ rest, target.toList = module.toList ++ ':' :: ':' :: rest := by
  simp only [targetMatches, Bool.or_eq_true, decide_eq_true_eq, Bool.and_eq_true,
    List.isPrefixOf_iff_prefix]
  refine or_congr Iff.rfl ⟨?_, ?_⟩
  · rintro ⟨⟨rest, hrest⟩, ⟨below, hbelow⟩⟩
    rw [← hrest, List.drop_left] at hbelow
    exact ⟨below, by rw [← hrest, ← hbelow]; rfl⟩
  · rintro ⟨rest, hrest⟩
    rw [hrest, List.drop_left]
    exact ⟨⟨_, rfl⟩, ⟨rest, rfl⟩⟩

theorem targetMatches_self (target : String) : targetMatches target target = true :=
  targetMatches_iff.mpr (Or.inl rfl)

theorem prefix_of_targetMatches {target module : String} (h : targetMatches target module = true) :
    module.toList <+: target.toList := by
  rcases targetMatches_iff.mp h with rfl | ⟨rest, hrest⟩
  · exact List.prefix_rfl
  · exact ⟨_, hrest.symm⟩

theorem targetMatches_trans {a b c : String} (hab : targetMatches a b = true)
    (hbc : targetMatches b c = true) : targetMatches a c = true := by
  rcases targetMatches_iff.mp hab with rfl | ⟨rest, hrest⟩
  · exact hbc
  · rcases targetMatches_iff.mp hbc with rfl | ⟨rest', hrest'⟩
    · exact hab
    · refine targetMatches_iff.mpr (Or.inr ⟨rest' ++ ':' :: ':' :: rest, ?_⟩)
      rw [hrest, hrest', List.append_assoc]
      rfl

/-- A proper prefix has fewer bytes. -/
theorem eq_or_lt_of_prefix {a b : String} (h : a.toList <+: b.toList) :
    a = b ∨ a.utf8ByteSize < b.utf8ByteSize := by
  obtain ⟨rest, hrest⟩ := h
  obtain rfl : b = a ++ String.ofList rest := by
    rw [← String.toList_inj, String.toList_append, String.toList_ofList, hrest]
  rw [String.utf8ByteSize_append]
  by_cases hnil : String.ofList rest = ""
  · left
    rw [hnil, String.append_empty]
  · right
    have hpos : (String.ofList rest).utf8ByteSize ≠ 0 := fun h =>
      hnil (String.utf8ByteSize_eq_zero_iff.mp h)
    omega

theorem size_le_of_prefix {a b : String} (h : a.toList <+: b.toList) :
    a.utf8ByteSize ≤ b.utf8ByteSize := by
  rcases eq_or_lt_of_prefix h with rfl | hlt
  · exact Nat.le_refl _
  · exact Nat.le_of_lt hlt

/-- Of two prefixes, the one with fewer bytes is a prefix of the other. -/
theorem prefix_of_size_le {a b t : String} (ha : a.toList <+: t.toList) (hb : b.toList <+: t.toList)
    (h : a.utf8ByteSize ≤ b.utf8ByteSize) : a.toList <+: b.toList := by
  rcases List.prefix_or_prefix_of_prefix ha hb with hab | hba
  · exact hab
  · rcases eq_or_lt_of_prefix hba with rfl | hlt
    · exact List.prefix_rfl
    · omega

/-! ## The payload summaries -/

/-- The level of the last override of `target`. -/
def LoggerConfig.override (config : LoggerConfig) (target : String) : Option LogLevel :=
  ((withPayloadSummaryCap config.moduleLevels).reverse.find? fun m => decide (m.target = target)).map
    (·.level)

/-- A target whose override can be the longest match of a payload summary's target: one at or below
`c::tx::offline_signing`, or that with one more colon. -/
def namesPayloads (target : String) : Bool :=
  targetMatches target payloadSummaryTarget || decide (target = payloadSummaryTarget ++ ":")

/-- Each override that can apply to the payload summaries is a cap: at most Warn, and stricter than the
configured default. -/
def LoggerConfig.Capped (config : LoggerConfig) : Prop :=
  ∀ m ∈ withPayloadSummaryCap config.moduleLevels, namesPayloads m.target = true →
    ∀ level ∈ config.override m.target, level.toLevelFilter ≤ .warn ∧
      level.toLevelFilter < config.defaultLevel.toLevelFilter

instance (config : LoggerConfig) : Decidable config.Capped := by
  unfold LoggerConfig.Capped
  infer_instance

theorem payload_mem (levels : List LogModuleConfig) :
    ∃ m ∈ withPayloadSummaryCap levels, m.target = payloadSummaryTarget := by
  unfold withPayloadSummaryCap
  split
  · rename_i hany
    obtain ⟨m, hm, htarget⟩ := List.any_eq_true.mp hany
    exact ⟨m, hm, by simpa using htarget⟩
  · exact ⟨_, List.mem_append_right _ List.mem_cons_self, rfl⟩

/-- What an override is, is said by the last entry of its target. -/
theorem LoggerConfig.override_eq_some {config : LoggerConfig} {target : String} {level : LogLevel} :
    config.override target = some level ↔ ∃ before after,
      withPayloadSummaryCap config.moduleLevels = before ++ ⟨target, level⟩ :: after ∧
        ∀ m ∈ after, m.target ≠ target := by
  unfold override
  constructor
  · intro h
    obtain ⟨⟨target', level'⟩, hfind, rfl⟩ := Option.map_eq_some_iff.mp h
    obtain ⟨htarget, after, before, hsplit, hafter⟩ := List.find?_eq_some_iff_append.mp hfind
    obtain rfl : target' = target := by simpa using htarget
    refine ⟨before.reverse, after.reverse, ?_, fun m hm => ?_⟩
    · rw [← List.reverse_reverse (withPayloadSummaryCap config.moduleLevels), hsplit]
      simp
    · simpa using hafter m (List.mem_reverse.mp hm)
  · rintro ⟨before, after, hsplit, hafter⟩
    refine Option.map_eq_some_iff.mpr ⟨⟨target, level⟩, ?_, rfl⟩
    refine List.find?_eq_some_iff_append.mpr ⟨by simp, after.reverse, before.reverse, ?_, fun m hm => ?_⟩
    · rw [hsplit]
      simp
    · simpa using hafter m (List.mem_reverse.mp hm)

/-- The ceilings are not about the payload summaries. -/
theorem LogLevels.levelFor_payload (levels : LogLevels) {target : String}
    (h : targetMatches target payloadSummaryTarget = true) :
    levels.levelFor target = levels.openLevel target := by
  have hhead : target.toList.head? = some 'c' := by
    obtain ⟨rest, hrest⟩ := prefix_of_targetMatches h
    rw [← hrest]
    rfl
  have hceiling (module : String) (hm : module.toList.head? = some 'm') :
      targetMatches target module = false := by
    rw [Bool.eq_false_iff]
    intro hmatch
    obtain ⟨rest, hrest⟩ := prefix_of_targetMatches hmatch
    rw [← hrest, List.head?_append, hm] at hhead
    cases hhead
  simp [levelFor, levelCeilings, hceiling "minotari_wallet_core::http" (by decide),
    hceiling "minotari::http" (by decide)]

theorem LogLevels.setLogLevels_eq (levels : LogLevels) (calls : List LogLevel) :
    ∃ runtime, levels.setLogLevels calls = { levels with runtimeLevel := runtime } := by
  induction calls generalizing levels with
  | nil => exact ⟨levels.runtimeLevel, rfl⟩
  | cons level calls ih =>
    obtain ⟨runtime, hruntime⟩ := ih (levels.setLogLevel level)
    exact ⟨runtime, hruntime⟩

/-- The level of a payload summary's target is that of an override that names the payloads. -/
theorem moduleLevel_of_payload (config : LoggerConfig) {target : String}
    (h : targetMatches target payloadSummaryTarget = true) :
    ∃ m ∈ withPayloadSummaryCap config.moduleLevels, namesPayloads m.target = true ∧
      config.override m.target = some m.level ∧
      (LogLevels.new config).moduleLevel target = some m.level.toLevelFilter := by
  obtain ⟨cap, hcap, hcapTarget⟩ := payload_mem config.moduleLevels
  have hmem : (cap.target, cap.level.toLevelFilter) ∈ (LogLevels.new config).modules :=
    List.mem_map_of_mem hcap
  obtain ⟨before, k, v, after, hsplit, hwins, hpick⟩ :=
    LongestMatch.pick_of_hit String.utf8ByteSize hmem (hcapTarget ▸ h)
  have hsize : payloadSummaryTarget.utf8ByteSize ≤ k.utf8ByteSize :=
    hcapTarget ▸ hwins.le (hsplit ▸ hmem) (hcapTarget ▸ h)
  obtain ⟨before, rest, hall, rfl, hrest⟩ := List.map_eq_append_iff.mp hsplit
  obtain ⟨m, after, rfl, hm, rfl⟩ := List.map_eq_cons_iff.mp hrest
  obtain ⟨rfl, rfl⟩ := Prod.mk.inj hm
  refine ⟨m, by rw [hall]; simp, ?_, ?_, hpick⟩
  · -- The winner lies between the payload summaries' target and the one that was asked for.
    obtain ⟨r, hr⟩ := prefix_of_size_le (prefix_of_targetMatches h)
      (prefix_of_targetMatches hwins.hit) hsize
    simp only [namesPayloads, Bool.or_eq_true, decide_eq_true_eq, targetMatches_iff]
    cases r with
    | nil =>
      rw [List.append_nil] at hr
      exact Or.inl (Or.inl (String.toList_inj.mp hr).symm)
    | cons a r =>
      obtain ⟨below, hbelow⟩ := prefix_of_targetMatches hwins.hit
      rcases targetMatches_iff.mp h with rfl | ⟨rest, hrest⟩
      · have hlength := congrArg List.length hbelow
        rw [← hr] at hlength
        simp at hlength
      · rw [hrest, ← hr, List.append_assoc, List.append_cancel_left_eq, List.cons_append,
          List.cons.injEq] at hbelow
        obtain ⟨rfl, hbelow⟩ := hbelow
        cases r with
        | nil =>
          refine Or.inr (String.toList_inj.mp ?_)
          rw [← hr, String.toList_append]
          rfl
        | cons b r =>
          rw [List.cons_append, List.cons.injEq] at hbelow
          obtain ⟨rfl, -⟩ := hbelow
          exact Or.inl (Or.inr ⟨r, hr.symm⟩)
  · refine LoggerConfig.override_eq_some.mpr ⟨before, after, hall, fun m' hm' htarget => ?_⟩
    have hlt := hwins.last _ (List.mem_map_of_mem hm') (by rw [htarget]; exact hwins.hit)
    rw [htarget] at hlt
    exact Nat.lt_irrefl _ hlt

theorem exists_length_le (levels : List LogModuleConfig) :
    ∃ n, ∀ m ∈ levels, m.target.toList.length ≤ n := by
  induction levels with
  | nil => exact ⟨0, fun _ hm => by cases hm⟩
  | cons m levels ih =>
    obtain ⟨n, hn⟩ := ih
    refine ⟨max m.target.toList.length n, fun m' hm' => ?_⟩
    rcases List.mem_cons.mp hm' with rfl | hm'
    · exact Nat.le_max_left _ _
    · exact Nat.le_trans (hn m' hm') (Nat.le_max_right _ _)

/-- Far enough below a target that some override names, that override is the longest match. -/
theorem moduleLevel_of_override {config : LoggerConfig} {target : String} {level : LogLevel}
    (h : config.override target = some level) : ∃ below : String,
      targetMatches below target = true ∧
        (target = payloadSummaryTarget ++ ":" → targetMatches below payloadSummaryTarget = true) ∧
        (LogLevels.new config).moduleLevel below = some level.toLevelFilter := by
  obtain ⟨before, after, hsplit, hafter⟩ := LoggerConfig.override_eq_some.mp h
  -- A path below `target` that is longer than every override's target.
  obtain ⟨n, hn⟩ := exists_length_le (withPayloadSummaryCap config.moduleLevels)
  obtain ⟨below, hbelow⟩ : ∃ below : String,
      below.toList = target.toList ++ ':' :: ':' :: List.replicate n 'a' :=
    ⟨String.ofList _, String.toList_ofList⟩
  have hmatch : targetMatches below target = true := targetMatches_iff.mpr (Or.inr ⟨_, hbelow⟩)
  refine ⟨below, hmatch, fun htarget => ?_, ?_⟩
  · refine targetMatches_iff.mpr (Or.inr ⟨':' :: List.replicate n 'a', ?_⟩)
    rw [hbelow, htarget, String.toList_append, List.append_assoc]
    rfl
  -- The other overrides that match it are those that `target` itself goes on from.
  have hbefore : ∀ m ∈ withPayloadSummaryCap config.moduleLevels,
      targetMatches below m.target = true → m.target.toList <+: target.toList := by
    intro m hm hhit
    rcases List.prefix_or_prefix_of_prefix (prefix_of_targetMatches hhit)
      (prefix_of_targetMatches hmatch) with hpre | ⟨r, hr⟩
    · exact hpre
    rcases targetMatches_iff.mp hhit with heq | ⟨rest, hrest⟩
    · have hlength := hn m hm
      rw [← heq, hbelow] at hlength
      simp at hlength
      omega
    · rw [hbelow, ← hr, List.append_assoc, List.append_cancel_left_eq] at hrest
      have hcolon : ':' ∉ List.replicate n 'a' := fun hmem => by
        have := List.eq_of_mem_replicate hmem
        cases this
      cases r with
      | nil => exact ⟨[], by rw [← hr, List.append_nil, List.append_nil]⟩
      | cons a r =>
        exfalso
        rw [List.cons_append, List.cons.injEq] at hrest
        cases r with
        | nil =>
          rw [List.nil_append, List.cons.injEq] at hrest
          exact hcolon (hrest.2.2 ▸ List.mem_cons_self)
        | cons b r =>
          rw [List.cons_append, List.cons.injEq] at hrest
          exact hcolon (hrest.2.2 ▸ by simp)
  have hwins : LongestMatch.Wins (targetMatches below) String.utf8ByteSize
      (before.map fun m => (m.target, m.level.toLevelFilter)) target
      (after.map fun m => (m.target, m.level.toLevelFilter)) := by
    refine ⟨hmatch, fun e he hhit => ?_, fun e he hhit => ?_⟩
    · obtain ⟨m, hm, rfl⟩ := List.mem_map.mp he
      exact size_le_of_prefix (hbefore m (by rw [hsplit]; simp [hm]) hhit)
    · obtain ⟨m, hm, rfl⟩ := List.mem_map.mp he
      rcases eq_or_lt_of_prefix (hbefore m (by rw [hsplit]; simp [hm]) hhit) with heq | hlt
      · exact absurd heq (hafter m hm)
      · exact hlt
  have hmodules : (LogLevels.new config).modules =
      (before.map fun m => (m.target, m.level.toLevelFilter)) ++ (target, level.toLevelFilter) ::
        after.map fun m => (m.target, m.level.toLevelFilter) := by
    show (withPayloadSummaryCap config.moduleLevels).map _ = _
    rw [hsplit, List.map_append, List.map_cons]
  rw [LogLevels.moduleLevel, hmodules]
  exact LongestMatch.pick_of_wins hwins

/-- Nothing at or below `c::tx::offline_signing` is ever filtered above Warn, whatever
`set_log_level` is called with, just if each override that can apply there is a cap. -/
theorem payload_summaries_capped (config : LoggerConfig) :
    (∀ calls target, targetMatches target payloadSummaryTarget = true →
      ((LogLevels.new config).setLogLevels calls).levelFor target ≤ .warn) ↔ config.Capped := by
  constructor
  · intro hall m _ hnames level hlevel
    obtain ⟨below, hbelow, hcolon, hmodule⟩ := moduleLevel_of_override hlevel
    have hpayload : targetMatches below payloadSummaryTarget = true := by
      simp only [namesPayloads, Bool.or_eq_true, decide_eq_true_eq] at hnames
      rcases hnames with hunder | htarget
      · exact targetMatches_trans hbelow hunder
      · exact hcolon htarget
    -- As configured, the override applies as it is; a toggle to Trace shows whether it is a cap.
    have hconfigured := hall [] below hpayload
    have htoggled := hall [.trace] below hpayload
    rw [LogLevels.levelFor_payload _ hpayload] at hconfigured htoggled
    have hmodule' : ((LogLevels.new config).setLogLevels [.trace]).moduleLevel below =
        some level.toLevelFilter := hmodule
    have hopen : (LogLevels.new config).openLevel below = level.toLevelFilter := by
      unfold LogLevels.openLevel
      rw [hmodule]
      rfl
    refine ⟨hopen ▸ hconfigured, ?_⟩
    by_contra hnot
    have htrace : ((LogLevels.new config).setLogLevels [.trace]).openLevel below = .trace := by
      unfold LogLevels.openLevel
      rw [hmodule']
      exact if_neg hnot
    rw [htrace] at htoggled
    exact absurd htoggled (by decide)
  · intro hcapped calls target htarget
    obtain ⟨m, hm, hnames, hover, hmodule⟩ := moduleLevel_of_payload config htarget
    obtain ⟨hwarn, hlt⟩ := hcapped m hm hnames _ hover
    obtain ⟨runtime, hruntime⟩ := (LogLevels.new config).setLogLevels_eq calls
    rw [hruntime, LogLevels.levelFor_payload _ htarget]
    have hmodule' : { LogLevels.new config with runtimeLevel := runtime }.moduleLevel target =
        some m.level.toLevelFilter := hmodule
    unfold LogLevels.openLevel
    rw [hmodule']
    cases runtime with
    | none => exact hwarn
    | some runtime =>
      have hcap : m.level.toLevelFilter < (LogLevels.new config).configuredDefault := hlt
      simp only [hcap, if_true]
      exact (min_le_left _ _).trans hwarn

/-- The default configuration caps the summaries. -/
example : LoggerConfig.default.Capped := by decide

/-- With the default level at Warn the cap is no stricter than the default, and the toggle lifts it. -/
theorem payload_summaries_toggled : ¬ ∀ config : LoggerConfig,
    (∀ m ∈ config.moduleLevels, targetMatches m.target payloadSummaryTarget = true →
      m.level.toLevelFilter ≤ .warn) →
    ∀ calls target, targetMatches target payloadSummaryTarget = true →
      ((LogLevels.new config).setLogLevels calls).levelFor target ≤ .warn := by
  intro hall
  have hcapped := hall ⟨.warn, []⟩ (fun _ hm => by cases hm) [.info] payloadSummaryTarget
    (targetMatches_self _)
  exact absurd hcapped (by decide)

end CwTariWallet
