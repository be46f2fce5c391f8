/-
# CwTariWallet.Api.MaxLevel -- the most verbose level a target can have

`log::set_max_level` is given the maximum of the base level and of the levels of the overrides' own names
(`max_level`), although the filter is asked about targets of every name.  That is enough: a target is
filtered as the name of its best match is, or more strictly, because what matches the name matches the
target too (`levelFor_le_of_moduleLevel`).
-/
import CwTariWallet.Api.LogLevels
import Mathlib.Order.MinMax

namespace CwTariWallet

/-! ## A running maximum -/

section Running

variable {α β : Type} [LinearOrder β] (f : α → β)

theorem foldl_max_le_iff (xs : List α) (a b : β) :
    xs.foldl (fun m x => max m (f x)) a ≤ b ↔ a ≤ b ∧ ∀ x ∈ xs, f x ≤ b := by
  induction xs generalizing a with
  | nil => simp
  | cons x xs ih =>
    rw [List.foldl_cons, ih, max_le_iff, List.forall_mem_cons, and_assoc]

theorem foldl_max_attained (xs : List α) (a : β) :
    xs.foldl (fun m x => max m (f x)) a = a ∨ ∃ x ∈ xs, xs.foldl (fun m x => max m (f x)) a = f x := by
  induction xs generalizing a with
  | nil => exact Or.inl rfl
  | cons x xs ih =>
    rw [List.foldl_cons]
    rcases ih (max a (f x)) with hkept | ⟨y, hy, hmax⟩
    · rw [hkept]
      rcases max_choice a (f x) with ha | hx
      · exact Or.inl ha
      · exact Or.inr ⟨x, List.mem_cons_self, hx⟩
    · exact Or.inr ⟨y, List.mem_cons_of_mem x hy, hmax⟩

end Running

namespace LogLevels

/-- What the levels are without any override. -/
def baseLevel (levels : LogLevels) : LevelFilter := levels.runtimeLevel.getD levels.configuredDefault

/-- `max_level`. -/
def maxLevel (levels : LogLevels) : LevelFilter :=
  levels.modules.foldl (fun m module => max m (levels.levelFor module.1)) levels.baseLevel

end LogLevels

/-- `record_enabled`. -/
def recordEnabled (levels : Option LogLevels) (level : LevelFilter) (target : String) : Bool :=
  levels.any fun l => decide (level ≤ l.levelFor target)

/-! ## Ceilings -/

/-- Going on below a target, no ceiling is lifted. -/
theorem foldl_ceilings_le {target module : String} (h : targetMatches target module = true)
    (ceilings : List (String × LevelFilter)) {a b : LevelFilter} (hab : a ≤ b) :
    ceilings.foldl
        (fun level ceiling => if targetMatches target ceiling.1 then min level ceiling.2 else level) a ≤
      ceilings.foldl
        (fun level ceiling => if targetMatches module ceiling.1 then min level ceiling.2 else level) b := by
  induction ceilings generalizing a b with
  | nil => exact hab
  | cons ceiling ceilings ih =>
    rw [List.foldl_cons, List.foldl_cons]
    apply ih
    split_ifs with htarget hmodule hmodule
    · exact min_le_min hab (le_refl _)
    · exact le_trans (min_le_left _ _) hab
    · exact absurd (targetMatches_trans h hmodule) htarget
    · exact hab

theorem foldl_ceilings_le_self (target : String) (ceilings : List (String × LevelFilter))
    (a : LevelFilter) :
    ceilings.foldl
        (fun level ceiling => if targetMatches target ceiling.1 then min level ceiling.2 else level) a ≤
      a := by
  induction ceilings generalizing a with
  | nil => exact le_refl a
  | cons ceiling ceilings ih =>
    rw [List.foldl_cons]
    apply le_trans (ih _)
    split_ifs
    · exact min_le_left _ _
    · exact le_refl a

namespace LogLevels

variable (levels : LogLevels)

theorem levelFor_le_openLevel (target : String) : levels.levelFor target ≤ levels.openLevel target :=
  foldl_ceilings_le_self target levelCeilings _

/-- Without a matching override a target has the base level, up to the ceilings. -/
theorem openLevel_of_none {target : String} (h : levels.moduleLevel target = none) :
    levels.openLevel target = levels.baseLevel := by
  unfold openLevel baseLevel
  rw [h]
  cases levels.runtimeLevel <;> rfl

/-- The best match of a target is also the best match of its own name. -/
theorem moduleLevel_of_wins {before after : List (String × LevelFilter)} {k target : String} {v : LevelFilter}
    (hsplit : levels.modules = before ++ (k, v) :: after)
    (h : LongestMatch.Wins (targetMatches target) String.utf8ByteSize before k after) :
    levels.moduleLevel k = some v := by
  have hself : LongestMatch.Wins (targetMatches k) String.utf8ByteSize before k after := by
    constructor
    · exact targetMatches_self k
    · intro e he hhit
      exact h.longest e he (targetMatches_trans h.hit hhit)
    · intro e he hhit
      exact h.last e he (targetMatches_trans h.hit hhit)
  rw [moduleLevel, hsplit]
  exact LongestMatch.pick_of_wins hself

/-- A target with a match is filtered at most at the level of the best one's name. -/
theorem levelFor_le_of_moduleLevel {target : String} {v : LevelFilter} (h : levels.moduleLevel target = some v) :
    ∃ module ∈ levels.modules, levels.levelFor target ≤ levels.levelFor module.1 := by
  rcases LongestMatch.foldl_turn_cases (targetMatches target) String.utf8ByteSize levels.modules with
    ⟨hfold, -⟩ | ⟨before, k, w, after, hsplit, hwins, hfold⟩
  · rw [moduleLevel, LongestMatch.pick, hfold] at h
    cases h
  · have htarget : levels.moduleLevel target = some w := by
      rw [moduleLevel, LongestMatch.pick, hfold]
    refine ⟨(k, w), by rw [hsplit]; simp, ?_⟩
    apply foldl_ceilings_le hwins.hit
    unfold openLevel
    rw [htarget, levels.moduleLevel_of_wins hsplit hwins]

theorem baseLevel_le_maxLevel : levels.baseLevel ≤ levels.maxLevel :=
  ((foldl_max_le_iff _ _ _ _).mp (le_refl levels.maxLevel)).1

theorem levelFor_module_le_maxLevel {module : String × LevelFilter} (h : module ∈ levels.modules) :
    levels.levelFor module.1 ≤ levels.maxLevel :=
  ((foldl_max_le_iff _ _ _ _).mp (le_refl levels.maxLevel)).2 module h

/-- No target is filtered above the maximum. -/
theorem levelFor_le_maxLevel (target : String) : levels.levelFor target ≤ levels.maxLevel := by
  cases hmodule : levels.moduleLevel target with
  | none =>
    have hopen := levels.levelFor_le_openLevel target
    rw [levels.openLevel_of_none hmodule] at hopen
    exact le_trans hopen levels.baseLevel_le_maxLevel
  | some v =>
    obtain ⟨module, hmem, hle⟩ := levels.levelFor_le_of_moduleLevel hmodule
    exact le_trans hle (levels.levelFor_module_le_maxLevel hmem)

/-! ## The maximum is a target's level -/

/-- A target of one letter over and over is matched by no shorter name, and by no ceiling. -/
theorem not_targetMatches_replicate {n : Nat} {module : String} (h : module.toList.length < n) :
    targetMatches (String.ofList (List.replicate n 'z')) module = false := by
  rw [Bool.eq_false_iff]
  intro hmatch
  rcases targetMatches_iff.mp hmatch with heq | ⟨rest, hrest⟩
  · rw [← heq, String.toList_ofList, List.length_replicate] at h
    omega
  · rw [String.toList_ofList] at hrest
    have hcolon : ':' ∈ List.replicate n 'z' := by
      rw [hrest]
      simp
    have hz := List.eq_of_mem_replicate hcolon
    cases hz

/-- Some target has no match at all and stays at the base level. -/
theorem exists_levelFor_eq_baseLevel : ∃ target, levels.levelFor target = levels.baseLevel := by
  obtain ⟨n, hn⟩ : ∃ n, ∀ module ∈ levels.modules ++ levelCeilings, module.1.toList.length < n := by
    refine ⟨(levels.modules ++ levelCeilings).foldl (fun m module => max m module.1.toList.length) 0 + 1, ?_⟩
    intro module hmem
    apply Nat.lt_succ_of_le
    exact ((foldl_max_le_iff (fun module => module.1.toList.length) _ _ _).mp (le_refl _)).2 module hmem
  refine ⟨String.ofList (List.replicate n 'z'), ?_⟩
  have hnone : levels.moduleLevel (String.ofList (List.replicate n 'z')) = none := by
    rcases LongestMatch.foldl_turn_cases (targetMatches (String.ofList (List.replicate n 'z')))
      String.utf8ByteSize levels.modules with ⟨hfold, -⟩ | ⟨before, k, v, after, hsplit, hwins, -⟩
    · rw [moduleLevel, LongestMatch.pick, hfold]
    · have hmem : (k, v) ∈ levels.modules ++ levelCeilings := by
        rw [hsplit]
        simp
      have hhit := hwins.hit
      rw [not_targetMatches_replicate (hn _ hmem)] at hhit
      cases hhit
  have hceilings : ∀ ceiling ∈ levelCeilings,
      targetMatches (String.ofList (List.replicate n 'z')) ceiling.1 = false := by
    intro ceiling hmem
    exact not_targetMatches_replicate (hn _ (List.mem_append_right _ hmem))
  rw [levelFor, ← levels.openLevel_of_none hnone]
  simp [levelCeilings, hceilings _ List.mem_cons_self,
    hceilings _ (List.mem_cons_of_mem _ List.mem_cons_self)]

theorem exists_levelFor_eq_maxLevel : ∃ target, levels.levelFor target = levels.maxLevel := by
  rcases foldl_max_attained (fun module => levels.levelFor module.1) levels.modules levels.baseLevel with
    hbase | ⟨module, -, hmax⟩
  · obtain ⟨target, htarget⟩ := levels.exists_levelFor_eq_baseLevel
    exact ⟨target, htarget.trans hbase.symm⟩
  · exact ⟨module.1, hmax.symm⟩

end LogLevels

/-- `max_level` is the most verbose level that a target is filtered at, under every configuration and
runtime level; so to ask for it first keeps back no record that the filter lets through. -/
theorem maxLevel_exact (config : LoggerConfig) (runtimeLevel : Option LevelFilter) :
    let levels := { LogLevels.new config with runtimeLevel }
    (∀ target, levels.levelFor target ≤ levels.maxLevel) ∧
      (∀ level target, (level ≤ levels.maxLevel ∧ recordEnabled (some levels) level target = true) ↔
        level ≤ levels.levelFor target) ∧
      ∃ target, levels.levelFor target = levels.maxLevel := by
  intro levels
  refine ⟨levels.levelFor_le_maxLevel, fun level target => ?_, levels.exists_levelFor_eq_maxLevel⟩
  rw [recordEnabled, Option.any_some, decide_eq_true_eq]
  constructor
  · intro h
    exact h.2
  · intro h
    exact ⟨le_trans h (levels.levelFor_le_maxLevel target), h⟩

end CwTariWallet
