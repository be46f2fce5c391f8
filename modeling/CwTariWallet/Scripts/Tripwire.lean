/-
# CwTariWallet.Scripts.Tripwire -- which breaks of the contract the check stops

What `git diff` prints is left open (`IsDiff`): it takes lines from the old file and adds lines of the new
one, and it takes none from outside the part that changed.  A break is stopped exactly when it takes away a
line that names a function, a class, an enum, a field or an enum variant.  The removal of any of these does.
A parameter that goes, or becomes another one, does when its signature stands on one line before or after;
in a wrapped signature it has a line of its own, which is none of these.
-/
import CwTariWallet.Scripts.ContractLines
import Mathlib.Data.List.Basic

namespace CwTariWallet.GeneratedDart

open ApiStability

/-! ## The diff of two files -/

/-- What the check relies on in `git diff`, on the lines of the old file and of the new one. -/
structure IsDiff (git : List Line → List Line → List DiffLine) : Prop where
  /-- The removed lines taken out of the old file and the added ones put in make the new file. -/
  counts : ∀ old new l,
    old.count l + (additions (git old new)).count l = new.count l + (removals (git old new)).count l
  /-- No line is removed that is outside the part that changed. -/
  within : ∀ before mid mid' after l,
    l ∈ removals (git (before ++ (mid ++ after)) (before ++ (mid' ++ after))) → l ∈ mid

/-- The break is stopped, whatever else the diff holds. -/
def Caught (git : List Line → List Line → List DiffLine) (override : String) (before after : List Line)
    (c : Change) : Prop :=
  ∀ rest rest' : List DiffLine, (checkApiStability
    ((rest ++ (git (before ++ (c.old ++ after)) (before ++ (c.new ++ after)) ++ rest')).map DiffLine.text)
    override).exitCode = 1

/-- The break takes away a line that names a function, a class, an enum, a field or an enum variant. -/
def Change.TakesDeclaration : Change → Prop
  -- none of the four expressions is for these two
  | remove (.getter _) _ _ => False
  | remove (.unionVariant _) _ _ => False
  | remove _ _ _ => True
  | editFunction f ps _ l l' => f.OnOneLine l ∨ { f with params := ps }.OnOneLine l'
  | editVariant _ _ _ => False

section

variable {git : List Line → List Line → List DiffLine} {override : String} {before after : List Line} {c : Change}

/-- A line that trips the wire and that there is less of afterwards. -/
theorem caught_of_count (hgit : IsDiff git) (hoverride : override ≠ "true") {m : Line} (htrips : Trips m)
    (hless : c.new.count m < c.old.count m) : Caught git override before after c := by
  intro rest rest'
  -- what the new file has less of is among the removed lines
  have hcounts := hgit.counts (before ++ (c.old ++ after)) (before ++ (c.new ++ after)) m
  simp only [List.count_append] at hcounts
  have hremoved : m ∈ removals (git (before ++ (c.old ++ after)) (before ++ (c.new ++ after))) :=
    List.count_pos_iff.mp (by omega)
  refine (exitCode_of_diff hoverride).mpr ⟨m, ?_, htrips⟩
  simp only [removals, List.filterMap_append, List.mem_append] at hremoved ⊢
  exact Or.inr (Or.inl hremoved)

/-- Around the part that changed nothing is removed, and in it nothing trips the wire. -/
theorem not_caught_of_within (same : List Line) {mid mid' : List Line} (hgit : IsDiff git)
    (hoverride : override ≠ "true") (hold : c.old = same ++ mid) (hnew : c.new = same ++ mid')
    (hquiet : ∀ m ∈ mid, ¬ Trips m) : ¬ Caught git override before after c := by
  intro hcaught
  have hexit := hcaught [] []
  rw [List.nil_append, List.append_nil, exitCode_of_diff hoverride] at hexit
  obtain ⟨m, hm, htrips⟩ := hexit
  rw [hold, hnew, List.append_assoc, List.append_assoc, ← List.append_assoc before,
    ← List.append_assoc before] at hm
  exact hquiet m (hgit.within _ _ _ _ m hm) htrips

variable {d : Decl} {instead : List Line} {gone : d.declaringLine ∉ instead}

theorem Decl.declaringLine_mem : d.declaringLine ∈ d.lines := by
  cases d with
  | function f l => simp [Decl.declaringLine, Decl.lines, Function.lines]
  | klass k => simp [Decl.declaringLine, Decl.lines, Class.lines]
  | enum e => simp [Decl.declaringLine, Decl.lines, Enum.lines]
  | field f => simp [Decl.declaringLine, Decl.lines, Field.lines]
  | enumVariant v => simp [Decl.declaringLine, Decl.lines, EnumVariant.lines]
  | getter g => simp [Decl.declaringLine, Decl.lines, Getter.lines]
  | unionVariant v => simp [Decl.declaringLine, Decl.lines, UnionVariant.lines]

/-- The line with the name trips the wire, but for getters and the variants of a union. -/
theorem Decl.trips_declaringLine (h : (Change.remove d instead gone).TakesDeclaration) :
    Trips d.declaringLine := by
  cases d with
  | function f l => exact f.trips_declaringLine
  | klass k => exact k.trips_declaringLine
  | enum e => exact e.trips_declaringLine
  | field f => exact f.trips_declaringLine
  | enumVariant v => exact v.trips_declaringLine
  | getter g => exact absurd h id
  | unionVariant v => exact absurd h id

/-- Of those two no line does. -/
theorem Decl.not_trips (h : ¬ (Change.remove d instead gone).TakesDeclaration) : ∀ m ∈ d.lines, ¬ Trips m := by
  cases d with
  | getter g => exact fun m hm => g.not_trips_lines hm
  | unionVariant v => exact fun m hm => v.not_trips_lines hm
  | _ => exact absurd trivial h

/-- A parameter that is removed or replaced leaves other parameters. -/
theorem EditsOne.ne {α : Type} {ps ps' : List α} (h : EditsOne ps ps') : ps ≠ ps' := by
  obtain ⟨pre, p, q, post, hne, rfl, rfl⟩ := h
  intro heq
  have hpost := List.append_cancel_left heq
  cases q with
  | none =>
    have hlength := congrArg List.length hpost
    simp at hlength
  | some q =>
    obtain ⟨rfl, -⟩ := List.cons.inj hpost
    exact hne rfl

theorem Function.behindParen_of_not_onOneLine {f : Function} {l : Layout} (h : ¬ f.OnOneLine l) :
    f.behindParen l = [] := by
  unfold behindParen
  split
  · exact absurd (Or.inl ‹_›) h
  · exact absurd (Or.inr ‹_›) h
  · rfl

/-- With the signature on one line, before or after, the line with the name changes. -/
theorem Function.count_declaringLine {f : Function} {ps : List Param} {l l' : Layout} (hne : f.params ≠ ps)
    (hone : f.OnOneLine l ∨ { f with params := ps }.OnOneLine l') :
    ({ f with params := ps }.lines l').count (f.declaringLine l) < (f.lines l).count (f.declaringLine l) := by
  have hline : { f with params := ps }.declaringLine l' ≠ f.declaringLine l :=
    fun heq => hne (params_of_declaringLine hone heq.symm)
  have hrest := List.count_eq_zero_of_not_mem (f.declaringLine_notMem l l' ps)
  have hdocs : docLines { f with params := ps }.indent { f with params := ps }.docs = docLines f.indent f.docs :=
      rfl
  unfold lines
  rw [hdocs, List.count_append, List.count_append, List.count_cons_of_ne hline, List.count_cons_self, hrest]
  omega

/-- In a signature that is wrapped and stays so the line with the name is not touched. -/
theorem not_caught_of_wrapped (hgit : IsDiff git) (hoverride : override ≠ "true") {f : Function} {ps : List Param}
    {edit : EditsOne f.params ps} {l l' : Layout} (hl : ¬ f.OnOneLine l)
    (hl' : ¬ { f with params := ps }.OnOneLine l') :
    ¬ Caught git override before after (.editFunction f ps edit l l') := by
  have hline : f.declaringLine l = { f with params := ps }.declaringLine l' := by
    unfold Function.declaringLine
    rw [Function.behindParen_of_not_onOneLine hl, Function.behindParen_of_not_onOneLine hl']
    rfl
  have hnew : { f with params := ps }.lines l' = docLines f.indent f.docs ++ [f.declaringLine l] ++
      ({ f with params := ps }.wrappedLines l' ++ { f with params := ps }.bodyLines l') := by
    rw [hline]
    exact List.append_cons _ _ _
  refine not_caught_of_within _ hgit hoverride (List.append_cons _ _ _) hnew ?_
  intro m hm
  rcases List.mem_append.mp hm with hm | hm
  · exact Function.not_trips_wrappedLines hm
  · exact Function.not_trips_bodyLines hm

end

/-! ## One hunk -/

/-- The lines that two files begin with. -/
def commonPrefix : List Line → List Line → List Line
  | a :: x, b :: y => if a = b then a :: commonPrefix x y else []
  | _, _ => []

/-- What comes before a hunk: the headers, and three lines that did not change. -/
def leadingLines (headers : List (Header × String)) (old new : List Line) : List DiffLine :=
  headers.map (fun h => .header h.1 h.2.toList) ++ ((commonPrefix old new).reverse.take 3).reverse.map .context

/-- Three lines more that did not change. -/
def trailingLines (old new : List Line) : List DiffLine :=
  ((commonPrefix old.reverse new.reverse).reverse.take 3).map .context

/-- The diff of two files that differ in one place. -/
def lineDiff (headers : List (Header × String)) (old new : List Line) : List DiffLine :=
  (if old = new then [] else leadingLines headers old new) ++
    ((old.diff new).map .removed ++ (new.diff old).map .added) ++
    (if old = new then [] else trailingLines old new)

variable {headers : List (Header × String)} {old new : List Line}

/-- A file that changed in one place: what the frame of the hunk holds is neither removed nor added. -/
theorem filterMap_lineDiff {f : DiffLine → Option Line} (hheader : ∀ h l, f (.header h l) = none)
    (hcontext : ∀ l, f (.context l) = none) : (lineDiff headers old new).filterMap f =
      (old.diff new).filterMap (fun l => f (.removed l)) ++ (new.diff old).filterMap (fun l => f (.added l)) := by
  have hleading : (leadingLines headers old new).filterMap f = [] := by
    rw [leadingLines, List.filterMap_append, List.filterMap_map, List.filterMap_map]
    simp [hheader, hcontext]
  have htrailing : (trailingLines old new).filterMap f = [] := by
    rw [trailingLines, List.filterMap_map]
    simp [hcontext]
  rw [lineDiff, List.filterMap_append, List.filterMap_append, List.filterMap_append, List.filterMap_map,
    List.filterMap_map]
  split
  · simp
  · simp [hleading, htrailing]

theorem removals_lineDiff : removals (lineDiff headers old new) = old.diff new := by
  rw [removals, filterMap_lineDiff (fun _ _ => rfl) fun _ => rfl]
  simp [DiffLine.removed?]

theorem additions_lineDiff : additions (lineDiff headers old new) = new.diff old := by
  rw [additions, filterMap_lineDiff (fun _ _ => rfl) fun _ => rfl]
  simp [DiffLine.added?]

theorem isDiff_lineDiff : IsDiff (lineDiff headers) where
  counts := by
    intro old new l
    rw [additions_lineDiff, removals_lineDiff, List.count_diff, List.count_diff]
    omega
  within := by
    intro before mid mid' after l hl
    rw [removals_lineDiff] at hl
    have hpos := List.count_pos_iff.mpr hl
    simp only [List.count_diff, List.count_append] at hpos
    exact List.count_pos_iff.mp (by omega)

/-! ## A function of the contract -/

def bigIntType : DartType := .mk ⟨'B', "igInt".toList, by decide, by decide, by decide⟩ [] false

def intType : DartType := .mk ⟨'i', "nt".toList, by decide, by decide, by decide⟩ [] false

def stringType : DartType := .mk ⟨'S', "tring".toList, by decide, by decide, by decide⟩ [] false

def feePriorityType : DartType := .mk ⟨'F', "eePriority".toList, by decide, by decide, by decide⟩ [] false

def feeEstimateType : DartType := .mk ⟨'F', "eeEstimate".toList, by decide, by decide, by decide⟩ [] false

def futureType (t : DartType) : DartType := .mk ⟨'F', "uture".toList, by decide, by decide, by decide⟩ [t] false

def requiredParam (t : DartType) (n : LowerName) : Param where
  required := true
  type := t
  name := n
  optional := by
    intro h
    cases h

/-- `numOutputs`, of any type. -/
def numOutputs (t : DartType) : Param :=
  requiredParam t ⟨'n', "umOutputs".toList, by decide, by decide, by decide⟩

def amountParam : Param := requiredParam bigIntType ⟨'a', "mount".toList, by decide, by decide, by decide⟩

/-- The parameters after it. -/
def laterParams : List Param :=
  [requiredParam feePriorityType ⟨'p', "riority".toList, by decide, by decide, by decide⟩,
    requiredParam stringType ⟨'b', "aseUrl".toList, by decide, by decide, by decide⟩,
    requiredParam stringType ⟨'w', "alletName".toList, by decide, by decide, by decide⟩]

/-- `estimateTransactionFeeForOutputs` of `.dart/api/fee.dart`. -/
def estimateTransactionFeeForOutputs : Function where
  docs := [" Estimate the fee to pay `num_outputs` recipients a total of `amount` (in".toList,
    " **microTari**) in one transaction, at the given `priority`.".toList, [],
    " As [`estimate_transaction_fee`], which is this with `num_outputs = 1`. Use it to".toList,
    " quote a [`send_transaction`](crate::api::send_transaction::send_transaction).".toList]
  static := false
  returns := futureType feeEstimateType
  name := ⟨'e', "stimateTransactionFeeForOutputs".toList, by decide, by decide, by decide⟩
  params := amountParam :: numOutputs intType :: laterParams
  api := ⟨'c', "rateApiFeeEstimateTransactionFeeForOutputs".toList, by decide, by decide, by decide⟩

/-- Its `numOutputs` becomes a `BigInt`. -/
def numOutputsRetyped : Change :=
  .editFunction estimateTransactionFeeForOutputs (amountParam :: numOutputs bigIntType :: laterParams)
    ⟨[amountParam], numOutputs intType, some (numOutputs bigIntType), laterParams, by
      intro heq
      exact absurd (congrArg (Option.map Param.text) heq) (by decide), rfl, rfl⟩
    ⟨.perLine, .perArg⟩ ⟨.perLine, .perArg⟩

example : (numOutputsRetyped.old.drop 5).map String.ofList =
    ["Future<FeeEstimate> estimateTransactionFeeForOutputs(",
      "        \x7brequired BigInt amount,",
      "        required int numOutputs,",
      "        required FeePriority priority,",
      "        required String baseUrl,",
      "        required String walletName\x7d) =>",
      "    RustLib.instance.api.crateApiFeeEstimateTransactionFeeForOutputs(",
      "        amount: amount,",
      "        numOutputs: numOutputs,",
      "        priority: priority,",
      "        baseUrl: baseUrl,",
      "        walletName: walletName);"] := by decide

/-- What stands above it. -/
def feeImports : List Line := ["import 'network.dart';".toList, []]

def feeHeaders (hunk : String) : List (Header × String) :=
  [(.diff, "a/.dart/api/fee.dart b/.dart/api/fee.dart"), (.index, "5d3a1f0..8c2b7e4 100644"),
    (.oldFile, "a/.dart/api/fee.dart"), (.newFile, "b/.dart/api/fee.dart"), (.hunk, hunk)]

/-! ## Which breaks are stopped -/

/-- A break is stopped exactly when it takes away a line that names something. -/
theorem caught_iff {git : List Line → List Line → List DiffLine} {override : String} {before after : List Line}
    {c : Change} (hgit : IsDiff git) (hoverride : override ≠ "true") :
    Caught git override before after c ↔ c.TakesDeclaration := by
  constructor
  · intro hcaught
    by_contra htakes
    revert hcaught
    cases c with
    | remove d instead gone =>
      exact not_caught_of_within [] hgit hoverride rfl rfl (Decl.not_trips htakes)
    | editFunction f ps edit l l' =>
      obtain ⟨hl, hl'⟩ := not_or.mp htakes
      exact not_caught_of_wrapped hgit hoverride hl hl'
    | editVariant v ps edit =>
      exact not_caught_of_within [] hgit hoverride rfl rfl fun m hm => v.not_trips_lines hm
  · intro htakes
    cases c with
    | remove d instead gone =>
      refine caught_of_count hgit hoverride (Decl.trips_declaringLine htakes) ?_
      have hnone : instead.count d.declaringLine = 0 := List.count_eq_zero_of_not_mem gone
      have hsome : 0 < d.lines.count d.declaringLine := List.count_pos_iff.mpr Decl.declaringLine_mem
      exact hnone ▸ hsome
    | editFunction f ps edit l l' =>
      exact caught_of_count hgit hoverride f.trips_declaringLine (Function.count_declaringLine edit.ne htakes)
    | editVariant v ps edit => exact absurd htakes id

/-- The removal of the function is stopped. -/
theorem caught_removal : Caught (lineDiff (feeHeaders "-1,19 +1,2 @@")) "false" feeImports []
    (.remove (.function estimateTransactionFeeForOutputs ⟨.perLine, .perArg⟩) [] nofun) :=
  (caught_iff isDiff_lineDiff (by decide)).mpr trivial

/-- Not every break is stopped: in a wrapped signature a parameter may become another one. -/
theorem not_caught_numOutputsRetyped : ¬ ∀ (git : List Line → List Line → List DiffLine) (override : String)
    (before after : List Line) (c : Change), IsDiff git → override ≠ "true" →
      Caught git override before after c := by
  intro hall
  have hcaught := hall (lineDiff (feeHeaders "-7,7 +7,7 @@ import 'network.dart';")) "false" feeImports []
    numOutputsRetyped isDiff_lineDiff (by decide)
  refine not_caught_of_wrapped isDiff_lineDiff (by decide) ?_ ?_ hcaught
  · rintro (hnone | hone)
    · cases hnone
    · cases hone
  · rintro (hnone | hone)
    · cases hnone
    · cases hone

end CwTariWallet.GeneratedDart
