/-
# CwTariWallet.Scripts.ApiStability -- the public-API tripwire

`scripts/check_api_stability.sh` reads the lines of a `git diff` that were removed under `.dart/api/` and
fails when one of them is a declaration: when, comments and blank lines apart, it matches one of four
expressions.  All of them are anchored at the beginning of the line.
-/
import CwTariWallet.Regex

namespace CwTariWallet.ApiStability

open Regex

/-- A line, without the line break. -/
abbrev Line := List Char

/-! ## The expressions -/

/-- `\s`. -/
def isSpace (c : Char) : Bool := c = ' ' || (decide ('\t' ≤ c) && decide (c ≤ '\r'))

/-- `[A-Za-z0-9_]`. -/
def isWord (c : Char) : Bool := c.isAlphanum || c = '_'

/-- `[A-Za-z_]`. -/
def isWordStart (c : Char) : Bool := c.isAlpha || c = '_'

/-- `[A-Za-z0-9_<>,?\. ]`: the backslash is one of the class. -/
def isTypeChar (c : Char) : Bool :=
  isWord c || c = '<' || c = '>' || c = ',' || c = '?' || c = '\\' || c = '.' || c = ' '

/-- What the keywords of the first expression are. -/
def typeKeywords : List String :=
  ["class", "enum", "typedef", "extension", "mixin", "sealed class", "abstract class"]

/-- `^\s*(class|enum|typedef|extension|mixin|sealed class|abstract class)\s+[A-Za-z_]`. -/
def typePattern : Regex Char :=
  seqs [star (set isSpace), alts (typeKeywords.map fun w => word w.toList), plus (set isSpace),
    set isWordStart]

/-- `^\s*final\s+[A-Za-z_].*;`. -/
def fieldPattern : Regex Char :=
  seqs [star (set isSpace), word "final".toList, plus (set isSpace), set isWordStart,
    star (set fun _ => true), set (decide <| · = ';')]

/-- `^\s*[A-Za-z_<][A-Za-z0-9_<>,?\. ]*\s+[a-z_][A-Za-z0-9_]*\s*\(`. -/
def functionPattern : Regex Char :=
  seqs [star (set isSpace), set fun c => isWordStart c || c = '<', star (set isTypeChar),
    plus (set isSpace), set fun c => c.isLower || c = '_', star (set isWord), star (set isSpace),
    set (decide <| · = '(')]

/-- `^\s*[a-z][A-Za-z0-9_]*\s*,\s*$`. -/
def variantPattern : Regex Char :=
  seqs [star (set isSpace), set Char.isLower, star (set isWord), star (set isSpace),
    set (decide <| · = ','), star (set isSpace)]

/-- `^\s*//`. -/
def commentPattern : Regex Char := seqs [star (set isSpace), word "//".toList]

/-- `^\s*$`. -/
def blankPattern : Regex Char := star (set isSpace)

/-- What the last `grep` lets through. -/
def isDeclaration (l : Line) : Bool :=
  typePattern.acceptsPrefix l || fieldPattern.acceptsPrefix l || functionPattern.acceptsPrefix l ||
    variantPattern.accepts l

/-! ## The script -/

structure Outcome where
  output : List String
  exitCode : Nat

/-- `removed_lines`: the lines that `grep -E '^-'` finds, less those of `grep -vE '^---'`. -/
def removedLines (diff : List Line) : List Line :=
  (diff.filter (word "-".toList).acceptsPrefix).filter fun l => !(word "---".toList).acceptsPrefix l

/-- What `sed` does with a line: the minus at its beginning goes. -/
def dropMinus : Line → Line
  | '-' :: l => l
  | l => l

/-- `declaration_removals`. -/
def declarationRemovals (removed : List Line) : List Line :=
  (((removed.map dropMinus).filter fun l => !commentPattern.acceptsPrefix l).filter fun l =>
    !blankPattern.accepts l).filter isDeclaration

/-- `check_api_stability.sh`, on what `git diff` printed and the value of `OVERRIDE`. -/
def checkApiStability (diff : List Line) (override : String) : Outcome :=
  let removed := removedLines diff
  -- `set -e` and `|| true`: a `grep` that finds nothing is no failure
  if removed.isEmpty then ⟨["Public API stability: OK (no removals under .dart/api/**)."], 0⟩
  else
    let declarations := declarationRemovals removed
    if declarations.isEmpty then
      ⟨["Public API stability: OK (removals were non-declaration lines only)."], 0⟩
    else
      let report := ["Detected removed/renamed public-API declaration line(s) under .dart/api/**:",
        "----------------------------------------------------------------------"] ++
        declarations.map String.ofList ++
        ["----------------------------------------------------------------------"]
      if override = "true" then
        ⟨report ++ ["::warning::Breaking public-API change detected, but the 'breaking-api-approved' label is " ++
          "present — allowing."], 0⟩
      else
        ⟨report ++ ["::error::This changes the public API consumed by Cake Wallet. Breaking changes are " ++
          "forbidden — additive only, or coordinate a migration.", "",
          "If this break is intentional and has been coordinated with Cake Wallet, add the",
          "'breaking-api-approved' label to the PR and re-run this check."], 1⟩

/-! ## What `git diff` prints -/

/-- The lines around the changed ones. -/
inductive Header where
  | diff
  | index
  | oldFile
  | newFile
  | hunk
  | noNewline

def Header.keyword : Header → String
  | diff => "diff --git "
  | index => "index "
  | oldFile => "--- "
  | newFile => "+++ "
  | hunk => "@@ "
  | noNewline => "\\ No newline at end of file"

inductive DiffLine where
  | header (h : Header) (rest : Line)
  | context (l : Line)
  | removed (l : Line)
  | added (l : Line)

namespace DiffLine

def text : DiffLine → Line
  | header h rest => h.keyword.toList ++ rest
  | context l => ' ' :: l
  | removed l => '-' :: l
  | added l => '+' :: l

def removed? : DiffLine → Option Line
  | removed l => some l
  | _ => none

def added? : DiffLine → Option Line
  | added l => some l
  | _ => none

end DiffLine

/-- The lines a diff takes from the old file. -/
def removals (diff : List DiffLine) : List Line := diff.filterMap DiffLine.removed?

/-- The lines a diff adds to the new one. -/
def additions (diff : List DiffLine) : List Line := diff.filterMap DiffLine.added?

/-! ## When the check fails -/

/-- A line that trips the wire when it is removed. -/
def Trips (l : Line) : Prop :=
  commentPattern.acceptsPrefix l = false ∧ blankPattern.accepts l = false ∧ isDeclaration l = true

theorem mem_declarationRemovals {removed : List Line} {l : Line} :
    l ∈ declarationRemovals removed ↔ l ∈ removed.map dropMinus ∧ Trips l := by
  simp only [declarationRemovals, Trips, List.mem_filter, Bool.not_eq_true']
  tauto

/-- Without the override the check fails on a removed declaration, and on nothing else. -/
theorem exitCode_eq_one {diff : List Line} {override : String} (hoverride : override ≠ "true") :
    (checkApiStability diff override).exitCode = 1 ↔ ∃ l ∈ (removedLines diff).map dropMinus, Trips l := by
  have hexists : (∃ l ∈ (removedLines diff).map dropMinus, Trips l) ↔
      ∃ l, l ∈ declarationRemovals (removedLines diff) := exists_congr fun l => mem_declarationRemovals.symm
  rw [hexists]
  cases hdecls : declarationRemovals (removedLines diff) with
  | nil =>
    refine iff_of_false ?_ (by simp)
    unfold checkApiStability
    dsimp only
    rw [hdecls]
    split <;> exact Nat.zero_ne_one
  | cons l ls =>
    refine iff_of_true ?_ ⟨l, List.mem_cons_self⟩
    have hsome : removedLines diff ≠ [] := by
      intro hnone
      rw [hnone] at hdecls
      cases hdecls
    unfold checkApiStability
    dsimp only
    rw [hdecls, if_neg (by simp [hsome]), if_neg (by simp), if_neg hoverride]

theorem dropMinus_text {d : DiffLine} {l : Line} :
    ("-".toList <+: d.text ∧ ¬ "---".toList <+: d.text) ∧ dropMinus d.text = l ↔
      d.removed? = some l ∧ ¬ "--".toList <+: l := by
  cases d with
  | header h rest =>
    refine iff_of_false ?_ nofun
    rintro ⟨⟨hminus, hthree⟩, -⟩
    cases h with
    -- `--- a/...` is the one header that begins with a minus
    | oldFile => exact hthree ⟨' ' :: rest, rfl⟩
    | _ =>
      obtain ⟨y, hy⟩ := hminus
      cases hy
  | context l =>
    refine iff_of_false ?_ nofun
    rintro ⟨⟨⟨y, hy⟩, -⟩, -⟩
    cases hy
  | added l =>
    refine iff_of_false ?_ nofun
    rintro ⟨⟨⟨y, hy⟩, -⟩, -⟩
    cases hy
  | removed l' =>
    have hthree : "---".toList <+: '-' :: l' ↔ "--".toList <+: l' := List.prefix_cons_inj '-'
    constructor
    · rintro ⟨⟨-, hnot⟩, rfl⟩
      exact ⟨rfl, fun htwo => hnot (hthree.mpr htwo)⟩
    · rintro ⟨heq, hnot⟩
      obtain rfl := Option.some.inj heq
      exact ⟨⟨⟨l', rfl⟩, fun h => hnot (hthree.mp h)⟩, rfl⟩

/-- The script's removed lines are those the diff removes, less the ones that begin with two more minuses. -/
theorem mem_removedLines {diff : List DiffLine} {l : Line} :
    l ∈ (removedLines (diff.map DiffLine.text)).map dropMinus ↔ l ∈ removals diff ∧ ¬ "--".toList <+: l := by
  simp only [removedLines, removals, List.mem_map, List.mem_filter, List.mem_filterMap, Bool.not_eq_true',
    Bool.eq_false_iff, ne_eq, acceptsPrefix_word]
  constructor
  · rintro ⟨_, ⟨⟨⟨d, hd, rfl⟩, hminus⟩, hthree⟩, hl⟩
    have h := dropMinus_text.mp ⟨⟨hminus, hthree⟩, hl⟩
    exact ⟨⟨d, hd, h.1⟩, h.2⟩
  · rintro ⟨⟨d, hd, hl⟩, htwo⟩
    obtain ⟨⟨hminus, hthree⟩, hl⟩ := dropMinus_text.mpr ⟨hl, htwo⟩
    exact ⟨d.text, ⟨⟨⟨d, hd, rfl⟩, hminus⟩, hthree⟩, hl⟩

end CwTariWallet.ApiStability
