/-
# CwTariWallet.Bridge.ScanFiles -- the database file a scan works on

A scan reads `get_db_path` once, for the scanner, and after that fetches up to three connections of its
own: for its check, its sweep and the rollback of a rescan.  Each fetch reads the process-wide path
again.  The pool closes before the scan is cancelled, so in between the other engine can record another
path; as long as no fetch falls into such a gap the scan works on one file (`scan_on_one_file`), and
otherwise a rescan rolls back a wallet it never checked (`rolled_back_elsewhere`).
-/
import CwTariWallet.Bridge.LockedScans

namespace CwTariWallet

open Interleaving

variable {ok : Guard Shared Call} {s : World} {c : CallId}
variable {me : CallId} {ch : Choice} {σ σ' : Shared} {x x' : Scan}

/-- About to get a connection on the process-wide path. -/
def ScanAt.fetches : ScanAt → Bool
  | .conn | .sweepConn | .rollbackConn _ => true
  | _ => false

/-- The file a scan is about to read, sweep or roll back. -/
def ScanAt.file : ScanAt → Option PathBuf
  | .account file | .check file | .sweep file | .rollback file _ => some file
  | _ => none

/-- Has not read `get_db_path` yet. -/
def ScanAt.early : ScanAt → Bool
  | .claim | .dbPath => true
  | _ => false

/-- The file in which `unlocked_account` found the wallet unlocked, the file the sweep ran on and the file
that was rolled back are the one handed to the scanner. -/
structure Scan.OneFile (x : Scan) : Prop where
  checked : ∀ file key, x.checked = some (file, key) → x.dbPath = some file
  swept : ∀ file, x.swept = some file → x.dbPath = some file
  rolledBack : ∀ file, x.rolledBack = some file → x.dbPath = some file

/-- Whenever a scan gets a connection, `get_db_path` still answers the path that scan began with. -/
def fetchesOwnFile (e : Event Call) (s : World) : Prop :=
  ∀ c x path, e = .step c → s.calls c = some (.scan x) → x.pos.fetches = true →
    s.shared.db.getDbPath = .ok path → x.dbPath = some path

/-- `OneFile`, with what a scan is about to do. -/
structure Scan.OnFile (x : Scan) : Prop where
  done : x.OneFile
  next : ∀ file, x.pos.file = some file → x.dbPath = some file
  early : x.pos.early = true → x.checked = none ∧ x.swept = none ∧ x.rolledBack = none

theorem Shared.getDbPath_of_connection {file : PathBuf} (h : σ.getDbConnection ch = .ok file) :
    σ.db.getDbPath = .ok file := by
  unfold getDbConnection at h
  split at h
  · cases h
  · rename_i path hpath
    split at h
    · cases h
    · rw [hpath, Except.ok.inj h]

/-- Moving on without fetching a connection or working on one keeps to the file. -/
theorem Scan.OnFile.goto (h : x.OnFile) {pos : ScanAt} (hfile : pos.file = none)
    (hearly : pos.early = true → x.pos.early = true) : (x.goto pos).OnFile where
  done := ⟨h.done.checked, h.done.swept, h.done.rolledBack⟩
  next file hpos := by
    have hpos' : pos.file = some file := hpos
    rw [hfile] at hpos'
    cases hpos'
  early hpos := h.early (hearly hpos)

/-- Nor does fetching one that is on the file. -/
theorem Scan.OnFile.fetch (h : x.OnFile) {pos : ScanAt} {file : PathBuf} (hfile : pos.file = some file)
    (hearly : pos.early = false) (hpath : x.dbPath = some file) : (x.goto pos).OnFile where
  done := ⟨h.done.checked, h.done.swept, h.done.rolledBack⟩
  next file' hpos := by
    have hpos' : pos.file = some file' := hpos
    obtain rfl := Option.some.inj (hfile.symm.trans hpos')
    exact hpath
  early hpos := by
    have hpos' : pos.early = true := hpos
    rw [hearly] at hpos'
    cases hpos'

/-- A step keeps a scan on its file, when the connection it may get is on it. -/
theorem Scan.OnFile.step (h : x.OnFile) (hown : ∀ path, x.pos.fetches = true →
    σ.db.getDbPath = .ok path → x.dbPath = some path) (hstep : x.next me ch σ = some (x', σ')) :
    x'.OnFile := by
  obtain ⟨handle, v, priority, continuous, rescanFrom, pos, dbPath, forwarder, checked, swept, rolledBack⟩ := x
  unfold Scan.next at hstep
  cases pos with
  | claim =>
    dsimp only at hstep
    split at hstep
    · cases hstep
      exact h.goto rfl fun h => by cases h
    · split at hstep <;> cases hstep
      · exact h.goto rfl fun h => by cases h
      · exact h.goto rfl fun h => by cases h
      · exact h.goto rfl fun _ => rfl
  | dbPath =>
    -- Nothing has been checked, swept or rolled back before.
    dsimp only at hstep
    split at hstep <;> cases hstep
    · exact h.goto rfl fun h => by cases h
    · obtain ⟨hchecked, hswept, hrolled⟩ := h.early rfl
      refine ⟨⟨fun file key hk => ?_, fun file hf => ?_, fun file hf => ?_⟩, fun file hf => ?_,
        fun h => by cases h⟩
      · cases hchecked.symm.trans hk
      · cases hswept.symm.trans hf
      · cases hrolled.symm.trans hf
      · cases hf
  | conn | sweepConn | rollbackConn fromHeight =>
    cases rescanFrom <;> dsimp only at hstep <;> (repeat' split at hstep) <;> cases hstep <;>
      first
      | exact h.goto rfl fun h => by cases h
      | exact h.fetch rfl rfl (hown _ rfl (Shared.getDbPath_of_connection ‹_›))
  | account file =>
    have hpath := h.next file rfl
    dsimp only at hstep
    (repeat' split at hstep) <;> cases hstep <;>
      first
      | exact h.goto rfl fun h => by cases h
      | exact h.fetch rfl rfl hpath
  | check file =>
    have hpath := h.next file rfl
    dsimp only at hstep
    split at hstep
    · cases hstep
      exact h.goto rfl fun h => by cases h
    · cases hstep
      exact h.goto rfl fun h => by cases h
    · have hchecked (pos : ScanAt) (hpos : pos.file = none) (hearly : pos.early = false) :
          ({ handle := handle, walletName := v, priority := priority, continuous := continuous,
             rescanFrom := rescanFrom, pos := pos, dbPath := dbPath, forwarder := forwarder,
             checked := (σ.keys v).map fun k => (file, k), swept := swept,
             rolledBack := rolledBack } : Scan).OnFile := by
        refine ⟨⟨fun file' key hk => ?_, h.done.swept, h.done.rolledBack⟩, fun file' hf => ?_,
          fun he => ?_⟩
        · obtain ⟨k, -, hk⟩ := Option.map_eq_some_iff.mp hk
          obtain ⟨rfl, -⟩ := Prod.mk.inj hk
          exact hpath
        · cases hpos.symm.trans hf
        · cases hearly.symm.trans he
      split at hstep <;> cases hstep
      · exact hchecked _ rfl rfl
      · exact hchecked _ rfl rfl
  | sweep file =>
    have hpath := h.next file rfl
    have hswept (pos : ScanAt) (hpos : pos.file = none) (hearly : pos.early = false) :
        ({ handle := handle, walletName := v, priority := priority, continuous := continuous,
           rescanFrom := rescanFrom, pos := pos, dbPath := dbPath, forwarder := forwarder, checked := checked,
           swept := some file, rolledBack := rolledBack } : Scan).OnFile := by
      refine ⟨⟨h.done.checked, fun file' hf => ?_, h.done.rolledBack⟩, fun file' hf => ?_,
        fun he => ?_⟩
      · obtain rfl := Option.some.inj hf
        exact hpath
      · cases hpos.symm.trans hf
      · cases hearly.symm.trans he
    cases rescanFrom <;> cases hstep
    · exact hswept _ rfl rfl
    · exact hswept _ rfl rfl
  | rollback file fromHeight =>
    have hpath := h.next file rfl
    dsimp only at hstep
    split at hstep
    · cases hstep
      exact h.goto rfl fun h => by cases h
    · split at hstep <;> cases hstep
      · exact h.goto rfl fun h => by cases h
      · refine ⟨⟨h.done.checked, h.done.swept, fun file' hf => ?_⟩, fun file' hf => ?_,
          fun he => ?_⟩
        · obtain rfl := Option.some.inj hf
          exact hpath
        · cases hf
        · cases he
  | maintenance =>
    obtain ⟨σ₁, -, hstep⟩ := Option.map_eq_some_iff.mp hstep
    cases hstep
    exact h.goto rfl fun h => by cases h
  | running | draining result =>
    dsimp only at hstep
    split at hstep
    · cases hstep
      exact ⟨⟨h.done.checked, h.done.swept, h.done.rolledBack⟩, fun _ hf => (by cases hf),
        fun he => (by cases he)⟩
    · (repeat' split at hstep) <;> cases hstep <;> exact h.goto rfl fun h => by cases h
  | dropMaintenance previous =>
    cases previous <;> cases hstep <;> exact h.goto rfl fun h => by cases h
  | terminal outcome =>
    cases hstep
    exact ⟨⟨h.done.checked, h.done.swept, h.done.rolledBack⟩, fun _ hf => (by cases hf),
      fun he => (by cases he)⟩
  | _ =>
    dsimp only at hstep
    (repeat' split at hstep) <;> cases hstep <;> exact h.goto rfl fun h => by cases h

theorem scan_onFile (h : system.Reach fetchesOwnFile s) (hc : s.calls c = some (.scan x)) :
    x.OnFile := by
  refine h.outline (A := fun _ call _ => ∀ x, call = .scan x → x.OnFile) ?_ ?_ ?_ hc x rfl
  · rintro s c call _ _ hstart x rfl
    simp only [system, Call.starts, decide_eq_true_eq] at hstart
    rw [hstart]
    exact ⟨⟨fun _ _ h => (by cases h), fun _ h => (by cases h), fun _ h => (by cases h)⟩,
      fun _ h => (by cases h), fun _ => ⟨rfl, rfl, rfl⟩⟩
  · rintro s c call call' σ' _ hok hc hA ⟨ch, hstep⟩ x' rfl
    obtain ⟨x, rfl, hnext⟩ := Call.of_next_scan hstep
    exact (hA x rfl).step (fun path hfetch hpath => hok c x path rfl hc hfetch hpath) hnext
  · intro s c call call' σ' d m _ _ _ _ _ _ _ hB
    exact hB

/-- In every run in which no scan gets a connection while the process is on another file, every scan
checks, sweeps, rolls back and scans one file. -/
theorem scan_on_one_file (h : system.Reach fetchesOwnFile s) (hc : s.calls c = some (.scan x)) :
    x.OneFile :=
  (scan_onFile h hc).done

/-! ## Two schedules -/

/-- `fetchesOwnFile`, decided for a call about to move. -/
def Call.fetchesOwn (σ : Shared) : Call → Bool
  | .scan x => !x.pos.fetches || match σ.db.getDbPath with
    | .ok path => decide (x.dbPath = some path)
    | .error _ => true
  | _ => true

def checksOwnFile (e : Event Call) (s : World) : Bool :=
  match e with
  | .start _ _ => true
  | .step c => (s.calls c).all (Call.fetchesOwn s.shared)

theorem checksOwnFile_sound {e : Event Call} (h : checksOwnFile e s = true) : fetchesOwnFile e s := by
  rintro c x path rfl hc hfetch hpath
  simpa [checksOwnFile, Call.fetchesOwn, hc, hfetch, hpath] using h

/-- A `rescan` of "main" from `create_scan_handle` (call `h`) to where it has made its sweep. -/
def rescans (h c : CallId) (id : Nat) : List (Act Call Choice) :=
  .start h (.createScanHandle ⟨"main", .fetch⟩) :: go h 2 ++
    .start c (.scan ⟨⟨"main", id⟩, "main", .foreground, false, some 0, .claim, none, {}, none, none, none⟩) ::
      go c 11

/-- What `OneFile` is about, of a scan. -/
def Call.scanFiles : Call → Option (Option PathBuf × Option PathBuf × Option PathBuf × Option PathBuf)
  | .scan x => some (x.dbPath, x.checked.map (·.1), x.swept, x.rolledBack)
  | _ => none

/-- A rescan goes through its rollback with the wallet unlocked. -/
def rescanRolledBack : Option World :=
  (replay 3 checksOwnFile).exec fresh (unlocks 0 firstPath ++ rescans 1 2 0 ++ go 2 2)

theorem scan_on_one_file_rescanRolledBack : ∃ s x, rescanRolledBack = some s ∧
    s.calls 2 = some (.scan x) ∧ x.rolledBack = some firstPath ∧ x.dbPath = some firstPath := by
  obtain ⟨s, hs⟩ := Option.isSome_iff_exists.mp (by decide : rescanRolledBack.isSome = true)
  have facts : (rescanRolledBack.bind fun s => s.calls 2).bind Call.scanFiles =
      some (some firstPath, some firstPath, some firstPath, some firstPath) := by decide
  rw [hs, Option.bind_some, Option.bind_eq_some_iff] at facts
  obtain ⟨call, hcall, hfiles⟩ := facts
  cases call <;> simp only [Call.scanFiles, reduceCtorEq, Option.some.injEq, Prod.mk.injEq] at hfiles
  case scan x =>
  obtain ⟨-, -, -, hrolled⟩ := hfiles
  have hR : (replay 3 checksOwnFile).Sound system fetchesOwnFile :=
    replay_sound fun e s _ h => checksOwnFile_sound h
  have hone := scan_on_one_file (hR.reach fresh_init hs) hcall
  exact ⟨s, x, hs, hcall, hrolled, hone.rolledBack _ hrolled⟩

/-- The wallet is locked after the rescan's sweep, which closes the pool, and another path is recorded
before the rollback. -/
def rolledBackElsewhere : Option World :=
  (replay 5 fun _ _ => true).exec fresh (unlocks 0 firstPath ++ rescans 1 2 0 ++
    .start 3 (.lockWallet ⟨"main", some 0, .release⟩) :: go 3 1 ++
    .start 4 (.setDatabasePath ⟨secondPath, .set⟩) :: go 4 1 ++ go 2 2)

/-- A rescan rolls back the wallet of that name in a file it never looked at. -/
theorem rolled_back_elsewhere : ¬ ∀ (s : World) (c : CallId) (x : Scan),
    system.Reach (fun _ _ => True) s → s.calls c = some (.scan x) → x.OneFile := by
  intro hall
  obtain ⟨s, hs⟩ := Option.isSome_iff_exists.mp (by decide : rolledBackElsewhere.isSome = true)
  have facts : (rolledBackElsewhere.bind fun s => s.calls 2).bind Call.scanFiles =
      some (some firstPath, some firstPath, some firstPath, some secondPath) := by decide
  rw [hs, Option.bind_some, Option.bind_eq_some_iff] at facts
  obtain ⟨call, hcall, hfiles⟩ := facts
  cases call <;> simp only [Call.scanFiles, reduceCtorEq, Option.some.injEq, Prod.mk.injEq] at hfiles
  case scan x =>
  obtain ⟨hpath, -, -, hrolled⟩ := hfiles
  have hR : (replay 5 fun _ _ => true).Sound system fun _ _ => True :=
    replay_sound fun _ _ _ _ => trivial
  have hone := hall s 2 x (hR.reach fresh_init hs) hcall
  have hsame := hpath.symm.trans (hone.rolledBack _ hrolled)
  exact absurd hsame (by decide)

end CwTariWallet
