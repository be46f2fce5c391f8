/-
# CwTariWallet.Bridge.SendReleases -- where a failed send releases its inputs

A send builds on the pool its sender holds, and checks the session on that pool, but releases a
reservation on a connection from the process-wide path.  That is the file of its row as long as the
process is still on it (`failed_send_releases`).  When the send fails because the wallet was locked, it may
not be: the lock closed the pool, another path was recorded, and the release finds nothing to release there
(`released_elsewhere`).
-/
import CwTariWallet.Bridge.FileSteps
import CwTariWallet.Bridge.ScanFiles
import CwTariWallet.Bridge.SendCourse

namespace CwTariWallet

open Interleaving

variable {ok : Guard Shared Call} {s : World} {c : CallId}
variable {me : CallId} {ch : Choice} {σ σ' : Shared} {x x' : SendTransaction}

/-- Whenever a failing send gets the connection to release its reservation on, `get_db_path` answers the
path of the pool its sender holds. -/
def releasesAtHome (e : Event Call) (s : World) : Prop :=
  ∀ c x sender row cause path, e = .step c → s.calls c = some (.sendTransaction x) →
    x.pos = .releaseConn sender row cause → s.shared.db.getDbPath = .ok path → sender.dbPool = path

/-- The row and file of a build that returned. -/
def SendEvent.reservation : SendEvent → Option (RowId × PathBuf)
  | .built row file => some (row, file)
  | _ => none

namespace SendTransaction

theorem mem_reservation {row : RowId} {file : PathBuf} :
    .built row file ∈ x.log ↔ (row, file) ∈ x.log.filterMap SendEvent.reservation := by
  rw [List.mem_filterMap]
  constructor
  · intro h
    exact ⟨_, h, rfl⟩
  · rintro ⟨e, he, hrow⟩
    cases e <;> cases hrow
    exact he

/-- A send has one reservation at most. -/
theorem built_unique (ht : x.Trail) {row row' : RowId} {file file' : PathBuf}
    (h : .built row file ∈ x.log) (h' : .built row' file' ∈ x.log) : row' = row ∧ file' = file := by
  obtain ⟨live, row₀, file₀, n, hlog⟩ := filterMap_log SendEvent.reservation
    (fun e he => by cases e <;> first | rfl | cases he) ht
  rw [mem_reservation, hlog] at h h'
  have hsub := ((List.take_sublist n (course x.details live row₀ file₀)).filterMap
    SendEvent.reservation).subset
  obtain ⟨rfl, rfl⟩ := Prod.mk.inj (List.mem_singleton.mp (hsub h))
  obtain ⟨rfl, rfl⟩ := Prod.mk.inj (List.mem_singleton.mp (hsub h'))
  exact ⟨rfl, rfl⟩

/-- What a send is about to release it has built. -/
theorem built_of_reserved (ht : x.Trail) {row : RowId} {file : PathBuf}
    (h : x.pos.reserved = some (row, file)) : .built row file ∈ x.log := by
  obtain ⟨details, pos, log⟩ := x
  cases ht with
  | onCourse hn hrow hlog =>
    dsimp only at hn hrow hlog h
    obtain ⟨rfl, rfl⟩ := Prod.mk.inj (hrow _ h)
    subst hlog
    cases pos <;> cases h <;> cases hn <;> simp [course, report]
  | releasing hreleases hrow hfailed hlog =>
    dsimp only at hrow hlog h
    obtain ⟨rfl, rfl⟩ := Prod.mk.inj (Option.some.inj (hrow.symm.trans h))
    subst hlog
    cases hfailed <;> simp [course, report]
  | refused hover _ _ | released hover _ _ _ =>
    -- A send that is over has nothing left to release.
    cases pos <;> first | (cases hover; done) | cases h

/-- A build that returned now reserved its row. -/
theorem next_built (h : x.next ch σ = some (x', σ')) {row : RowId} {file : PathBuf}
    (hin : .built row file ∈ x'.log) :
    .built row file ∈ x.log ∨ (σ'.files file).pending row = some .pending := by
  obtain ⟨details, pos, log⟩ := x
  unfold next at h
  cases pos with
  | build sender =>
    dsimp only at h
    (repeat' split at h) <;> cases h
    · exact Or.inl (by simpa [goto, report] using hin)
    · exact Or.inl (by simpa [goto, report] using hin)
    · simp only [goto, report, List.mem_append, List.mem_cons, List.not_mem_nil, or_false,
        reduceCtorEq, false_or, SendEvent.built.injEq] at hin
      rcases hin with hold | ⟨rfl, rfl⟩
      · exact Or.inl hold
      · exact Or.inr (by simp [WalletDatabase.reserve])
  | _ =>
    left
    dsimp only at h
    (repeat' split at h) <;> cases h <;> simpa [goto, report] using hin

/-- A row that was expired now was expired by the release. -/
theorem next_expired (h : x.next ch σ = some (x', σ')) {row : RowId} {file : PathBuf} {acted : Bool}
    (hin : .expired row file acted ∈ x'.log) : .expired row file acted ∈ x.log ∨
      ∃ sender cause, x.pos = .release sender row cause file ∧
        σ'.files = (σ.setFile file ((σ.files file).expireAndUnlock row).2).files := by
  obtain ⟨details, pos, log⟩ := x
  unfold next at h
  cases pos with
  | release sender row' cause path =>
    dsimp only at h
    split at h <;> cases h
    · exact Or.inl (by simpa [goto] using hin)
    · simp only [goto, List.mem_append, List.mem_singleton, SendEvent.expired.injEq] at hin
      rcases hin with hold | ⟨rfl, rfl, rfl⟩
      · exact Or.inl hold
      · exact Or.inr ⟨sender, cause, rfl, rfl⟩
  | _ =>
    left
    dsimp only at h
    (repeat' split at h) <;> cases h <;> simpa [goto, report] using hin

/-- A send comes to its release by getting the connection for it. -/
theorem next_release (h : x.next ch σ = some (x', σ')) {sender : TransactionSender} {row : RowId}
    {cause : ReleaseCause} {file : PathBuf} (hpos : x'.pos = .release sender row cause file) :
    x.pos = .releaseConn sender row cause ∧ σ.db.getDbPath = .ok file := by
  obtain ⟨details, pos, log⟩ := x
  unfold next at h
  cases pos with
  | releaseConn sender' row' cause' =>
    dsimp only at h
    split at h <;> cases h
    · cases cause' <;> cases hpos
    · obtain ⟨rfl, rfl, rfl, rfl⟩ := SendAt.release.inj hpos
      exact ⟨rfl, Shared.getDbPath_of_connection ‹_›⟩
  | release sender' row' cause' path =>
    dsimp only at h
    split at h <;> cases h <;> cases cause' <;> cases hpos
  | _ =>
    dsimp only at h
    (repeat' split at h) <;> cases h <;> cases hpos

/-- A send that released at home: the file it releases in is its pool's, and what it released there is
settled. -/
structure AtHome (x : SendTransaction) (σ : Shared) : Prop where
  release : ∀ sender row cause file, x.pos = .release sender row cause file → file = sender.dbPool
  built : ∀ row file, .built row file ∈ x.log → (σ.files file).Tracked row
  expired : ∀ row file acted, .expired row file acted ∈ x.log →
    .built row file ∈ x.log ∧ (σ.files file).Settled row

/-- Whoever writes to a file, it stays so. -/
theorem AtHome.files (h : x.AtHome σ)
    (hkeep : ∀ file row, (σ.files file).KeepsRow (σ'.files file) row) : x.AtHome σ' where
  release := h.release
  built row file hin := (hkeep file row).tracked (h.built row file hin)
  expired row file acted hin :=
    have ⟨hbuilt, hsettled⟩ := h.expired row file acted hin
    ⟨hbuilt, (hkeep file row).settled hsettled⟩

theorem next_log (h : x.next ch σ = some (x', σ')) : ∀ e ∈ x.log, e ∈ x'.log := by
  intro e he
  obtain ⟨details, pos, log⟩ := x
  unfold next at h
  dsimp only at h
  split at h <;> (repeat' split at h) <;> cases h <;> exact List.mem_append_left _ he

theorem AtHome.step (ht : x.Trail) (h : x.AtHome σ)
    (hhome : ∀ sender row cause path, x.pos = .releaseConn sender row cause →
      σ.db.getDbPath = .ok path → sender.dbPool = path)
    (hkeep : ∀ file row, (σ.files file).KeepsRow (σ'.files file) row)
    (hstep : x.next ch σ = some (x', σ')) : x'.AtHome σ' := by
  have hkept := h.files hkeep
  refine ⟨?_, ?_, ?_⟩
  · intro sender row cause file hpos
    obtain ⟨hconn, hpath⟩ := next_release hstep hpos
    exact (hhome sender row cause file hconn hpath).symm
  · intro row file hin
    rcases next_built hstep hin with hold | hnow
    · exact hkept.built row file hold
    · exact Or.inl hnow
  · intro row file acted hin
    rcases next_expired hstep hin with hold | ⟨sender, cause, hpos, hfiles⟩
    · obtain ⟨hbuilt, hsettled⟩ := hkept.expired row file acted hold
      exact ⟨next_log hstep _ hbuilt, hsettled⟩
    · -- The release runs where the row was built.
      obtain rfl := h.release sender row cause file hpos
      have hbuilt : .built row sender.dbPool ∈ x.log := built_of_reserved ht (by rw [hpos]; rfl)
      refine ⟨next_log hstep _ hbuilt, ?_⟩
      rw [hfiles, Shared.setFile_files, Function.update_self]
      exact (h.built row sender.dbPool hbuilt).expireAndUnlock

end SendTransaction

theorem send_atHome (h : system.Reach releasesAtHome s) (hc : s.calls c = some (.sendTransaction x)) :
    x.AtHome s.shared := by
  refine h.outline (A := fun _ call σ => ∀ x, call = .sendTransaction x → x.AtHome σ) ?_ ?_ ?_ hc x rfl
  · rintro s c call _ _ hstart x rfl
    simp only [system, Call.starts, decide_eq_true_eq] at hstart
    rw [hstart]
    exact ⟨fun _ _ _ _ h => (by cases h), fun _ _ h => (by cases h), fun _ _ _ h => (by cases h)⟩
  · rintro s c call call' σ' hs hok hc hA ⟨ch, hstep⟩ x' rfl
    have hkeep := (Call.filesStep hstep).keepsRow
    obtain ⟨x, rfl, hnext⟩ := Call.of_next_sendTransaction hstep
    exact (hA x rfl).step (send_trail hs hc)
      (fun sender row cause path hpos hpath => hok c x sender row cause path rfl hc hpos hpath)
      hkeep hnext
  · rintro s c call call' σ' d m _ _ _ _ ⟨ch, hstep⟩ _ _ hB x hx
    exact (hB x hx).files (Call.filesStep hstep).keepsRow

/-- In every run in which a failing send gets the connection for its release while the process is on the
file of its pool, every release runs in the file in which the row was built, and leaves the row recorded
as sent or expired there, in which case it holds no output. -/
theorem failed_send_releases (h : system.Reach releasesAtHome s)
    (hc : s.calls c = some (.sendTransaction x)) {row : RowId} {file : PathBuf}
    (hbuilt : .built row file ∈ x.log) {row' : RowId} {file' : PathBuf} {acted : Bool}
    (hexpired : .expired row' file' acted ∈ x.log) :
    row' = row ∧ file' = file ∧ (s.shared.files file).Settled row := by
  obtain ⟨hbuilt', hsettled⟩ := (send_atHome h hc).expired row' file' acted hexpired
  obtain ⟨rfl, rfl⟩ := SendTransaction.built_unique (send_trail h hc) hbuilt hbuilt'
  exact ⟨rfl, rfl, hsettled⟩

/-! ## Two schedules -/

/-- `releasesAtHome`, decided for a call about to move. -/
def Call.releasesHome (σ : Shared) : Call → Bool
  | .sendTransaction x =>
    match x.pos, σ.db.getDbPath with
    | .releaseConn sender _ _, .ok path => decide (sender.dbPool = path)
    | _, _ => true
  | _ => true

def checksHome (e : Event Call) (s : World) : Bool :=
  match e with
  | .start _ _ => true
  | .step c => (s.calls c).all (Call.releasesHome s.shared)

theorem checksHome_sound {e : Event Call} (h : checksHome e s = true) : releasesAtHome e s := by
  rintro c x sender row cause path rfl hc hpos hpath
  simpa [checksHome, Call.releasesHome, hc, hpos, hpath] using h

/-- What a send has built and expired. -/
def Call.releases : Call → Option (List SendEvent)
  | .sendTransaction x => some (x.log.filter fun e => e.reservation.isSome || e matches .expired ..)
  | _ => none

/-- The wallet is locked under a send that has reserved its inputs, which it then releases. -/
def releasedAtHome : Option World :=
  (replay 3 checksHome).exec fresh (unlocks 0 firstPath ++ sends 1 ++ locks 2 ++ go 1 3)

theorem mem_of_releases {call : Call} {events : List SendEvent} (h : call.releases = some events) :
    ∃ x, call = .sendTransaction x ∧ ∀ e ∈ events, e ∈ x.log := by
  cases call <;> cases h
  exact ⟨_, rfl, fun e he => (List.mem_filter.mp he).1⟩

theorem failed_send_releases_releasedAtHome : ∃ s, releasedAtHome = some s ∧
    (s.shared.files firstPath).Settled "row" := by
  obtain ⟨s, hs⟩ := Option.isSome_iff_exists.mp (by decide : releasedAtHome.isSome = true)
  have facts : (releasedAtHome.bind fun s => s.calls 1).bind Call.releases =
      some [.built "row" firstPath, .expired "row" firstPath true] := by decide
  rw [hs, Option.bind_some, Option.bind_eq_some_iff] at facts
  obtain ⟨call, hcall, hreleases⟩ := facts
  obtain ⟨x, rfl, hlog⟩ := mem_of_releases hreleases
  have hR : (replay 3 checksHome).Sound system releasesAtHome :=
    replay_sound fun e s _ h => checksHome_sound h
  obtain ⟨-, -, hsettled⟩ := failed_send_releases (hR.reach fresh_init hs) hcall
    (hlog (.built "row" firstPath) (by decide)) (hlog (.expired "row" firstPath true) (by decide))
  exact ⟨s, hs, hsettled⟩

/-- Before the send comes to its release, another path is recorded. -/
def releasedElsewhere : Option World :=
  (replay 4 fun _ _ => true).exec fresh (unlocks 0 firstPath ++ sends 1 ++ locks 2 ++
    .start 3 (.setDatabasePath ⟨secondPath, .set⟩) :: go 3 1 ++ go 1 3)

/-- The release runs in a file that has no such row, and the inputs stay locked in the send's own. -/
theorem released_elsewhere : ¬ ∀ (s : World) (c : CallId) (x : SendTransaction) (row row' : RowId)
    (file file' : PathBuf) (acted : Bool) (e : BridgeError),
    system.Reach (fun _ _ => True) s → s.calls c = some (.sendTransaction x) →
    x.pos = .returned (.error e) → .built row file ∈ x.log → .expired row' file' acted ∈ x.log →
    file' = file ∨ ∀ o, (s.shared.files file).pending row = some .pending →
      (s.shared.files file).lockedBy o ≠ some row := by
  intro hall
  obtain ⟨s, hs⟩ := Option.isSome_iff_exists.mp (by decide : releasedElsewhere.isSome = true)
  have facts : releasedElsewhere.map (fun s => ((s.calls 1).bind Call.releases,
      (s.calls 1).map Call.returned, (s.shared.files firstPath).pending "row",
      (s.shared.files firstPath).lockedBy 7)) =
      some (some [.built "row" firstPath, .expired "row" secondPath false], some true, some .pending,
        some "row") := by decide
  have returned : (releasedElsewhere.bind fun s => s.calls 1).map (fun call => match call with
      | .sendTransaction x => decide (x.pos = .returned (.error (.wallet .locked)))
      | _ => false) = some true := by decide
  simp only [hs, Option.map_some, Option.some.injEq, Prod.mk.injEq, Option.bind_eq_some_iff,
    Option.bind_some, Option.map_eq_some_iff] at facts returned
  obtain ⟨⟨call, hcall, hreleases⟩, -, hpending, hlocked⟩ := facts
  obtain ⟨x, rfl, hlog⟩ := mem_of_releases hreleases
  obtain ⟨call', hcall', hreturned⟩ := returned
  obtain rfl := Option.some.inj (hcall.symm.trans hcall')
  have hR : (replay 4 fun _ _ => true).Sound system fun _ _ => True :=
    replay_sound fun _ _ _ _ => trivial
  rcases hall s 1 x "row" "row" firstPath secondPath false _ (hR.reach fresh_init hs) hcall
    (of_decide_eq_true hreturned) (hlog (.built "row" firstPath) (by decide))
    (hlog (.expired "row" secondPath false) (by decide)) with hsame | hfree
  · exact absurd hsame (by decide)
  · exact hfree 7 hpending hlocked

end CwTariWallet
