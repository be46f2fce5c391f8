/-
# CwTariWallet.Bridge.KeyReads -- reading a wallet's keys with an empty passphrase

Four paths read a wallet's keys through its session: `get_address`, the key load and the build of a send,
and the scanner.  Without a session minotari falls back to decrypting with the empty passphrase, and each
path looks at the session once more to tell.  What it finds may be a session that an unlock has put back
in the meantime; then what it read without one goes out as if nothing had happened (`withheld_iff`,
`not_withheld`).
-/
import CwTariWallet.Bridge.Handles
import CwTariWallet.Bridge.ScanFiles

namespace CwTariWallet

open Interleaving

variable {ok : Guard Shared Call} {s : World} {c : CallId}
variable {me : CallId} {ch : Choice} {σ σ' : Shared} {call call' : Call}

/-! ## The four paths -/

/-- The ways to read a wallet's keys with an empty passphrase. -/
inductive KeyPath where
  | address
  | keyLoad
  | build
  | scan
  deriving DecidableEq, Repr

/-- The keys the next step of a call reads.  A scanner reads them at one of its steps. -/
def Call.reads : Call → Option (KeyPath × WalletName)
  | .getAddress a =>
    match a.pos with
    | .read _ => some (.address, a.walletName)
    | _ => none
  | .sendTransaction x =>
    match x.pos with
    | .decrypt _ _ _ => some (.keyLoad, x.details.walletName)
    | .build sender =>
      if x.details.sendAll && sender.validated.recipients.isEmpty then none
      else some (.build, x.details.walletName)
    | _ => none
  | .scan x =>
    match x.pos with
    | .running => some (.scan, x.walletName)
    | _ => none
  | _ => none

/-- What a scan that found its wallet locked returns. -/
def Scan.lockedResult : Except BridgeError Unit := Scan.result (.error (.wallet .locked))

/-- The session the next step of a call asks for again, on a connection to which file: there is something
it would otherwise return or use, and that is not `Wallet is locked`. -/
def Call.rechecks : Call → Option (PathBuf × WalletName)
  | .getAddress a =>
    match a.pos with
    | .checkAgain file r => if r = .error (.wallet .locked) then none else some (file, a.walletName)
    | _ => none
  | .sendTransaction x =>
    match x.pos with
    | .keyCheckAgain _ file _ r =>
      if r = .error (.wallet .locked) then none else some (file, x.details.walletName)
    | .gone file e => if e = .wallet .locked then none else some (file, x.details.walletName)
    | .postBuild sender _ => some (sender.dbPool, x.details.walletName)
    | _ => none
  | .scan x =>
    match x.pos with
    | .gone file e =>
      if Scan.result (.error e) = Scan.lockedResult then none else some (file, x.walletName)
    | _ => none
  | _ => none

/-- Whether it finds one. -/
def Call.seesSession (call : Call) (ch : Choice) (σ : Shared) : Bool :=
  call.rechecks.any fun r => σ.keys.isUnlocked r.1 r.2 ch.foreign

/-- Whether a call is on its way from the read to `Wallet is locked`: it has passed on nothing of what it
read. -/
def KeyPath.withholds : KeyPath → Call → Bool
  | .address, .getAddress a =>
    match a.pos with
    | .checkAgain _ _ => true
    | .returned r => r = .error (.wallet .locked)
    | _ => false
  | .keyLoad, .sendTransaction x =>
    match x.pos with
    | .keyCheckAgain _ _ _ _ => true
    | .returned r => r = .error (.wallet .locked)
    | _ => false
  | .build, .sendTransaction x =>
    match x.pos with
    | .goneConn _ | .gone _ _ | .postBuild _ _ => true
    | .releaseConn _ _ cause | .release _ _ cause _ => cause = .locked
    | .returned r => r = .error (.wallet .locked)
    | _ => false
  | .scan, .scan x =>
    match x.pos with
    | .draining result => result.isSome
    | .clear (.error _) | .goneConn _ | .gone _ _ => true
    | .unstart outcome | .terminal outcome => Scan.result outcome = Scan.lockedResult
    | .stop r | .returned r => r = Scan.lockedResult
    | _ => false
  | _, _ => false

/-- The scanner ended in an error. -/
def Choice.scanFails (ch : Choice) : Bool := ch.event.isNone && ch.upstream.isSome

/-- No database call failed, and no connection was refused. -/
def Choice.NoDbError (ch : Choice) : Prop := ch.dbError = none ∧ ch.poolError = none

/-! ## A connection can be had -/

/-- Whether a call has got a connection before. -/
def Call.connected : Call → Bool
  | .sendTransaction x =>
    match x.pos with
    | .initializing | .validate | .applyNetwork _ | .createSender _ | .keyConn _ | .returned _ => false
    | _ => true
  | .scan x =>
    match x.pos with
    | .claim | .dbPath | .unstart _ | .terminal _ | .stop _ | .returned _ => false
    | _ => true
  | _ => false

theorem DbState.getDbPath_isSome {db : DbState} (h : db.Coherent) {path : PathBuf}
    (hpath : db.getDbPath = .ok path) : db.path = some path := by
  unfold getDbPath at hpath
  cases hopen : db.openDatabase with
  | some d =>
    rw [hopen] at hpath
    rw [h.path d hopen, Except.ok.inj hpath]
  | none =>
    rw [hopen] at hpath
    cases hp : db.path with
    | none => simp only [hp, reduceCtorEq] at hpath
    | some p =>
      simp only [hp] at hpath
      rw [Except.ok.inj hpath]

theorem DbState.exists_getDbPath {db : DbState} (h : db.path.isSome = true) :
    ∃ path, db.getDbPath = .ok path := by
  obtain ⟨path, hpath⟩ := Option.isSome_iff_exists.mp h
  unfold getDbPath
  cases db.openDatabase with
  | some d => exact ⟨d.path, rfl⟩
  | none => exact ⟨path, by rw [hpath]⟩

theorem DbState.removeSession_path (db : DbState) (w : WalletName) :
    (db.removeSession w).path = db.path := by
  unfold removeSession
  dsimp only
  split <;> rfl

theorem DbState.releaseOne_path {db db' : DbState} {w : WalletName} {zero : Bool}
    (h : db.releaseOne w = (zero, db')) : db'.path = db.path := by
  rcases releaseOne_cases h with ⟨-, -, rfl⟩ | ⟨session, rest, -, -, -, -, rfl⟩ | ⟨session, -, -, -, rfl⟩
  · rfl
  · rfl
  · exact removeSession_path db w

/-- A recorded path stays recorded. -/
theorem DbStep.path_kept (h : DbStep me call σ call' σ') (hpath : σ.db.path.isSome = true) :
    σ'.db.path.isSome = true := by
  cases h with
  | same heq _ => rwa [heq]
  | setPath _ hset =>
    unfold DbState.setDatabasePath at hset
    split at hset <;> cases hset
    rfl
  | countError _ hcount =>
    obtain ⟨db, rfl, rfl | ⟨rfl, -⟩⟩ := Shared.count_error hcount
    · exact hpath
    · exact hpath
  | count _ hcount =>
    obtain ⟨db, files, rfl, hacq, -⟩ := Shared.count_ok hcount
    obtain ⟨-, rfl⟩ := Prod.mk.inj hacq
    rfl
  | release _ hrel _ =>
    obtain ⟨db, hone, rfl⟩ := Shared.releaseSession_eq hrel
    rwa [DbState.releaseOne_path hone]
  | giveBack _ hgive _ =>
    rcases Shared.releaseFailed_eq hgive with ⟨-, db, hone, rfl⟩ | ⟨-, -, rfl⟩
    · rwa [DbState.releaseOne_path hone]
    · exact hpath
  | remove _ =>
    show (σ.db.removeSession _).path.isSome = true
    rwa [DbState.removeSession_path]

/-- A call gets its first connection to the recorded path. -/
theorem SendTransaction.connects {x x' : SendTransaction} (h : x.next ch σ = some (x', σ'))
    (hx : (Call.sendTransaction x').connected = true) :
    (Call.sendTransaction x).connected = true ∨ ∃ path, σ.db.getDbPath = .ok path := by
  obtain ⟨details, pos, log⟩ := x
  cases pos with
  | initializing | validate | applyNetwork _ | createSender _ =>
    unfold next at h
    dsimp only at h
    (repeat' split at h) <;> cases h <;> cases hx
  | keyConn sender =>
    unfold next at h
    dsimp only at h
    split at h <;> cases h
    · cases hx
    · exact Or.inr ⟨_, Shared.getDbPath_of_connection ‹_›⟩
  | returned r => cases h
  | _ => exact Or.inl rfl

theorem Scan.connects {x x' : Scan} (h : x.next me ch σ = some (x', σ'))
    (hx : (Call.scan x').connected = true) :
    (Call.scan x).connected = true ∨ ∃ path, σ.db.getDbPath = .ok path := by
  obtain ⟨handle, v, priority, continuous, rescanFrom, pos, dbPath, forwarder, checked, swept, rolledBack⟩ := x
  cases pos with
  | claim =>
    unfold next at h
    dsimp only at h
    (repeat' split at h) <;> cases h <;> cases hx
  | dbPath =>
    unfold next at h
    dsimp only at h
    split at h <;> cases h
    · cases hx
    · exact Or.inr ⟨_, ‹_›⟩
  | unstart _ | terminal _ | stop _ =>
    cases h
    cases hx
  | returned r => cases h
  | _ => exact Or.inl rfl

theorem Call.connects (h : call.next me ch σ = some (call', σ')) (hc : call'.connected = true) :
    call.connected = true ∨ ∃ path, σ.db.getDbPath = .ok path := by
  cases call with
  | sendTransaction x =>
    obtain ⟨x', hx', heq⟩ := Option.map_eq_some_iff.mp h
    cases heq
    exact SendTransaction.connects hx' hc
  | scan x =>
    obtain ⟨x', hx', heq⟩ := Option.map_eq_some_iff.mp h
    cases heq
    exact Scan.connects hx' hc
  | _ =>
    obtain ⟨r, -, heq⟩ := Option.map_eq_some_iff.mp h
    cases heq
    cases hc

/-- The path of a call that has got a connection is still there. -/
theorem connected_path (h : system.Reach ok s) (hc : s.calls c = some call)
    (hconnected : call.connected = true) : ∃ path, s.shared.db.getDbPath = .ok path := by
  refine DbState.exists_getDbPath (h.outline (A := fun _ call σ =>
    call.connected = true → σ.db.path.isSome = true) ?_ ?_ ?_ hc hconnected)
  · intro s c call _ _ hstart hconnected
    cases call with
    | sendTransaction x =>
      have hx : x = _ := of_decide_eq_true hstart
      rw [hx] at hconnected
      cases hconnected
    | scan x =>
      have hx : x = _ := of_decide_eq_true hstart
      rw [hx] at hconnected
      cases hconnected
    | _ => cases hconnected
  · rintro s c call call' σ' hs _ _ hA ⟨ch, hstep⟩ hconnected
    have hdb := Call.dbStep hstep
    rcases Call.connects hstep hconnected with hbefore | ⟨path, hpath⟩
    · exact hdb.path_kept (hA hbefore)
    · apply hdb.path_kept
      rw [DbState.getDbPath_isSome (db_coherent hs) hpath]
      rfl
  · rintro s c call call' σ' d m _ _ _ _ ⟨ch, hstep⟩ _ _ hA hconnected
    exact (Call.dbStep hstep).path_kept (hA hconnected)

/-! ## One step -/

theorem any_unless {α : Type} {p : Prop} [Decidable p] (a : α) (f : α → Bool) :
    (if p then none else some a).any f = (!decide p && f a) := by
  by_cases hp : p <;> simp [hp]

theorem Shared.isUnlocked_ok (h : ch.NoDbError) (file : PathBuf) (w : WalletName) :
    σ.isUnlocked file w ch = .ok (σ.keys.isUnlocked file w ch.foreign) := by
  unfold isUnlocked
  rw [h.1]

theorem Shared.getDbConnection_ok (h : ch.NoDbError) {path : PathBuf} (hpath : σ.db.getDbPath = .ok path) :
    σ.getDbConnection ch = .ok path := by
  unfold getDbConnection
  rw [hpath, h.2]

theorem SendTransaction.unlockedIn_eq (h : ch.NoDbError) (pool : PathBuf) (w : WalletName) :
    unlockedIn σ pool w ch = σ.keys.isUnlocked pool w ch.foreign := by
  unfold unlockedIn
  rw [Shared.isUnlocked_ok h, h.2]
  cases σ.keys.isUnlocked pool w ch.foreign <;> rfl

theorem GetAddress.withholds_of_reads {a a' : GetAddress} (h : a.next ch σ = some (a', σ'))
    {path : KeyPath} {w : WalletName} (hreads : (Call.getAddress a).reads = some (path, w)) :
    path.withholds (.getAddress a') = (decide (path ≠ .scan) || ch.scanFails) := by
  obtain ⟨v, network, pos, live⟩ := a
  cases pos with
  | read file =>
    cases hreads
    cases h
    rfl
  | _ => cases hreads

theorem SendTransaction.withholds_of_reads {x x' : SendTransaction} (h : x.next ch σ = some (x', σ'))
    {path : KeyPath} {w : WalletName} (hreads : (Call.sendTransaction x).reads = some (path, w)) :
    path.withholds (.sendTransaction x') = (decide (path ≠ .scan) || ch.scanFails) := by
  obtain ⟨details, pos, log⟩ := x
  cases pos with
  | decrypt sender file account =>
    cases hreads
    cases h
    rfl
  | build sender =>
    unfold next at h
    simp only [Call.reads] at hreads
    dsimp only at h hreads
    split at hreads
    · cases hreads
    · rename_i hpayee
      cases hreads
      rw [if_neg hpayee] at h
      (repeat' split at h) <;> cases h <;> rfl
  | _ => cases hreads

theorem Scan.withholds_of_reads {x x' : Scan} (h : x.next me ch σ = some (x', σ')) {path : KeyPath}
    {w : WalletName} (hreads : (Call.scan x).reads = some (path, w)) :
    path.withholds (.scan x') = (decide (path ≠ .scan) || ch.scanFails) := by
  obtain ⟨handle, v, priority, continuous, rescanFrom, pos, dbPath, forwarder, checked, swept, rolledBack⟩ := x
  cases pos with
  | running =>
    cases hreads
    unfold next at h
    dsimp only at h
    split at h <;> rename_i hevent <;> cases h
    · simp [KeyPath.withholds, Choice.scanFails, hevent]
    · simp [KeyPath.withholds, goto, Choice.scanFails, hevent]
  | _ => cases hreads

/-- After the read every path withholds what it read, but for a scanner that could do with it. -/
theorem KeyPath.withholds_of_reads (h : call.next me ch σ = some (call', σ')) {path : KeyPath}
    {w : WalletName} (hreads : call.reads = some (path, w)) :
    path.withholds call' = (decide (path ≠ .scan) || ch.scanFails) := by
  cases call with
  | getAddress a =>
    obtain ⟨r, hr, heq⟩ := Option.map_eq_some_iff.mp h
    cases heq
    exact GetAddress.withholds_of_reads hr hreads
  | sendTransaction x =>
    obtain ⟨r, hr, heq⟩ := Option.map_eq_some_iff.mp h
    cases heq
    exact SendTransaction.withholds_of_reads hr hreads
  | scan x =>
    obtain ⟨r, hr, heq⟩ := Option.map_eq_some_iff.mp h
    cases heq
    exact Scan.withholds_of_reads hr hreads
  | _ => cases hreads

theorem GetAddress.withholds_step {a a' : GetAddress} (h : a.next ch σ = some (a', σ'))
    {path : KeyPath} (hw : path.withholds (.getAddress a) = true) (hdb : ch.NoDbError) :
    path.withholds (.getAddress a') = !(Call.getAddress a).seesSession ch σ := by
  obtain ⟨v, network, pos, live⟩ := a
  cases path with
  | address =>
    cases pos with
    | checkAgain file r =>
      unfold next at h
      dsimp only at h
      rw [Shared.isUnlocked_ok hdb] at h
      cases hseen : σ.keys.isUnlocked file v ch.foreign <;> rw [hseen] at h <;> cases h <;>
        simp [KeyPath.withholds, Call.seesSession, Call.rechecks, goto, any_unless, hseen]
    | returned r => cases h
    | _ => cases hw
  | _ => cases hw

theorem SendTransaction.withholds_step {x x' : SendTransaction} (h : x.next ch σ = some (x', σ'))
    {path : KeyPath} (hw : path.withholds (.sendTransaction x) = true) (hdb : ch.NoDbError)
    (hconn : (Call.sendTransaction x).connected = true → ∃ p, σ.db.getDbPath = .ok p) :
    path.withholds (.sendTransaction x') = !(Call.sendTransaction x).seesSession ch σ := by
  obtain ⟨details, pos, log⟩ := x
  cases path with
  | keyLoad =>
    cases pos with
    | keyCheckAgain sender file account r =>
      unfold next at h
      dsimp only at h
      rw [Shared.isUnlocked_ok hdb] at h
      cases hseen : σ.keys.isUnlocked file details.walletName ch.foreign <;> rw [hseen] at h
      · cases h
        simp [KeyPath.withholds, Call.seesSession, Call.rechecks, goto, any_unless, hseen]
      · dsimp only at h
        (repeat' split at h) <;> cases h <;>
          simp [KeyPath.withholds, Call.seesSession, Call.rechecks, goto, any_unless, hseen]
    | returned r => cases h
    | _ => cases hw
  | build =>
    cases pos with
    | goneConn e =>
      obtain ⟨p, hp⟩ := hconn rfl
      unfold next at h
      dsimp only at h
      rw [Shared.getDbConnection_ok hdb hp] at h
      cases h
      rfl
    | gone file e =>
      unfold next at h
      dsimp only at h
      rw [Shared.isUnlocked_ok hdb] at h
      cases hseen : σ.keys.isUnlocked file details.walletName ch.foreign <;> rw [hseen] at h <;> cases h <;>
        simp [KeyPath.withholds, Call.seesSession, Call.rechecks, goto, any_unless, hseen]
    | postBuild sender row =>
      unfold next at h
      dsimp only at h
      rw [unlockedIn_eq hdb] at h
      cases hseen : σ.keys.isUnlocked sender.dbPool details.walletName ch.foreign <;> rw [hseen] at h <;>
        cases h <;> simp [KeyPath.withholds, Call.seesSession, Call.rechecks, goto, hseen]
    | releaseConn sender row cause =>
      have hcause : cause = .locked := of_decide_eq_true hw
      subst hcause
      unfold next at h
      dsimp only at h
      split at h <;> cases h <;> rfl
    | release sender row cause file =>
      have hcause : cause = .locked := of_decide_eq_true hw
      subst hcause
      unfold next at h
      dsimp only at h
      split at h <;> cases h <;> rfl
    | returned r => cases h
    | _ => cases hw
  | _ => cases hw

theorem Scan.withholds_step {x x' : Scan} (h : x.next me ch σ = some (x', σ')) {path : KeyPath}
    (hw : path.withholds (.scan x) = true) (hdb : ch.NoDbError)
    (hconn : (Call.scan x).connected = true → ∃ p, σ.db.getDbPath = .ok p) :
    path.withholds (.scan x') = !(Call.scan x).seesSession ch σ := by
  obtain ⟨handle, v, priority, continuous, rescanFrom, pos, dbPath, forwarder, checked, swept, rolledBack⟩ := x
  cases path with
  | scan =>
    cases pos with
    | draining result =>
      cases result with
      | none => cases hw
      | some text =>
        unfold next at h
        dsimp only at h
        split at h <;> cases h <;> rfl
    | clear outcome =>
      cases outcome with
      | ok event => cases hw
      | error e =>
        cases h
        rfl
    | goneConn e =>
      obtain ⟨p, hp⟩ := hconn rfl
      unfold next at h
      dsimp only at h
      rw [Shared.getDbConnection_ok hdb hp] at h
      cases h
      rfl
    | gone file e =>
      unfold next at h
      dsimp only at h
      rw [Shared.isUnlocked_ok hdb] at h
      cases hseen : σ.keys.isUnlocked file v ch.foreign <;> rw [hseen] at h <;> cases h
      · have hlocked : result (.error (.wallet .locked)) = lockedResult := rfl
        simp [KeyPath.withholds, Call.seesSession, Call.rechecks, goto, any_unless, hseen, hlocked]
      · simp [KeyPath.withholds, Call.seesSession, Call.rechecks, goto, any_unless, hseen]
    | unstart outcome =>
      cases h
      exact hw
    | terminal outcome =>
      cases h
      exact hw
    | stop r =>
      cases h
      exact hw
    | returned r => cases h
    | _ => cases hw
  | _ => cases hw

/-- From then on it goes on withholding it until it finds a session. -/
theorem KeyPath.withholds_step (h : call.next me ch σ = some (call', σ')) {path : KeyPath}
    (hw : path.withholds call = true) (hdb : ch.NoDbError)
    (hconn : call.connected = true → ∃ p, σ.db.getDbPath = .ok p) :
    path.withholds call' = !call.seesSession ch σ := by
  cases call with
  | getAddress a =>
    obtain ⟨r, hr, heq⟩ := Option.map_eq_some_iff.mp h
    cases heq
    exact GetAddress.withholds_step hr hw hdb
  | sendTransaction x =>
    obtain ⟨r, hr, heq⟩ := Option.map_eq_some_iff.mp h
    cases heq
    exact SendTransaction.withholds_step hr hw hdb hconn
  | scan x =>
    obtain ⟨r, hr, heq⟩ := Option.map_eq_some_iff.mp h
    cases heq
    exact Scan.withholds_step hr hw hdb hconn
  | _ => cases path <;> cases hw

/-! ## A whole run -/

namespace Footstep

/-- A step that reads a wallet's keys with an empty passphrase while the wallet has no session. -/
def ReadsLost (f : Footstep) (path : KeyPath) (w : WalletName) : Prop :=
  f.call.reads = some (path, w) ∧ f.shared.keys w = none

/-- A step that finds a session where it asks for one again. -/
def seesSession (f : Footstep) : Bool := f.call.seesSession f.choice f.shared

end Footstep

/-- From a read on, over the steps `post` up to where it stands now, a call withheld what it read. -/
def KeyPath.Withheld (path : KeyPath) (post : List Footstep) (call : Call) : Prop :=
  (∀ g ∈ post, path.withholds g.call = true) ∧ path.withholds call = true

/-- No step from a read on had a database error. -/
def NoDbErrors (steps : List Footstep) : Prop := ∀ g ∈ steps, g.choice.NoDbError

/-- What holds of a call's steps, wherever among them it read its keys. -/
def WithheldIff (steps : List Footstep) (call : Call) : Prop :=
  ∀ pre f post path w, steps = pre ++ f :: post → f.ReadsLost path w → NoDbErrors (f :: post) →
    (path.Withheld post call ↔
      (path = .scan → f.choice.scanFails = true) ∧ ∀ g ∈ post, g.seesSession = false)

theorem KeyPath.withheld_concat {path : KeyPath} {post : List Footstep} {g : Footstep} :
    path.Withheld (post ++ [g]) call' ↔ path.Withheld post g.call ∧ path.withholds call' = true := by
  rw [Withheld, Withheld, List.forall_mem_append, List.forall_mem_singleton]

/-- A step more keeps what holds. -/
theorem WithheldIff.step {steps : List Footstep} (h : WithheldIff steps call)
    (hstep : call.next me ch σ = some (call', σ'))
    (hconn : call.connected = true → ∃ p, σ.db.getDbPath = .ok p) :
    WithheldIff (steps ++ [⟨call, ch, σ⟩]) call' := by
  intro pre f post path w hsteps hlost hdb
  rcases List.eq_nil_or_concat post with rfl | ⟨before, g, rfl⟩
  · -- the read was the last step
    obtain ⟨-, hf⟩ := List.append_inj' hsteps rfl
    obtain rfl := List.head_eq_of_cons_eq hf
    have hafter := KeyPath.withholds_of_reads hstep hlost.1
    simp only [KeyPath.Withheld, hafter, List.not_mem_nil, false_imp_iff, implies_true, true_and, and_true]
    by_cases hscan : path = .scan <;> simp [hscan]
  · rw [List.concat_eq_append] at hsteps hdb ⊢
    have hsplit : pre ++ f :: (before ++ [g]) = (pre ++ f :: before) ++ [g] := by
      rw [List.append_assoc, List.cons_append]
    rw [hsplit] at hsteps
    obtain ⟨hbefore, hg⟩ := List.append_inj' hsteps rfl
    have hdb' := List.forall_mem_append.mp (show NoDbErrors ((f :: before) ++ [g]) from hdb)
    have hlast : g.choice.NoDbError := hdb'.2 g List.mem_cons_self
    obtain rfl := List.head_eq_of_cons_eq hg
    have hold := h pre f before path w hbefore hlost hdb'.1
    have hnow : path.Withheld before call →
        (path.withholds call' = true ↔ call.seesSession ch σ = false) := by
      intro hw
      rw [KeyPath.withholds_step hstep hw.2 hlast hconn, Bool.not_eq_true']
    calc path.Withheld (before ++ [⟨call, ch, σ⟩]) call'
        ↔ path.Withheld before call ∧ path.withholds call' = true := KeyPath.withheld_concat
      _ ↔ path.Withheld before call ∧ call.seesSession ch σ = false := and_congr_right hnow
      _ ↔ ((path = .scan → f.choice.scanFails = true) ∧ ∀ g ∈ before, g.seesSession = false) ∧
            call.seesSession ch σ = false := and_congr_left' hold
      _ ↔ _ := by
        rw [List.forall_mem_append, List.forall_mem_singleton, and_assoc]
        rfl

/-- A call that withholds what it read waits for nobody. -/
theorem KeyPath.withholds_moves {path : KeyPath} (hw : path.withholds call = true) :
    call.returned = true ∨ ∀ ch σ, (call.next me ch σ).isSome = true := by
  cases path <;> cases call <;> try cases hw
  case address.getAddress a =>
    obtain ⟨v, network, pos, live⟩ := a
    cases pos <;> try cases hw
    case checkAgain file r =>
      right
      intro ch σ
      simp only [Call.next, GetAddress.next, Option.isSome_map]
      split <;> rfl
    case returned r => exact Or.inl rfl
  case keyLoad.sendTransaction x =>
    obtain ⟨details, pos, log⟩ := x
    cases pos <;> try cases hw
    case keyCheckAgain sender file account r =>
      right
      intro ch σ
      simp only [Call.next, SendTransaction.next, Option.isSome_map]
      (repeat' split) <;> rfl
    case returned r => exact Or.inl rfl
  case build.sendTransaction x =>
    obtain ⟨details, pos, log⟩ := x
    cases pos <;> try cases hw
    case returned r => exact Or.inl rfl
    all_goals
      right
      intro ch σ
      simp only [Call.next, SendTransaction.next, Option.isSome_map]
      (repeat' split) <;> rfl
  case scan.scan x =>
    obtain ⟨handle, v, priority, continuous, rescanFrom, pos, dbPath,
      forwarder, checked, swept, rolledBack⟩ := x
    cases pos <;> try cases hw
    case returned r => exact Or.inl rfl
    all_goals
      right
      intro ch σ
      simp only [Call.next, Scan.next, Option.isSome_map]
      (repeat' split) <;> rfl

/-- A call that read a wallet's keys while the wallet had no session, and no database error since, comes to
`Wallet is locked` with nothing of what it read passed on, if and only if it finds no session where it asks
again; a scanner has to have failed on what it read, or it never asks. -/
theorem withheld_iff {s : StepWorld} (h : footsteps.recorded.Reach (Recording.guard ok) s)
    (hc : s.calls c = some call) {pre post : List Footstep} {f : Footstep} {path : KeyPath} {w : WalletName}
    (hsteps : s.shared.records c = pre ++ f :: post) (hlost : f.ReadsLost path w)
    (hdb : NoDbErrors (f :: post)) :
    (path.Withheld post call ↔
        (path = .scan → f.choice.scanFails = true) ∧ ∀ g ∈ post, g.seesSession = false) ∧
      (path.Withheld post call → call.returned = true ∨ ∀ ch σ, (call.next c ch σ).isSome = true) := by
  refine ⟨?_, fun hw => KeyPath.withholds_moves hw.2⟩
  refine Recording.own_course (R := footsteps) (A := fun _ call steps => WithheldIff steps call) ?_ ?_ h hc
    pre f post path w hsteps hlost hdb
  · intro c call _ pre f post path w hnil
    exact absurd hnil (by simp)
  · intro s c call ch call' σ' hs hcall hA hnext
    apply hA.step hnext
    intro hconnected
    exact connected_path (Recording.forget hs) hcall hconnected

/-! ## Locked, and unlocked again -/

/-- A `lock_wallet`, a `force_lock_wallet` or an `unlock_wallet`. -/
def Call.isSessionCall : Call → Bool
  | .lockWallet _ | .forceLockWallet _ | .unlockWallet _ => true
  | _ => false

/-- Schedules in which the other calls beside call `c` lock and unlock wallets. -/
def beside (c : CallId) : Guard Shared Call
  | .start d call, _ => d = c ∨ call.isSessionCall = true
  | .step _, _ => True

def replayBeside (c : CallId) : Replay (Recorded Shared Footstep) Call Choice :=
  footsteps.replay 4 Call.starts fun e _ =>
    match e with
    | .start d call => decide (d = c) || call.isSessionCall
    | .step _ => true

theorem replayBeside_sound : (replayBeside c).Sound footsteps.recorded (Recording.guard (beside c)) := by
  apply Recording.replay_sound (fun _ h => h)
  intro e s _ hcheck
  cases e with
  | start d call => simpa [beside] using hcheck
  | step d => exact trivial

/-- A `get_address` of "main" up to the read, a lock of "main", and the read with this answer. -/
def readsLocked (ch : Choice) : List (Act Call Choice) :=
  unlocks 0 firstPath ++ .start 1 (.getAddress ⟨"main", none, .network, none⟩) :: go 1 4 ++
    .start 2 (.lockWallet ⟨"main", none, .release⟩) :: go 2 7 ++ [.step 1 ch]

/-- Call 1 read the address of "main" at its fifth step with no session to read it through, and no database
error since; `p` is asked of its steps since, and of where it stands. -/
def StepWorld.lostAndThen (p : List Footstep → Call → Bool) (s : StepWorld) : Bool :=
  match s.calls 1, (s.shared.records 1).drop 4 with
  | some call, f :: post =>
    decide (f.call.reads = some (.address, "main")) && (f.shared.keys "main").isNone &&
      (f :: post).all (fun g => g.choice.dbError.isNone && g.choice.poolError.isNone) && p post call
  | _, _ => false

theorem StepWorld.lostAndThen_sound {p : List Footstep → Call → Bool} {s : StepWorld}
    (h : s.lostAndThen p = true) : ∃ call pre f post, s.calls 1 = some call ∧
      s.shared.records 1 = pre ++ f :: post ∧ f.ReadsLost .address "main" ∧ NoDbErrors (f :: post) ∧
        p post call = true := by
  unfold lostAndThen at h
  split at h
  · rename_i call f post hcall hsteps
    simp only [Bool.and_eq_true, decide_eq_true_eq, Option.isNone_iff_eq_none, List.all_eq_true] at h
    obtain ⟨⟨⟨hreads, hkeys⟩, hdb⟩, hp⟩ := h
    refine ⟨call, (s.shared.records 1).take 4, f, post, hcall, ?_, ⟨hreads, hkeys⟩, hdb, hp⟩
    rw [← hsteps, List.take_append_drop]
  · cases h

theorem exists_lostAndThen {p : List Footstep → Call → Bool} {acts : List (Act Call Choice)}
    (h : ((replayBeside 1).exec freshSteps acts).map (StepWorld.lostAndThen p) = some true) :
    ∃ s : StepWorld, footsteps.recorded.Reach (Recording.guard (beside 1)) s ∧ ∃ call pre f post,
      s.calls 1 = some call ∧ s.shared.records 1 = pre ++ f :: post ∧ f.ReadsLost .address "main" ∧
        NoDbErrors (f :: post) ∧ p post call = true := by
  obtain ⟨s, hs, hlost⟩ := Option.map_eq_some_iff.mp h
  exact ⟨s, replayBeside_sound.reach ⟨fresh_init, rfl⟩ hs, StepWorld.lostAndThen_sound hlost⟩

/-- The lock alone: the address is withheld. -/
theorem withheld_iff_locked : ∃ s : StepWorld, footsteps.recorded.Reach (Recording.guard (beside 1)) s ∧
    ∃ call post, ∃ f : Footstep, s.calls 1 = some call ∧ call.returned = true ∧
      f.ReadsLost .address "main" ∧ KeyPath.address.Withheld post call := by
  have hrun : ((replayBeside 1).exec freshSteps (readsLocked { address := "tari" } ++ go 1 1)).map
      (StepWorld.lostAndThen fun post call => call.returned && post.all fun g => !g.seesSession) =
        some true := by decide +kernel
  obtain ⟨s, hs, call, pre, f, post, hcall, hsteps, hlost, hdb, hp⟩ := exists_lostAndThen hrun
  simp only [Bool.and_eq_true, List.all_eq_true, Bool.not_eq_true'] at hp
  have hwithheld := (withheld_iff hs hcall hsteps hlost hdb).1.mpr ⟨fun hscan => (by cases hscan), hp.2⟩
  exact ⟨s, hs, call, post, f, hcall, hp.1, hlost, hwithheld⟩

/-- The lock and an unlock after it: what minotari made of the empty passphrase is returned. -/
theorem not_withheld : ¬ ∀ c (s : StepWorld), footsteps.recorded.Reach (Recording.guard (beside c)) s →
    ∀ call pre f post path w, s.calls c = some call → s.shared.records c = pre ++ f :: post →
      f.ReadsLost path w → NoDbErrors (f :: post) → path.Withheld post call := by
  intro hall
  have hrun : ((replayBeside 1).exec freshSteps
      (readsLocked { upstream := some "decryption failed" } ++ unlocks 3 firstPath ++ go 1 1)).map
      (StepWorld.lostAndThen fun _ call =>
        decide (call = .getAddress ⟨"main", none, .returned (.error (.upstream "decryption failed")),
          some false⟩)) = some true := by decide +kernel
  obtain ⟨s, hs, call, pre, f, post, hcall, hsteps, hlost, hdb, hp⟩ := exists_lostAndThen hrun
  obtain rfl := of_decide_eq_true hp
  have hwithheld := hall 1 s hs _ pre f post .address "main" hcall hsteps hlost hdb
  exact absurd hwithheld.2 (by decide)

end CwTariWallet
