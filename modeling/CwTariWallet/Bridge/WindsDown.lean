/-
# CwTariWallet.Bridge.WindsDown -- the calls in flight come to an end

The positions of a call are in line: whatever is answered, a step goes down the line, and no call has more
than 24 of them (`Call.toGo_le`).  Some steps are idle, and it is the outside world that makes a call take
them (`Call.idles`): the scanner reports an event while it runs or drains, minotari drops the key session a
maintenance write is on, or a continuous scanner that nobody has told to stop ends all the same.  With the
order of waits (`unwinds_waitsFor`) the bridge always winds down to where every call has returned, but for
the continuous scans that go on (`winds_down`).
-/
import CwTariWallet.Bridge.Handles
import CwTariWallet.Bridge.Sessions
import CwTariWallet.Bridge.StreamWaits
import CwTariWallet.Winding

namespace CwTariWallet

open Interleaving WaitGraph

/-! ## The steps a call still has -/

def GateHeldAt.toGo : GateHeldAt → Nat
  | .readState => 2
  | .lockSession => 1
  | .cancelScans => 0

def GateAt.toGo : GateAt → Nat
  | .wait => 4
  | .held h => 1 + h.toGo
  | .leave _ => 0

def StopAt.toGo : StopAt → Nat
  | .cancel => 1
  | .wait _ => 0

def EverywhereAt.toGo : EverywhereAt → Nat
  | .remove => 7
  | .gate _ g => 2 + g.toGo
  | .stop s => s.toGo

def SetPathAt.toGo : SetPathAt → Nat
  | .set => 1
  | .returned _ => 0

def LockAt.toGo : LockAt → Nat
  | .release => 8
  | .gate _ g => 3 + g.toGo
  | .stop s => 1 + s.toGo
  | .returned _ => 0

def ForceAt.toGo : ForceAt → Nat
  | .everywhere e => 1 + e.toGo
  | .returned => 0

def UnlockAt.toGo : UnlockAt → Nat
  | .count => 11
  | .gate _ => 10
  | .isUnlocked _ => 9
  | .verify _ => 8
  | .isUnlockedAgain _ => 7
  | .unlock _ => 6
  | .failed _ _ | .confirm _ => 5
  | .lockHeld h _ _ => 2 + h.toGo
  | .leave _ _ => 1
  | .returned _ _ => 0

def WithLockedAt.toGo : WithLockedAt → Nat
  | .begin => 21
  | .conn => 20
  | .lockBefore _ e => 12 + e.toGo
  | .change _ => 11
  | .settle _ _ => 10
  | .lockAfter e _ => 2 + e.toGo
  | .leave _ => 1
  | .returned _ => 0

def ChangeAt.toGo : ChangeAt → Nat
  | .conn => 9
  | .verify _ => 8
  | .begin => 7
  | .stop s => 5 + s.toGo
  | .connAgain => 4
  | .write _ => 3
  | .settle _ _ => 2
  | .leave _ => 1
  | .returned _ => 0

def AbandonAt.toGo : AbandonAt → Nat
  | .conn => 10
  | .verify _ => 9
  | .begin _ => 8
  | .connCheck _ => 7
  | .sameAccount _ _ => 6
  | .stop s _ => 4 + s.toGo
  | .connWrite _ => 3
  | .abandon _ _ => 2
  | .leave _ => 1
  | .returned _ => 0

def ScanAt.toGo : ScanAt → Nat
  | .claim => 24
  | .dbPath => 23
  | .conn => 22
  | .account _ => 21
  | .check _ => 20
  | .maintenance => 19
  | .slot => 18
  | .dropMaintenance _ => 17
  | .waitPrevious _ => 16
  | .firstCheck => 15
  | .sweepConn => 14
  | .sweep _ => 13
  | .rollbackConn _ => 12
  | .rollback _ _ => 11
  | .secondCheck => 10
  | .running => 9
  | .draining _ => 8
  | .readSuperseded => 7
  | .clear _ => 6
  | .goneConn _ => 5
  | .gone _ _ | .leaveMaintenance _ => 4
  | .unstart _ => 3
  | .terminal _ => 2
  | .stop _ => 1
  | .returned _ => 0

def StopScanAt.toGo : StopScanAt → Nat
  | .stop => 2
  | .wait _ => 1
  | .returned => 0

def CreateHandleAt.toGo : CreateHandleAt → Nat
  | .fetch => 2
  | .insert _ => 1
  | .returned _ => 0

def SendAt.toGo : SendAt → Nat
  | .initializing => 21
  | .validate => 20
  | .applyNetwork _ => 19
  | .createSender _ => 18
  | .keyConn _ => 17
  | .keyAccount _ _ => 16
  | .keyCheck _ _ _ => 15
  | .decrypt _ _ _ => 14
  | .keyCheckAgain _ _ _ _ => 13
  | .sweepConn _ => 12
  | .sweep _ _ => 11
  | .build _ => 10
  | .postBuild _ _ => 9
  | .signingKeys _ _ => 8
  | .sign _ _ => 7
  | .preFinalize _ _ => 6
  | .finalize _ _ => 5
  | .releaseConn _ _ _ => 4
  | .release _ _ _ _ => 3
  | .goneConn _ => 2
  | .gone _ _ | .broadcasted _ => 1
  | .returned _ => 0

def CreateAt.toGo : CreateAt → Nat
  | .network => 6
  | .parse => 5
  | .dbPath => 4
  | .details _ => 3
  | .init _ => 2
  | .finish => 1
  | .returned _ => 0

def AddressAt.toGo : AddressAt → Nat
  | .network => 6
  | .conn => 5
  | .account _ => 4
  | .check _ => 3
  | .read _ => 2
  | .checkAgain _ _ => 1
  | .returned _ => 0

/-- The most steps of its own a call can still take, not counting the idle ones. -/
def Call.toGo : Call → Nat
  | .setDatabasePath p => p.pos.toGo
  | .unlockWallet u => u.pos.toGo
  | .lockWallet l => l.pos.toGo
  | .forceLockWallet f => f.pos.toGo
  | .withWalletLocked m => m.pos.toGo
  | .changePassphrase p => p.pos.toGo
  | .abandonSend a => a.pos.toGo
  | .scan s => s.pos.toGo
  | .stopScan s => s.pos.toGo
  | .createScanHandle h => h.pos.toGo
  | .sendTransaction s => s.pos.toGo
  | .createWallet c => c.pos.toGo
  | .getAddress a => a.pos.toGo

/-- A continuous scanner that nobody has told to stop polls for new blocks and goes on. -/
def Call.goesOn (me : CallId) (σ : Shared) : Call → Bool
  | .scan s => s.continuous && decide (s.pos = .running) && !(σ.tokens me).cancelled
  | _ => false

/-- The scanner reports an event, or minotari drops the key session a maintenance write is on: the call
stays where it is. -/
def Call.stays (ch : Choice) : Call → Bool
  | .scan s =>
    match s.pos with
    | .running | .draining _ => ch.event.isSome
    | _ => false
  | .withWalletLocked m =>
    match m.pos with
    | .change _ | .settle _ _ => ch.drops
    | _ => false
  | .changePassphrase p =>
    match p.pos with
    | .write _ | .settle _ _ => ch.drops
    | _ => false
  | _ => false

/-- What the call does is up to the outside world, which need not do it: the call stays where it is, or is a
continuous scan whose scanner would have to end by itself. -/
def Call.idles (me : CallId) (σ : Shared) (ch : Choice) (call : Call) : Bool :=
  call.goesOn me σ || call.stays ch

/-- A step that takes the call on. -/
def Call.Works : StepRel Shared Call := fun me call σ call' σ' =>
  ∃ ch, call.idles me σ ch = false ∧ call.next me ch σ = some (call', σ')

/-- A step that does not, or that nobody can count on. -/
def Call.Idles : StepRel Shared Call := fun me call σ call' σ' =>
  ∃ ch, call.idles me σ ch = true ∧ call.next me ch σ = some (call', σ')

/-! ## Every step goes down the line -/

variable {me : CallId} {ch : Choice} {σ σ' : Shared} {w : WalletName}

theorem GateHeldAt.toGo_lt {h h' : GateHeldAt} (hnext : h.next w σ = (.inl h', σ')) : h'.toGo < h.toGo := by
  cases h with
  | readState =>
    simp only [GateHeldAt.next] at hnext
    split at hnext <;> cases hnext
    decide
  | lockSession =>
    cases hnext
    decide
  | cancelScans => cases hnext

theorem GateAt.toGo_lt {g g' : GateAt} (hnext : g.next me w σ = some (.inl g', σ')) : g'.toGo < g.toGo := by
  cases g with
  | wait =>
    obtain ⟨σ₁, -, h⟩ := Option.map_eq_some_iff.mp hnext
    cases h
    decide
  | held h =>
    simp only [GateAt.next] at hnext
    split at hnext <;> cases hnext
    · have hless := GateHeldAt.toGo_lt ‹_›
      show 1 + _ < 1 + _
      omega
    · show 0 < 1 + h.toGo
      omega
  | leave locked => cases hnext

theorem StopAt.toGo_lt {s s' : StopAt} (hnext : s.next w σ = some (.inl s', σ')) : s'.toGo < s.toGo := by
  rcases StopAt.next_eq hnext with ⟨rfl, -, hr⟩ | ⟨c, -, -, -, hr⟩
  · cases hrun : σ.scans.running.lookup w <;> rw [hrun] at hr <;> cases hr
    exact Nat.zero_lt_one
  · cases hr

theorem EverywhereAt.toGo_lt {e e' : EverywhereAt} (hnext : e.next me w σ = some (.inl e', σ')) :
    e'.toGo < e.toGo := by
  cases e with
  | remove =>
    cases hnext
    show 2 + 4 < 7
    omega
  | gate file g =>
    simp only [EverywhereAt.next] at hnext
    split at hnext <;> cases hnext
    · have hless := GateAt.toGo_lt ‹_›
      show 2 + _ < 2 + _
      omega
    · show 1 < 2 + g.toGo
      omega
  | stop s =>
    simp only [EverywhereAt.next] at hnext
    split at hnext <;> cases hnext
    exact StopAt.toGo_lt ‹_›

theorem SetDatabasePath.toGo_lt {p p' : SetDatabasePath} (h : p.next σ = some (p', σ')) :
    p'.pos.toGo < p.pos.toGo := by
  obtain ⟨path, pos⟩ := p
  cases pos with
  | set =>
    simp only [next] at h
    split at h <;> cases h <;> exact Nat.zero_lt_one
  | returned r => cases h

theorem UnlockWallet.toGo_lt {u u' : UnlockWallet} (h : u.next me ch σ = some (u', σ')) :
    u'.pos.toGo < u.pos.toGo := by
  obtain ⟨path, v, passphrase, pos⟩ := u
  unfold next at h
  cases pos with
  | gate g =>
    obtain ⟨σ₁, -, h⟩ := Option.map_eq_some_iff.mp h
    cases h
    show 9 < 10
    omega
  | lockHeld hh g e =>
    dsimp only at h
    split at h <;> cases h
    · have hless := GateHeldAt.toGo_lt ‹_›
      show 2 + _ < 2 + _
      omega
    · show 1 < 2 + hh.toGo
      omega
  | _ =>
    dsimp only at h
    (repeat' split at h) <;> cases h <;> simp [UnlockWallet.to, UnlockAt.toGo, GateHeldAt.toGo]

theorem LockWallet.toGo_lt {l l' : LockWallet} (h : l.next me σ = some (l', σ')) : l'.pos.toGo < l.pos.toGo := by
  obtain ⟨v, holder, pos⟩ := l
  unfold next at h
  cases pos with
  | release =>
    dsimp only at h
    split at h <;> cases h <;> simp [LockAt.toGo, GateAt.toGo]
  | gate file g =>
    dsimp only at h
    split at h <;> cases h
    · have hless := GateAt.toGo_lt ‹_›
      show 3 + _ < 3 + _
      omega
    · show 0 < 3 + g.toGo
      omega
    · show 1 + 1 < 3 + g.toGo
      omega
  | stop s =>
    dsimp only at h
    split at h <;> cases h
    · have hless := StopAt.toGo_lt ‹_›
      show 1 + _ < 1 + _
      omega
    · show 0 < 1 + s.toGo
      omega
  | returned r => cases h

theorem ForceLockWallet.toGo_lt {f f' : ForceLockWallet} (h : f.next me σ = some (f', σ')) :
    f'.pos.toGo < f.pos.toGo := by
  obtain ⟨v, pos⟩ := f
  unfold next at h
  cases pos with
  | everywhere e =>
    dsimp only at h
    split at h <;> cases h
    · have hless := EverywhereAt.toGo_lt ‹_›
      show 1 + _ < 1 + _
      omega
    · show 0 < 1 + e.toGo
      omega
  | returned => cases h

theorem WithWalletLocked.toGo_lt {m m' : WithWalletLocked} (hwork : (Call.withWalletLocked m).stays ch = false)
    (h : m.next me ch σ = some (m', σ')) : m'.pos.toGo < m.pos.toGo := by
  obtain ⟨v, change, pos⟩ := m
  unfold next at h
  cases pos with
  | «begin» =>
    dsimp only at h
    split at h
    · cases h
      simp [WithWalletLocked.to, WithLockedAt.toGo]
    · obtain ⟨σ₁, -, h⟩ := Option.map_eq_some_iff.mp h
      cases h
      show 20 < 21
      omega
  | conn =>
    dsimp only at h
    split at h <;> cases h <;> simp [WithWalletLocked.to, WithLockedAt.toGo, EverywhereAt.toGo]
  | lockBefore file e =>
    dsimp only at h
    split at h <;> cases h
    · have hless := EverywhereAt.toGo_lt ‹_›
      show 12 + _ < 12 + _
      omega
    · show 11 < 12 + e.toGo
      omega
  | change file =>
    have hkept : ch.drops = false := hwork
    simp only [hkept] at h
    cases h
    show 10 < 11
    omega
  | settle file changed =>
    have hkept : ch.drops = false := hwork
    simp only [hkept] at h
    cases h
    show 2 + 7 < 10
    omega
  | lockAfter e changed =>
    dsimp only at h
    split at h <;> cases h
    · have hless := EverywhereAt.toGo_lt ‹_›
      show 2 + _ < 2 + _
      omega
    · show 1 < 2 + e.toGo
      omega
  | leave r =>
    cases h
    exact Nat.zero_lt_one
  | returned r => cases h

theorem ChangePassphrase.toGo_lt {p p' : ChangePassphrase} (hwork : (Call.changePassphrase p).stays ch = false)
    (h : p.next me ch σ = some (p', σ')) : p'.pos.toGo < p.pos.toGo := by
  obtain ⟨v, old, new, pos⟩ := p
  unfold next at h
  cases pos with
  | «begin» =>
    obtain ⟨σ₁, -, h⟩ := Option.map_eq_some_iff.mp h
    cases h
    show 5 + 1 < 7
    omega
  | stop s =>
    dsimp only at h
    split at h <;> cases h
    · have hless := StopAt.toGo_lt ‹_›
      show 5 + _ < 5 + _
      omega
    · show 4 < 5 + s.toGo
      omega
  | write file =>
    have hkept : ch.drops = false := hwork
    simp only [hkept, Bool.false_eq_true, if_false] at h
    split at h <;> cases h <;> exact Nat.lt_succ_self 2
  | settle file r =>
    have hkept : ch.drops = false := hwork
    simp only [hkept] at h
    cases h
    exact Nat.lt_succ_self 1
  | _ =>
    dsimp only at h
    (repeat' split at h) <;> cases h <;> simp [ChangePassphrase.to, ChangeAt.toGo]

theorem AbandonSend.toGo_lt {a a' : AbandonSend} (h : a.next me ch σ = some (a', σ')) :
    a'.pos.toGo < a.pos.toGo := by
  obtain ⟨v, passphrase, transactionId, pos⟩ := a
  unfold next at h
  cases pos with
  | «begin» account =>
    obtain ⟨σ₁, -, h⟩ := Option.map_eq_some_iff.mp h
    cases h
    show 7 < 8
    omega
  | stop s account =>
    dsimp only at h
    split at h <;> cases h
    · have hless := StopAt.toGo_lt ‹_›
      show 4 + _ < 4 + _
      omega
    · show 3 < 4 + s.toGo
      omega
  | _ =>
    dsimp only at h
    (repeat' split at h) <;> cases h <;> simp [AbandonSend.to, AbandonAt.toGo, StopAt.toGo]

theorem Scan.afterSweep_toGo (s : Scan) : s.afterSweep.pos.toGo ≤ 12 := by
  unfold afterSweep
  split <;> simp [goto, ScanAt.toGo]

theorem Scan.toGo_lt {s s' : Scan} (hwork : (Call.scan s).stays ch = false)
    (h : s.next me ch σ = some (s', σ')) : s'.pos.toGo < s.pos.toGo := by
  obtain ⟨handle, v, priority, continuous, rescanFrom, pos, dbPath, forwarder, checked, swept, rolledBack⟩ := s
  unfold next at h
  cases pos with
  | maintenance =>
    obtain ⟨σ₁, -, h⟩ := Option.map_eq_some_iff.mp h
    cases h
    exact Nat.lt_succ_self 18
  | dropMaintenance previous =>
    cases h
    cases previous <;> simp [goto, ScanAt.toGo]
  | sweepConn =>
    dsimp only at h
    split at h <;> cases h
    · exact Nat.lt_of_le_of_lt (afterSweep_toGo _) (by show 12 < 14; omega)
    · exact Nat.lt_succ_self 13
  | sweep file =>
    cases h
    exact Nat.lt_of_le_of_lt (afterSweep_toGo _) (Nat.lt_succ_self 12)
  | running =>
    have hsilent : ch.event = none := Option.isNone_iff_eq_none.mp (Option.isSome_eq_false_iff.mp hwork)
    simp only [hsilent] at h
    cases h
    exact Nat.lt_succ_self 8
  | draining result =>
    have hsilent : ch.event = none := Option.isNone_iff_eq_none.mp (Option.isSome_eq_false_iff.mp hwork)
    simp only [hsilent] at h
    split at h <;> cases h <;> simp [goto, ScanAt.toGo]
  | _ =>
    dsimp only at h
    (repeat' split at h) <;> cases h <;> simp [goto, ScanAt.toGo]

theorem StopScan.toGo_lt {s s' : StopScan} (h : s.next σ = some (s', σ')) : s'.pos.toGo < s.pos.toGo := by
  obtain ⟨handle, pos⟩ := s
  unfold next at h
  cases pos <;> dsimp only at h <;> (repeat' split at h) <;> cases h <;> simp [StopScanAt.toGo]

theorem CreateScanHandle.toGo_lt {a a' : CreateScanHandle} (h : a.next σ = some (a', σ')) :
    a'.pos.toGo < a.pos.toGo := by
  obtain ⟨v, pos⟩ := a
  cases pos <;> cases h <;> simp [CreateHandleAt.toGo]

theorem SendTransaction.afterRelease_toGo (cause : ReleaseCause) : (afterRelease cause).toGo ≤ 2 := by
  cases cause <;> simp [afterRelease, SendAt.toGo]

theorem SendTransaction.toGo_lt {s s' : SendTransaction} (h : s.next ch σ = some (s', σ')) :
    s'.pos.toGo < s.pos.toGo := by
  obtain ⟨details, pos, log⟩ := s
  unfold next at h
  cases pos with
  | releaseConn sender row cause =>
    have hafter := afterRelease_toGo cause
    dsimp only at h
    split at h <;> cases h
    · show (afterRelease cause).toGo < 4
      omega
    · exact Nat.lt_succ_self 3
  | release sender row cause file =>
    have hafter := afterRelease_toGo cause
    dsimp only at h
    split at h <;> cases h <;> exact Nat.lt_succ_of_le hafter
  | _ =>
    dsimp only at h
    (repeat' split at h) <;> cases h <;> simp [goto, SendAt.toGo]

theorem CreateWallet.toGo_lt {c c' : CreateWallet} (h : c.next ch σ = some (c', σ')) :
    c'.pos.toGo < c.pos.toGo := by
  obtain ⟨v, network, passphrase, source, pos⟩ := c
  unfold next at h
  cases pos <;> cases source <;> dsimp only at h <;> (repeat' split at h) <;> cases h <;>
    simp [goto, CreateAt.toGo]

theorem GetAddress.toGo_lt {a a' : GetAddress} (h : a.next ch σ = some (a', σ')) :
    a'.pos.toGo < a.pos.toGo := by
  obtain ⟨v, network, pos, live⟩ := a
  unfold next at h
  cases pos <;> dsimp only at h <;> (repeat' split at h) <;> cases h <;> simp [goto, AddressAt.toGo]

/-- A step of work takes a call on. -/
theorem Call.toGo_lt {call call' : Call} (hwork : call.stays ch = false)
    (h : call.next me ch σ = some (call', σ')) : call'.toGo < call.toGo := by
  cases call <;> obtain ⟨r, hr, h⟩ := Option.map_eq_some_iff.mp h <;> cases h
  case setDatabasePath p => exact SetDatabasePath.toGo_lt hr
  case unlockWallet u => exact UnlockWallet.toGo_lt hr
  case lockWallet l => exact LockWallet.toGo_lt hr
  case forceLockWallet f => exact ForceLockWallet.toGo_lt hr
  case withWalletLocked m => exact WithWalletLocked.toGo_lt hwork hr
  case changePassphrase p => exact ChangePassphrase.toGo_lt hwork hr
  case abandonSend a => exact AbandonSend.toGo_lt hr
  case scan s => exact Scan.toGo_lt hwork hr
  case stopScan s => exact StopScan.toGo_lt hr
  case createScanHandle a => exact CreateScanHandle.toGo_lt hr
  case sendTransaction s => exact SendTransaction.toGo_lt hr
  case createWallet c => exact CreateWallet.toGo_lt hr
  case getAddress a => exact GetAddress.toGo_lt hr

theorem Call.toGo_of_stays {call call' : Call} (hidle : call.stays ch = true)
    (h : call.next me ch σ = some (call', σ')) : call'.toGo = call.toGo := by
  cases call <;> try cases hidle
  case withWalletLocked m =>
    obtain ⟨v, change, pos⟩ := m
    cases pos <;> try cases hidle
    all_goals
      have hdrops : ch.drops = true := hidle
      simp only [next, WithWalletLocked.next, hdrops, if_true] at h
      cases h
      rfl
  case changePassphrase p =>
    obtain ⟨v, old, new, pos⟩ := p
    cases pos <;> try cases hidle
    all_goals
      have hdrops : ch.drops = true := hidle
      simp only [next, ChangePassphrase.next, hdrops, if_true] at h
      cases h
      rfl
  case scan s =>
    obtain ⟨handle, v, priority, continuous, rescanFrom, pos, dbPath,
      forwarder, checked, swept, rolledBack⟩ := s
    cases pos <;> try cases hidle
    all_goals
      have hevent : ch.event.isSome = true := hidle
      obtain ⟨event, hevent⟩ := Option.isSome_iff_exists.mp hevent
      simp only [next, Scan.next, hevent] at h
      cases h
      rfl

theorem Call.toGo_le_of_next {call call' : Call} (h : call.next me ch σ = some (call', σ')) :
    call'.toGo ≤ call.toGo := by
  cases hstays : call.stays ch with
  | true => exact Nat.le_of_eq (Call.toGo_of_stays hstays h)
  | false => exact Nat.le_of_lt (Call.toGo_lt hstays h)

theorem Call.ranked : Ranked Call.Works Call.Idles Call.toGo where
  work := by
    rintro me call σ call' σ' ⟨ch, hwork, hnext⟩
    exact Call.toGo_lt (Bool.or_eq_false_iff.mp hwork).2 hnext
  idle := by
    rintro me call σ call' σ' ⟨ch, -, hnext⟩
    exact Call.toGo_le_of_next hnext

theorem GateAt.toGo_le (g : GateAt) : g.toGo ≤ 4 := by
  rcases g with _ | (_ | _ | _) | _ <;> simp [toGo, GateHeldAt.toGo]

theorem StopAt.toGo_le (s : StopAt) : s.toGo ≤ 1 := by
  cases s <;> simp [toGo]

theorem EverywhereAt.toGo_le (e : EverywhereAt) : e.toGo ≤ 7 := by
  cases e with
  | remove => exact Nat.le_refl 7
  | gate file g =>
    have hg := g.toGo_le
    show 2 + g.toGo ≤ 7
    omega
  | stop s => exact Nat.le_trans s.toGo_le (by omega)

/-- A call takes at most 24 steps, the idle ones not counted. -/
theorem Call.toGo_le (call : Call) : call.toGo ≤ 24 := by
  cases call with
  | setDatabasePath p => rcases p with ⟨path, _ | _⟩ <;> simp [toGo, SetPathAt.toGo]
  | unlockWallet u =>
    rcases u with ⟨path, v, passphrase, pos⟩
    cases pos with
    | lockHeld h g e => cases h <;> simp [toGo, UnlockAt.toGo, GateHeldAt.toGo]
    | _ => simp [toGo, UnlockAt.toGo]
  | lockWallet l =>
    rcases l with ⟨v, holder, pos⟩
    cases pos with
    | gate file g =>
      have hg := g.toGo_le
      show 3 + g.toGo ≤ 24
      omega
    | stop s =>
      have hs := s.toGo_le
      show 1 + s.toGo ≤ 24
      omega
    | _ => simp [toGo, LockAt.toGo]
  | forceLockWallet f =>
    rcases f with ⟨v, e | _⟩
    · have he := e.toGo_le
      show 1 + e.toGo ≤ 24
      omega
    · exact Nat.zero_le 24
  | withWalletLocked m =>
    rcases m with ⟨v, change, pos⟩
    cases pos with
    | lockBefore file e =>
      have he := e.toGo_le
      show 12 + e.toGo ≤ 24
      omega
    | lockAfter e changed =>
      have he := e.toGo_le
      show 2 + e.toGo ≤ 24
      omega
    | _ => simp [toGo, WithLockedAt.toGo]
  | changePassphrase p =>
    rcases p with ⟨v, old, new, pos⟩
    cases pos with
    | stop s =>
      have hs := s.toGo_le
      show 5 + s.toGo ≤ 24
      omega
    | _ => simp [toGo, ChangeAt.toGo]
  | abandonSend a =>
    rcases a with ⟨v, passphrase, transactionId, pos⟩
    cases pos with
    | stop s account =>
      have hs := s.toGo_le
      show 4 + s.toGo ≤ 24
      omega
    | _ => simp [toGo, AbandonAt.toGo]
  | scan s => cases hpos : s.pos <;> simp [toGo, hpos, ScanAt.toGo]
  | stopScan s => cases hpos : s.pos <;> simp [toGo, hpos, StopScanAt.toGo]
  | createScanHandle a => cases hpos : a.pos <;> simp [toGo, hpos, CreateHandleAt.toGo]
  | sendTransaction s => cases hpos : s.pos <;> simp [toGo, hpos, SendAt.toGo]
  | createWallet c => cases hpos : c.pos <;> simp [toGo, hpos, CreateAt.toGo]
  | getAddress a => cases hpos : a.pos <;> simp [toGo, hpos, AddressAt.toGo]

/-! ## The bridge winds down -/

/-- A call that can take a step can take one of work, unless it is a continuous scan that goes on. -/
theorem Call.exists_works {call call' : Call} (h : call.next me ch σ = some (call', σ'))
    (hends : call.goesOn me σ = false) : ∃ call' σ', Call.Works me call σ call' σ' := by
  -- It is enough that the outside world can answer so that the call is taken on.
  have works (ch : Choice) {r : Call × Shared} (hmoves : call.stays ch = false)
      (hnext : call.next me ch σ = some r) : ∃ call' σ', Call.Works me call σ call' σ' :=
    ⟨r.1, r.2, ch, Bool.or_eq_false_iff.mpr ⟨hends, hmoves⟩, hnext⟩
  cases hstays : call.stays ch with
  | false => exact works ch hstays h
  | true =>
    cases call <;> try cases hstays
    case withWalletLocked m =>
      obtain ⟨v, change, pos⟩ := m
      cases pos <;> try cases hstays
      · exact works {} rfl rfl
      · exact works {} rfl rfl
    case changePassphrase p =>
      obtain ⟨v, old, new, pos⟩ := p
      cases pos <;> try cases hstays
      · exact works {} rfl rfl
      · exact works {} rfl rfl
    case scan s =>
      obtain ⟨handle, v, priority, continuous, rescanFrom, pos, dbPath,
        forwarder, checked, swept, rolledBack⟩ := s
      cases pos <;> try cases hstays
      case running => exact works {} rfl rfl
      case draining result =>
        cases result
        · exact works {} rfl rfl
        · exact works {} rfl rfl

variable {ok : Guard Shared Call} {s : World}

theorem Call.eq_of_goesOn {call : Call} (h : call.goesOn me σ = true) :
    ∃ x, call = .scan x ∧ x.continuous = true ∧ x.pos = .running ∧ (σ.tokens me).cancelled = false := by
  cases call with
  | scan x =>
    obtain ⟨hboth, hlive⟩ := Bool.and_eq_true_iff.mp h
    obtain ⟨hcontinuous, hpos⟩ := Bool.and_eq_true_iff.mp hboth
    exact ⟨x, rfl, hcontinuous, of_decide_eq_true hpos, by simpa using hlive⟩
  | _ => cases h

/-- Nobody waits for a scan that goes on: it holds no lock, and a scan waited for to stop is cancelled. -/
theorem not_goesOn_of_waitsFor (h : system.Reach ok s) {c d : CallId} (hcd : s.WaitsFor c d) {call : Call}
    (hd : s.calls d = some call) : call.goesOn d s.shared = false := by
  rw [Bool.eq_false_iff]
  intro hgoes
  obtain ⟨x, rfl, -, hpos, hlive⟩ := Call.eq_of_goesOn hgoes
  obtain ⟨waits, r, hwaits, hr, hholder⟩ := hcd
  cases r with
  | gate v =>
    obtain ⟨p, hp, hgate⟩ := KeyProtocol.gate_held ((keyHom ok v).reach_any h) d hholder
    obtain ⟨call', hcall', rfl⟩ := Option.map_eq_some_iff.mp hp
    obtain rfl := Option.some.inj (hd.symm.trans hcall')
    cases hgate
  | maintenance v =>
    obtain ⟨p, hp, hholds⟩ := SlotProtocol.maintenance_held ((slotHom ok v).reach_any h) d hholder
    obtain ⟨call', hcall', rfl⟩ := Option.map_eq_some_iff.mp hp
    obtain rfl := Option.some.inj (hd.symm.trans hcall')
    replace hholds : ((Call.scan x).slotPhase v).holdsMaintenance = true := hholds
    simp only [Call.slotPhase, hpos] at hholds
    split at hholds <;> cases hholds
  | stopped e =>
    obtain ⟨-, rfl⟩ := Shared.of_holder_stopped hholder
    have hcancelled := (entered_of_follows h c waits d hwaits (Call.follows_of_awaits hr)).2
    rw [hlive] at hcancelled
    cases hcancelled

/-- Every call has returned, but for continuous scans that nobody has told to stop. -/
def World.Settled (s : World) : Prop :=
  ∀ c call, s.calls c = some call → call.returned = true ∨ call.goesOn c s.shared = true

/-- Unless all have settled, a call in flight can do work. -/
theorem exists_works (h : system.Reach ok s) {c : CallId} {call : Call} (hc : s.calls c = some call)
    (hflight : ¬ (call.returned = true ∨ call.goesOn c s.shared = true)) :
    ∃ c call call' σ', s.calls c = some call ∧ Call.Works c call s.shared call' σ' := by
  rw [not_or, Bool.not_eq_true, Bool.not_eq_true] at hflight
  -- the waits of a call in flight lead to one that waits for nobody
  obtain ⟨d, -, ⟨call', hd, hflight', hends⟩, hlast⟩ := (unwinds_waitsFor h c).exists_free
    (P := fun d => ∃ call, s.calls d = some call ∧ call.returned = false ∧ call.goesOn d s.shared = false)
    (fun a b _ hab => by
      obtain ⟨call', hb, hflight'⟩ := not_returned_of_waitsFor h hab
      exact ⟨call', hb, hflight', not_goesOn_of_waitsFor h hab hb⟩)
    ⟨call, hc, hflight.1, hflight.2⟩
  obtain ⟨ch, r, hnext⟩ := (exists_next_iff hd hflight').mpr hlast
  obtain ⟨next, σ', hwork⟩ := Call.exists_works hnext hends
  exact ⟨d, call', next, σ', hd, hwork⟩

/-- `t` is reached from `s` with no new call, and with `n` steps that took a call on. -/
abbrev World.Winds (s : World) (n : Nat) (t : World) : Prop := Interleaving.Winds Call.Works Call.Idles s n t

theorem reach_of_winds (h : system.Reach (fun _ _ => True) s) {n : Nat} {t : World} (ht : s.Winds n t) :
    system.Reach (fun _ _ => True) t := by
  have hsteps : system.Steps (fun _ _ => True) s t := by
    refine ht.steps (fun _ _ => trivial) ?_ ?_
    · rintro c call σ call' σ' ⟨ch, -, hnext⟩
      exact ⟨ch, hnext⟩
    · rintro c call σ call' σ' ⟨ch, -, hnext⟩
      exact ⟨ch, hnext⟩
  exact h.steps (fun _ _ _ => trivial) hsteps

/-- The bridge winds down.  From every state it can be in, and in whatever order the calls in flight go on,
they take at most 24 steps a call between them, the idle ones not counted; until all have returned, but for the
continuous scans that go on, one of them can take such a step; so it comes to that. -/
theorem winds_down (h : system.Reach ok s) : ∃ made, s.Made made ∧
    (∀ n (t : World), s.Winds n t → n ≤ made.card * 24 ∧ (t.Settled ∨ ∃ t', s.Winds (n + 1) t')) ∧
    ∃ n, ∃ t : World, s.Winds n t ∧ t.Settled := by
  have hall : system.Reach (fun _ _ => True) s := h.mono fun _ _ _ => trivial
  obtain ⟨made, hmade⟩ := h.exists_made
  have hprogress : ∀ {n} {t : World}, s.Winds n t → t.Settled ∨ ∃ t', s.Winds (n + 1) t' := by
    intro n t ht
    by_cases hsettled : t.Settled
    · exact Or.inl hsettled
    · obtain ⟨c, hc⟩ := not_forall.mp hsettled
      obtain ⟨call, hc⟩ := not_forall.mp hc
      obtain ⟨hc, hflight⟩ := Classical.not_imp.mp hc
      obtain ⟨c, call, call', σ', hc, hwork⟩ := exists_works (reach_of_winds hall ht) hc hflight
      exact Or.inr ⟨_, ht.work hc hwork⟩
  refine ⟨made, hmade, ?_, Winds.exists_rest Call.ranked hmade hprogress⟩
  intro n t ht
  exact ⟨ht.le_card_mul Call.ranked Call.toGo_le hmade, hprogress ht⟩

/-- A continuous scan from the `create_scan_handle` of its handle to where the scanner runs. -/
def scansOn (w : WalletName) (h c : CallId) (id : Nat) : List (Act Call Choice) :=
  .start h (.createScanHandle ⟨w, .fetch⟩) :: go h 2 ++
    .start c (.scan ⟨⟨w, id⟩, w, .background, true, none, .claim, none, {}, none, none, none⟩) :: go c 11

/-- Continuous scans of "main" and "savings" are at work, and a passphrase change waits for the first to stop. -/
def oneGoesOn : Option World :=
  (replay 7 fun _ _ => true).exec
    ⟨.initial (fun _ => ⟨[⟨1, "main", "secret", false⟩, ⟨2, "savings", "secret", false⟩], 3, fun _ => none,
      fun _ => none⟩) .mainNetworks, fun _ => none⟩
    (unlocks 0 firstPath ++ .start 1 (.unlockWallet ⟨firstPath, "savings", "secret", .count⟩) :: go 1 6 ++
      scansOn "main" 2 3 0 ++ scansOn "savings" 4 5 1 ++
        .start 6 (.changePassphrase ⟨"main", "secret", "new", .conn⟩) :: go 6 4)

theorem winds_down_oneGoesOn : ∃ (s : World) (scan scan' change : Call), oneGoesOn = some s ∧
    s.calls 3 = some scan ∧ scan.returned = false ∧ scan.goesOn 3 s.shared = false ∧
    s.calls 5 = some scan' ∧ scan'.goesOn 5 s.shared = true ∧
    s.calls 6 = some change ∧ change.follows = some 3 ∧
    ∃ n, ∃ t : World, s.Winds n t ∧ t.Settled := by
  obtain ⟨s, hs⟩ := Option.isSome_iff_exists.mp (by decide : oneGoesOn.isSome = true)
  have facts : oneGoesOn.map (fun s => ((s.calls 3).map fun call => (call.returned, call.goesOn 3 s.shared),
      (s.calls 5).map fun call => call.goesOn 5 s.shared, (s.calls 6).map Call.follows)) =
      some (some (false, false), some true, some (some 3)) := by decide
  simp only [hs, Option.map_some, Option.some.injEq, Prod.mk.injEq, Option.map_eq_some_iff] at facts
  obtain ⟨⟨scan, hscan, hflight, hends⟩, ⟨scan', hscan', hgoes⟩, change, hchange, hfollows⟩ := facts
  have hreach : system.Reach (fun _ _ => True) s :=
    (replay_sound fun _ _ _ _ => trivial).reach ⟨_, _, rfl⟩ hs
  obtain ⟨made, -, -, hend⟩ := winds_down hreach
  exact ⟨s, scan, scan', change, hs, hscan, hflight, hends, hscan', hgoes, hchange, hfollows, hend⟩

/-! ## What is left then -/

/-- The call that has a wallet's gate has not returned. -/
theorem not_quiet_of_gates (h : system.Reach ok s) {d : CallId} (hd : s.shared.gates w = some d) : ¬ s.Quiet := by
  intro hquiet
  obtain ⟨p, hp, hgate⟩ := KeyProtocol.gate_held ((keyHom ok w).reach_any h) d hd
  obtain ⟨call, hcall, rfl⟩ := Option.map_eq_some_iff.mp hp
  have hfree := (Call.holds_of_returned (w := w) (hquiet d call hcall)).1
  exact absurd (hgate.symm.trans hfree) nofun

/-- Nor has the call that has a maintenance lock. -/
theorem not_quiet_of_maintenance (h : system.Reach ok s) {d : CallId} (hd : s.shared.maintenance w = some d) :
    ¬ s.Quiet := by
  intro hquiet
  obtain ⟨p, hp, hholds⟩ := SlotProtocol.maintenance_held ((slotHom ok w).reach_any h) d hd
  obtain ⟨call, hcall, rfl⟩ := Option.map_eq_some_iff.mp hp
  have hfree := (Call.holds_of_returned (w := w) (hquiet d call hcall)).2
  exact absurd (hholds.symm.trans hfree) nofun

/-- A scan that has returned is in no slot and holds no id. -/
theorem Call.scan_over {call : Call} (h : call.returned = true) : call.slot = none ∧ call.ticket = .out := by
  cases call with
  | scan x =>
    obtain ⟨handle, v, priority, continuous, rescanFrom, pos, dbPath,
      forwarder, checked, swept, rolledBack⟩ := x
    cases pos <;> cases h
    exact ⟨rfl, rfl⟩
  | createScanHandle a =>
    obtain ⟨v, pos⟩ := a
    cases pos <;> cases h
    exact ⟨rfl, rfl⟩
  | _ => exact ⟨rfl, rfl⟩

/-- The unlock that stands behind a wallet's entry has returned `Ok`. -/
theorem exists_ok_of_quiet (h : system.Reach ok s) (hquiet : s.Quiet) {session : Session}
    (hs : s.shared.db.sessions.lookup w = some session) : ∃ c u, s.calls c = some (.unlockWallet u) ∧
      u.walletName = w ∧ u.pos = .returned (some session.generation) (.ok ()) := by
  obtain ⟨c, u, hc, hw, hg, hgave⟩ := exists_standing h hs
  have hreturned := hquiet c _ hc
  obtain ⟨path, v, passphrase, pos⟩ := u
  cases pos <;> cases hreturned
  case returned g r =>
    obtain rfl : g = some session.generation := hg
    cases r with
    | ok _ => exact ⟨c, _, hc, hw, rfl⟩
    | error e => exact absurd rfl hgave

/-- Once every call has returned nothing is held: no gate, no maintenance lock, no slot, no place in
`starting`.  Every scan's `stopped` token has fired, a key session is left only of a counted wallet, and an
entry only where an unlock returned `Ok` into it. -/
theorem quiet_holds_nothing (h : system.Reach ok s) (hquiet : s.Quiet) :
    (∀ w, s.shared.gates w = none ∧ s.shared.maintenance w = none ∧
      s.shared.scans.running.lookup w = none) ∧
    (∀ id, s.shared.scans.starting.lookup id = none) ∧
    (∀ c x, s.calls c = some (.scan x) → (s.shared.tokens c).stopped = true) ∧
    (∀ w, (s.shared.keys w).isSome = true → (s.shared.db.sessions.lookup w).isSome = true) ∧
    ∀ w session, s.shared.db.sessions.lookup w = some session → ∃ c u, s.calls c = some (.unlockWallet u) ∧
      u.walletName = w ∧ u.pos = .returned (some session.generation) (.ok ()) := by
  refine ⟨fun w => ⟨?_, ?_, ?_⟩, fun id => ?_, ?_, ?_, fun w session hs => exists_ok_of_quiet h hquiet hs⟩
  · rw [Option.eq_none_iff_forall_ne_some]
    intro d hd
    exact not_quiet_of_gates h hd hquiet
  · rw [Option.eq_none_iff_forall_ne_some]
    intro d hd
    exact not_quiet_of_maintenance h hd hquiet
  · rw [Option.eq_none_iff_forall_ne_some]
    intro k hk
    obtain ⟨call, hcall, hslot⟩ := running_sound h w k hk
    rw [(Call.scan_over (hquiet _ call hcall)).1] at hslot
    cases hslot
  · rw [Option.eq_none_iff_forall_ne_some]
    intro v hv
    obtain ⟨c, call, hc, ht, -⟩ := starting_held h id v hv
    rw [(Call.scan_over (hquiet c call hc)).2] at ht
    cases ht
  · intro c x hc
    exact stopped_of_returned h hc (hquiet c _ hc)
  · intro w hlive
    rcases live_counted_or_owed h hlive with hentry | ⟨c, call, hc, hflight, -⟩
    · exact hentry
    · rw [hquiet c call hc] at hflight
      cases hflight

/-- A wallet was unlocked and scanned; its unlock is not given up yet. -/
def scannedOnce : Option World :=
  (replay 3 fun _ _ => true).exec fresh (unlocks 0 firstPath ++ startsScan 1 2 0 ++ go 2 10)

theorem quiet_holds_nothing_scannedOnce : ∃ s, scannedOnce = some s ∧ s.shared.gates "main" = none ∧
    (s.shared.tokens 2).stopped = true ∧
    ∃ c u, s.calls c = some (.unlockWallet u) ∧ u.walletName = "main" := by
  obtain ⟨s, hs⟩ := Option.isSome_iff_exists.mp (by decide : scannedOnce.isSome = true)
  have facts : scannedOnce.map (fun s => (s.allBelow 3 Call.returned, (s.shared.db.sessions.lookup "main").isSome,
      ((s.calls 2).bind Call.asScan).isSome)) = some (true, true, true) := by decide
  simp only [hs, Option.map_some, Option.some.injEq, Prod.mk.injEq] at facts
  obtain ⟨hall, hcounted, hscan⟩ := facts
  obtain ⟨x, hx⟩ := Option.isSome_iff_exists.mp hscan
  obtain ⟨call, hcall, hasScan⟩ := Option.bind_eq_some_iff.mp hx
  have hsound : (replay 3 fun _ _ => true).Sound system fun _ _ => True := replay_sound fun _ _ _ _ => trivial
  have hwithin : s.Within 3 := (hsound.steps (fun _ _ => rfl) hs).1
  have hquiet : s.Quiet := fun c call hc => hwithin.of_allBelow hall hc
  obtain ⟨hfree, -, hstopped, -, hholder⟩ := quiet_holds_nothing (hsound.reach fresh_init hs) hquiet
  obtain ⟨session, hsession⟩ := Option.isSome_iff_exists.mp hcounted
  obtain ⟨c, u, hc, hw, -⟩ := hholder "main" session hsession
  obtain rfl := Call.eq_of_asScan hasScan
  exact ⟨s, hs, (hfree "main").1, hstopped 2 _ hcall, c, u, hc, hw⟩

end CwTariWallet
