/-
# CwTariWallet.Bridge.AbandonCourse -- the account an `abandon_send` acts on

`abandon_send` reads the account's id with the passphrase, before it has the wallet's maintenance lock,
and looks again once it has it.  From there on the name cannot change hands: a delete or a rename of it
needs the same lock.
-/
import CwTariWallet.Bridge.Handles
import CwTariWallet.Bridge.NamedAccounts

namespace CwTariWallet

open Interleaving

/-! ## What a step of `abandon_send` can do -/

namespace AbandonAt

/-- How far the call has come. -/
def rank : AbandonAt → Nat
  | .conn => 0
  | .verify _ => 1
  | .begin _ => 2
  | .connCheck _ => 3
  | .sameAccount _ _ => 4
  | .stop _ _ => 5
  | .connWrite _ => 6
  | .abandon _ _ => 7
  | .leave _ => 8
  | .returned _ => 9

/-- The call found the account again: it stops the wallet's scans and abandons the send. -/
def Acts (pos : AbandonAt) : Prop := 5 ≤ pos.rank ∧ pos.rank ≤ 7

/-- The file of the call's connection. -/
def file : AbandonAt → Option PathBuf
  | .verify file | .sameAccount file _ | .abandon file _ => some file
  | _ => none

/-- The id the call read with the passphrase. -/
def account : AbandonAt → Option AccountId
  | .begin account | .connCheck account | .sameAccount _ account | .stop _ account
  | .connWrite account | .abandon _ account => some account
  | _ => none

end AbandonAt

variable {me : CallId} {ch : Choice} {σ σ' : Shared}

/-- The steps of `abandon_send`, from where to where. -/
inductive AbandonSend.Turn (me : CallId) (ch : Choice) (σ : Shared) (a : AbandonSend) :
    AbandonAt → AbandonAt → Shared → Prop
  | unparsed {r} : Turn me ch σ a .conn (.returned r) σ
  | connected {file} : parseU64 a.transactionId ≠ none → σ.getDbConnection ch = .ok file →
      Turn me ch σ a .conn (.verify file) σ
  | refused {file r} : Turn me ch σ a (.verify file) (.returned r) σ
  | verified {file row} : ch.dbError = none →
      (σ.files file).getAccountByName a.walletName = some row → row.passphrase = a.passphrase →
      Turn me ch σ a (.verify file) (.begin row.id) σ
  | begun {account σ'} : σ.beginMaintenance a.walletName me = some σ' →
      Turn me ch σ a (.begin account) (.connCheck account) σ'
  | checking {file account} : σ.getDbConnection ch = .ok file →
      Turn me ch σ a (.connCheck account) (.sameAccount file account) σ
  | same {file account} : (σ.files file).accountId a.walletName = some account →
      Turn me ch σ a (.sameAccount file account) (.stop .cancel account) σ
  | stopping {s s' account σ'} : s.next a.walletName σ = some (.inl s', σ') →
      Turn me ch σ a (.stop s account) (.stop s' account) σ'
  | stopped {s account σ'} : s.next a.walletName σ = some (.inr (), σ') →
      Turn me ch σ a (.stop s account) (.connWrite account) σ'
  | writing {file account} : σ.getDbConnection ch = .ok file →
      Turn me ch σ a (.connWrite account) (.abandon file account) σ
  /-- A step under the lock fails, or the abandon is done. -/
  | ended {pos r} : 3 ≤ pos.rank → pos.rank ≤ 7 → Turn me ch σ a pos (.leave r) σ
  | left {r} : Turn me ch σ a (.leave r) (.returned r) (σ.dropMaintenance a.walletName)

theorem AbandonSend.next_turn {a a' : AbandonSend} (h : a.next me ch σ = some (a', σ')) :
    ∃ pos', a' = a.to pos' ∧ a.Turn me ch σ a.pos pos' σ' := by
  obtain ⟨v, passphrase, transactionId, pos⟩ := a
  unfold next at h
  cases pos with
  | conn =>
    dsimp only at h
    split at h
    · cases h
      exact ⟨_, rfl, .unparsed⟩
    · rename_i n hparse
      have hparsed : parseU64 transactionId ≠ none := by rw [hparse]; exact Option.some_ne_none n
      split at h <;> cases h
      · exact ⟨_, rfl, .unparsed⟩
      · exact ⟨_, rfl, .connected hparsed ‹_›⟩
  | verify file =>
    dsimp only at h
    split at h
    · cases h
      exact ⟨_, rfl, .refused⟩
    · rename_i hdb
      split at h
      · cases h
        exact ⟨_, rfl, .refused⟩
      · rename_i row hrow
        split at h <;> cases h
        · exact ⟨_, rfl, .refused⟩
        · rename_i hverify
          have hpassphrase := AccountRow.verifyPassphrase_eq_ok.mp hverify
          exact ⟨_, rfl, .verified hdb hrow hpassphrase⟩
  | «begin» account =>
    obtain ⟨σ₁, hbegin, h⟩ := Option.map_eq_some_iff.mp h
    cases h
    exact ⟨_, rfl, .begun hbegin⟩
  | connCheck account =>
    dsimp only at h
    split at h <;> cases h
    · exact ⟨_, rfl, .ended (by simp [AbandonAt.rank]) (by simp [AbandonAt.rank])⟩
    · exact ⟨_, rfl, .checking ‹_›⟩
  | sameAccount file account =>
    have hover {r : Except BridgeError String} : AbandonSend.Turn me ch σ
        ⟨v, passphrase, transactionId, .sameAccount file account⟩ (.sameAccount file account)
        (.leave r) σ := .ended (by simp [AbandonAt.rank]) (by simp [AbandonAt.rank])
    dsimp only at h
    split at h
    · cases h
      exact ⟨_, rfl, hover⟩
    · split at h
      · cases h
        exact ⟨_, rfl, hover⟩
      · rename_i row hrow
        split at h <;> cases h
        · exact ⟨_, rfl, hover⟩
        · rename_i hid
          refine ⟨_, rfl, .same ?_⟩
          rw [WalletDatabase.accountId, hrow]
          exact congrArg some (Decidable.not_not.mp hid)
  | stop s account =>
    dsimp only at h
    split at h <;> cases h
    · exact ⟨_, rfl, .stopping ‹_›⟩
    · exact ⟨_, rfl, .stopped ‹_›⟩
  | connWrite account =>
    dsimp only at h
    split at h <;> cases h
    · exact ⟨_, rfl, .ended (by simp [AbandonAt.rank]) (by simp [AbandonAt.rank])⟩
    · exact ⟨_, rfl, .writing ‹_›⟩
  | abandon file account =>
    have hover {r : Except BridgeError String} : AbandonSend.Turn me ch σ
        ⟨v, passphrase, transactionId, .abandon file account⟩ (.abandon file account)
        (.leave r) σ := .ended (by simp [AbandonAt.rank]) (by simp [AbandonAt.rank])
    dsimp only at h
    split at h <;> cases h <;> exact ⟨_, rfl, hover⟩
  | leave r =>
    cases h
    exact ⟨_, rfl, .left⟩
  | returned r => cases h

namespace AbandonSend

variable {a : AbandonSend} {pos pos' : AbandonAt} {account : AccountId} {path : PathBuf}

theorem Turn.rank_le (h : a.Turn me ch σ pos pos' σ') : pos.rank ≤ pos'.rank := by
  cases h with
  | ended _ hle =>
    show pos.rank ≤ 8
    omega
  | _ => simp [AbandonAt.rank]

/-- Before it acts the call has stopped nothing. -/
theorem Turn.sameScans (h : a.Turn me ch σ pos pos' σ') (hidle : ¬ pos.Acts) : SameScans σ σ' := by
  cases h with
  | begun hbegin =>
    obtain ⟨-, rfl⟩ := Shared.beginMaintenance_eq_some hbegin
    exact ⟨rfl, rfl, rfl⟩
  | stopping _ | stopped _ => exact absurd (by simp [AbandonAt.Acts, AbandonAt.rank]) hidle
  | _ => exact ⟨rfl, rfl, rfl⟩

/-- Up to the check of the passphrase the call changes nothing at all. -/
theorem Turn.eq_of_rank (h : a.Turn me ch σ pos pos' σ') (hearly : pos.rank ≤ 1) : σ' = σ := by
  cases h with
  | begun _ | stopping _ | stopped _ | left => simp [AbandonAt.rank] at hearly
  | _ => rfl

/-- The file of a connection is the open one. -/
theorem Turn.file_eq (h : a.Turn me ch σ pos pos' σ')
    (hopen : ∀ file, σ.getDbConnection ch = .ok file → file = path) {file : PathBuf}
    (hfile : pos'.file = some file) : file = path := by
  cases h with
  | connected _ hconn | checking hconn | writing hconn =>
    obtain rfl := Option.some.inj hfile
    exact hopen _ hconn
  | _ => cases hfile

/-- The id comes from the account whose passphrase was verified. -/
theorem Turn.account_eq (h : a.Turn me ch σ pos pos' σ') (haccount : pos'.account = some account) :
    pos.account = some account ∨ ∃ file row, pos = .verify file ∧ ch.dbError = none ∧
      (σ.files file).getAccountByName a.walletName = some row ∧ row.passphrase = a.passphrase ∧
      row.id = account := by
  cases h with
  | @verified file row hdb hrow hpassphrase =>
    exact Or.inr ⟨file, row, rfl, hdb, hrow, hpassphrase, Option.some.inj haccount⟩
  | unparsed | connected _ _ | refused | ended _ _ | left => cases haccount
  | _ => exact Or.inl haccount

/-- The call starts to act when it finds the account under the wallet's name. -/
theorem Turn.acts (h : a.Turn me ch σ pos pos' σ') (hacts : pos'.Acts)
    (haccount : pos'.account = some account) : (pos.Acts ∧ pos.account = some account) ∨
      ∃ file, pos = .sameAccount file account ∧ (σ.files file).accountId a.walletName = some account := by
  cases h with
  | @same file account' hsame =>
    obtain rfl : account' = account := Option.some.inj haccount
    exact Or.inr ⟨file, rfl, hsame⟩
  | stopping _ | stopped _ | writing _ =>
    exact Or.inl ⟨by simp [AbandonAt.Acts, AbandonAt.rank], haccount⟩
  | _ => simp [AbandonAt.Acts, AbandonAt.rank] at hacts

/-- A call that has returned takes no turn. -/
theorem Turn.rank_lt (h : a.Turn me ch σ pos pos' σ') : pos.rank < 9 := by
  cases h with
  | ended _ hle => omega
  | _ => simp [AbandonAt.rank]

end AbandonSend

/-! ## The steps of the call -/

namespace Footstep

/-- The call looked up the account of its wallet, its passphrase was right, and `account` is the id. -/
def Verifies (f : Footstep) (a : AbandonSend) (path : PathBuf) (account : AccountId) : Prop :=
  f.call = .abandonSend (a.to (.verify path)) ∧ f.choice.dbError = none ∧
    ∃ row, (f.shared.files path).getAccountByName a.walletName = some row ∧
      row.passphrase = a.passphrase ∧ row.id = account

/-- The transaction id does not parse, or the passphrase is wrong. -/
def FailsCheck (f : Footstep) : Prop :=
  ∃ a, f.call = .abandonSend a ∧ ((a.pos = .conn ∧ parseU64 a.transactionId = none) ∨
    ∃ file row, a.pos = .verify file ∧
      (f.shared.files file).getAccountByName a.walletName = some row ∧ row.passphrase ≠ a.passphrase)

/-- Under the maintenance lock, the wallet's name stands for another account than the one whose
passphrase was checked, or for none. -/
def FindsReplaced (f : Footstep) (path : PathBuf) : Prop :=
  ∃ a account, f.call = .abandonSend a ∧ a.pos = .sameAccount path account ∧
    (f.shared.files path).accountId a.walletName ≠ some account

/-- minotari's abandon runs. -/
def Abandons (f : Footstep) : Prop :=
  ∃ a file account, f.call = .abandonSend a ∧ a.pos = .abandon file account

/-- A step of call `c` that stops no scan. -/
def StopsNone (f : Footstep) (c : CallId) : Prop :=
  ∀ call' σ', f.call.next c f.choice f.shared = some (call', σ') → SameScans f.shared σ'

/-- A step of call `c` that changes nothing. -/
def ChangesNothing (f : Footstep) (c : CallId) : Prop :=
  ∀ call' σ', f.call.next c f.choice f.shared = some (call', σ') → σ' = f.shared

/-- A step of an `abandon_send` that had come no further than `rank`. -/
def Within (f : Footstep) (rank : Nat) : Prop := ∃ a, f.call = .abandonSend a ∧ a.pos.rank ≤ rank

/-- A step of an `abandon_send` that does not act. -/
def Idle (f : Footstep) : Prop := ∃ a, f.call = .abandonSend a ∧ ¬ a.pos.Acts

theorem Within.idle {f : Footstep} {n : Nat} (h : f.Within n) (hn : n ≤ 4) : f.Idle := by
  obtain ⟨a, ha, hrank⟩ := h
  refine ⟨a, ha, fun hacts => ?_⟩
  have hle := hacts.1
  omega

theorem Idle.stopsNone {f : Footstep} (h : f.Idle) (c : CallId) : ¬ f.Abandons ∧ f.StopsNone c := by
  obtain ⟨a, ha, hidle⟩ := h
  constructor
  · rintro ⟨b, file, account, hb, hpos⟩
    obtain rfl := Call.abandonSend.inj (ha.symm.trans hb)
    exact hidle (by simp [hpos, AbandonAt.Acts, AbandonAt.rank])
  · intro call' σ' hnext
    rw [ha] at hnext
    obtain ⟨⟨a', σ₁⟩, hr, h'⟩ := Option.map_eq_some_iff.mp hnext
    cases h'
    obtain ⟨pos', -, hturn⟩ := AbandonSend.next_turn hr
    exact hturn.sameScans hidle

theorem Within.changesNothing {f : Footstep} (h : f.Within 1) (c : CallId) :
    ¬ f.Abandons ∧ f.ChangesNothing c := by
  refine ⟨((h.idle (by omega)).stopsNone c).1, ?_⟩
  obtain ⟨a, ha, hearly⟩ := h
  intro call' σ' hnext
  rw [ha] at hnext
  obtain ⟨⟨a', σ₁⟩, hr, h'⟩ := Option.map_eq_some_iff.mp hnext
  cases h'
  obtain ⟨pos', -, hturn⟩ := AbandonSend.next_turn hr
  exact hturn.eq_of_rank hearly

end Footstep

/-- How far an `abandon_send` on the file at `path` has come, and what it did on the way. -/
structure AbandonSend.Course (path : PathBuf) (a : AbandonSend) (σ : Shared)
    (steps : List Footstep) : Prop where
  within : ∀ f ∈ steps, f.Within a.pos.rank
  file : ∀ file, a.pos.file = some file → file = path
  verified : ∀ account, a.pos.account = some account →
    account < (σ.files path).nextAccountId ∧ ∃ f ∈ steps, f.Verifies a path account
  named : ∀ account, a.pos.Acts → a.pos.account = some account →
    (σ.files path).accountId a.walletName = some account
  replaced : ∀ f ∈ steps, f.FindsReplaced path → 8 ≤ a.pos.rank ∧ ∀ g ∈ steps, g.Idle
  failed : ∀ f ∈ steps, f.FailsCheck → a.pos.rank = 9 ∧ ∀ g ∈ steps, g.Within 1

namespace AbandonSend

variable {a : AbandonSend} {pos' : AbandonAt} {path : PathBuf} {steps : List Footstep}

/-- A step that finds the name on another account leads out. -/
theorem Turn.replaced (h : a.Turn me ch σ a.pos pos' σ')
    (hreplaced : Footstep.FindsReplaced ⟨.abandonSend a, ch, σ⟩ path) :
    a.pos.rank = 4 ∧ 8 ≤ pos'.rank := by
  obtain ⟨b, account, hb, hpos, hnot⟩ := hreplaced
  obtain rfl := Call.abandonSend.inj hb
  rw [hpos] at h ⊢
  cases h with
  | same hsame => exact absurd hsame hnot
  | ended _ _ => simp [AbandonAt.rank]

/-- So does a check that fails. -/
theorem Turn.failed (h : a.Turn me ch σ a.pos pos' σ')
    (hfails : Footstep.FailsCheck ⟨.abandonSend a, ch, σ⟩) : a.pos.rank ≤ 1 ∧ pos'.rank = 9 := by
  obtain ⟨b, hb, ⟨hpos, hparse⟩ | ⟨file, row, hpos, hrow, hwrong⟩⟩ := hfails <;>
    obtain rfl := Call.abandonSend.inj hb <;> rw [hpos] at h ⊢
  · cases h with
    | unparsed => simp [AbandonAt.rank]
    | connected hparsed _ => exact absurd hparse hparsed
    | ended hle _ => simp [AbandonAt.rank] at hle
  · cases h with
    | refused => simp [AbandonAt.rank]
    | verified _ hrow' hright =>
      obtain rfl := Option.some.inj (hrow.symm.trans hrow')
      exact absurd hright hwrong
    | ended hle _ => simp [AbandonAt.rank] at hle

/-- The call stays on its course, as long as the file stays open. -/
theorem Course.step (h : a.Course path σ steps) (hturn : a.Turn me ch σ a.pos pos' σ')
    (hopen : ∀ file, σ.getDbConnection ch = .ok file → file = path) (hfiles : σ'.files = σ.files)
    (hids : (σ.files path).IdsUsed) :
    (a.to pos').Course path σ' (steps ++ [⟨.abandonSend a, ch, σ⟩]) := by
  have hrank := hturn.rank_le
  have hnew : Footstep.Within ⟨.abandonSend a, ch, σ⟩ a.pos.rank := ⟨a, rfl, Nat.le_refl _⟩
  constructor
  · intro f hf
    rcases List.mem_append.mp hf with hf | hf
    · obtain ⟨b, hb, hle⟩ := h.within f hf
      exact ⟨b, hb, Nat.le_trans hle hrank⟩
    · obtain rfl := List.mem_singleton.mp hf
      exact ⟨a, rfl, hrank⟩
  · exact fun file hfile => hturn.file_eq hopen hfile
  · intro account haccount
    rw [hfiles]
    rcases hturn.account_eq haccount with hold | ⟨file, row, hpos, hdb, hrow, hpassphrase, rfl⟩
    · obtain ⟨hlt, f, hf, hverifies⟩ := h.verified account hold
      exact ⟨hlt, f, List.mem_append_left _ hf, hverifies⟩
    · obtain rfl : file = path := h.file file (by rw [hpos]; rfl)
      have hcall : (Call.abandonSend a) = .abandonSend ((a.to pos').to (.verify file)) := by
        rw [← hpos]
        rfl
      exact ⟨hids row (List.mem_of_find?_eq_some hrow), _, List.mem_append_right _ (List.mem_singleton_self _),
        hcall, hdb, row, hrow, hpassphrase, rfl⟩
  · intro account hacts haccount
    rw [hfiles]
    rcases hturn.acts hacts haccount with ⟨hacting, hold⟩ | ⟨file, hpos, hsame⟩
    · exact h.named account hacting hold
    · obtain rfl : file = path := h.file file (by rw [hpos]; rfl)
      exact hsame
  · intro f hf hreplaced
    rcases List.mem_append.mp hf with hf | hf
    · obtain ⟨hlate, hidle⟩ := h.replaced f hf hreplaced
      refine ⟨Nat.le_trans hlate hrank, fun g hg => ?_⟩
      rcases List.mem_append.mp hg with hg | hg
      · exact hidle g hg
      · obtain rfl := List.mem_singleton.mp hg
        refine ⟨a, rfl, fun hacts => ?_⟩
        have hle := hacts.2
        omega
    · obtain rfl := List.mem_singleton.mp hf
      obtain ⟨hpos, hlate⟩ := hturn.replaced hreplaced
      refine ⟨hlate, fun g hg => ?_⟩
      rcases List.mem_append.mp hg with hg | hg
      · exact (h.within g hg).idle (by omega)
      · obtain rfl := List.mem_singleton.mp hg
        exact hnew.idle (by omega)
  · intro f hf hfails
    rcases List.mem_append.mp hf with hf | hf
    · have hlt := hturn.rank_lt
      have hover := (h.failed f hf hfails).1
      omega
    · obtain rfl := List.mem_singleton.mp hf
      obtain ⟨hearly, hover⟩ := hturn.failed hfails
      refine ⟨hover, fun g hg => ?_⟩
      rcases List.mem_append.mp hg with hg | hg
      · obtain ⟨b, hb, hle⟩ := h.within g hg
        exact ⟨b, hb, Nat.le_trans hle hearly⟩
      · obtain rfl := List.mem_singleton.mp hg
        exact ⟨a, rfl, hearly⟩

/-- Other calls leave it there, as long as the wallet's name keeps its account. -/
theorem Course.other (h : a.Course path σ steps)
    (hnext : (σ.files path).nextAccountId ≤ (σ'.files path).nextAccountId)
    (hnamed : ∀ account, a.pos.Acts → (σ.files path).accountId a.walletName = some account →
      (σ'.files path).accountId a.walletName = some account) : a.Course path σ' steps where
  within := h.within
  file := h.file
  verified account haccount := by
    obtain ⟨hlt, hverifies⟩ := h.verified account haccount
    exact ⟨Nat.lt_of_lt_of_le hlt hnext, hverifies⟩
  named account hacts haccount := hnamed account hacts (h.named account hacts haccount)
  replaced := h.replaced
  failed := h.failed

end AbandonSend

/-! ## While the file stays open -/

/-- The database at `path` is open. -/
def keptOpen (path : PathBuf) : Guard Shared Call := fun _ s =>
  s.shared.db.openDatabase = some ⟨path⟩

variable {path : PathBuf} {c d : CallId} {a : AbandonSend} {account : AccountId}

theorem Shared.getDbConnection_of_open (h : σ.db.openDatabase = some ⟨path⟩) :
    ∀ file, σ.getDbConnection ch = .ok file → file = path := by
  intro file hconn
  have hpath : σ.db.getDbPath = .ok path := by simp [DbState.getDbPath, h]
  rw [getDbConnection, hpath] at hconn
  cases hpool : ch.poolError <;> rw [hpool] at hconn <;> cases hconn
  rfl

/-- While an abandon acts, nobody else is about to delete or rename its wallet: that takes the same
maintenance lock. -/
theorem changesName_ne {ok : Guard Shared Call} {s : World} {call : Call} (h : system.Reach ok s)
    (hc : s.calls c = some (.abandonSend a)) (hacts : a.pos.Acts) (hd : s.calls d = some call)
    (hne : d ≠ c) : call.changesName path ≠ some a.walletName := by
  intro hchanges
  cases call <;> try cases hchanges
  case withWalletLocked m =>
    obtain ⟨v, change, pos⟩ := m
    cases pos <;> try cases hchanges
    case change file =>
      obtain rfl : v = a.walletName := by
        dsimp only [Call.changesName] at hchanges
        split at hchanges
        · exact Option.some.inj hchanges
        · cases hchanges
      have hT := (slotHom ok a.walletName).reach_any h
      have hholds : a.pos.slotPhase.holdsMaintenance = true := by
        obtain ⟨hle, hge⟩ := hacts
        cases hpos : a.pos <;> rw [hpos] at hle hge <;> simp [AbandonAt.rank] at hle hge
        case stop stop account => cases stop <;> rfl
        all_goals rfl
      refine hne (SlotProtocol.maintenance_unique hT (p := .quiet) (q := a.pos.slotPhase) ?_ rfl ?_ hholds)
      · rw [System.Hom.config_calls, hd]
        simp [slotHom, Call.slotPhase, WithLockedAt.slotPhase]
      · rw [System.Hom.config_calls, hc]
        simp [slotHom, Call.slotPhase]

/-- What becomes an `abandon_send` was one. -/
theorem Call.asAbandonSend {call : Call} (h : call.next me ch σ = some (.abandonSend a, σ')) :
    ∃ b, call = .abandonSend b ∧ b.next me ch σ = some (a, σ') := by
  cases call <;> obtain ⟨⟨b, σ₁⟩, hr, h'⟩ := Option.map_eq_some_iff.mp h <;> cases h'
  exact ⟨_, rfl, hr⟩

/-- What an `abandon_send` keeps to on its file: ids are those handed out, and the call is on its course. -/
structure StepWorld.OnCourse (t : StepWorld) (path : PathBuf) (c : CallId) : Prop where
  ids : (t.shared.shared.files path).IdsUsed
  course : ∀ a, t.calls c = some (.abandonSend a) →
    a.Course path t.shared.shared (t.shared.records c)

theorem onCourse_start {ok : Guard (Recorded Shared Footstep) Call} {s : StepWorld} {l : Call}
    (h : footsteps.recorded.Reach ok s) (hs : s.OnCourse path c) (hfree : s.calls d = none)
    (hl : l.starts = true) : StepWorld.OnCourse (s.put d l s.shared) path c where
  ids := hs.ids
  course a hc := by
    rcases Config.put_calls_eq_some hc with ⟨rfl, rfl⟩ | ⟨-, hc⟩
    · have hpos : a.pos = .conn := by simpa [Call.starts] using hl
      rw [Config.put_shared, Recording.records_of_free h c hfree]
      constructor
      · exact fun f hf => absurd hf List.not_mem_nil
      · intro file hfile
        rw [hpos] at hfile
        cases hfile
      · intro account haccount
        rw [hpos] at haccount
        cases haccount
      · intro account hacts
        rw [hpos] at hacts
        exact absurd hacts.1 (by decide)
      · exact fun f hf => absurd hf List.not_mem_nil
      · exact fun f hf => absurd hf List.not_mem_nil
    · exact hs.course a hc

theorem onCourse_step {ok : Guard Shared Call} {s : StepWorld} {l l' : Call}
    (h : system.Reach ok (Recording.plain s)) (hs : s.OnCourse path c)
    (hopen : s.shared.shared.db.openDatabase = some ⟨path⟩) (hd : s.calls d = some l)
    (hnext : l.next d ch s.shared.shared = some (l', σ')) :
    StepWorld.OnCourse (s.put d l' (Recording.write s.shared d [⟨l, ch, s.shared.shared⟩] σ')) path c := by
  have hkeeps := (Call.filesStep hnext).keepsAccounts path
  refine ⟨hkeeps.idsUsed hs.ids, fun a hc => ?_⟩
  rcases Config.put_calls_eq_some hc with ⟨rfl, rfl⟩ | ⟨hne, hc⟩
  · rw [Config.put_shared, Recording.write_records_self]
    obtain ⟨b, rfl, hr⟩ := Call.asAbandonSend hnext
    obtain ⟨pos', rfl, hturn⟩ := AbandonSend.next_turn hr
    obtain ⟨scans, tokens, maintenance, hσ⟩ := AbandonSend.next_frame hr
    have hfiles : σ'.files = s.shared.shared.files := by rw [hσ]
    exact (hs.course b hd).step hturn (Shared.getDbConnection_of_open hopen) hfiles hs.ids
  · rw [Config.put_shared, Recording.write_records_ne _ _ _ hne]
    refine (hs.course a hc).other hkeeps.next fun account hacts hnamed => ?_
    exact hkeeps.named _ account (changesName_ne h hc hacts hd (Ne.symm hne)) hnamed

theorem AbandonAt.Acts.exists_account {pos : AbandonAt} (h : pos.Acts) :
    ∃ account, pos.account = some account := by
  obtain ⟨hle, hge⟩ := h
  cases pos with
  | stop _ account | connWrite account | abandon _ account => exact ⟨account, rfl⟩
  | _ => simp [rank] at hle hge

/-- The account was deleted before the call found it again: the call does nothing more. -/
structure StepWorld.Missed (t : StepWorld) (path : PathBuf) (c : CallId) (account : AccountId) :
    Prop where
  course : t.OnCourse path c
  gone : (t.shared.shared.files path).Gone account
  call : ∃ a, t.calls c = some (.abandonSend a) ∧ 2 ≤ a.pos.rank ∧ ¬ a.pos.Acts ∧
    ∀ id, a.pos.account = some id → id = account
  idle : ∀ g ∈ t.shared.records c, g.Idle

theorem missed_start {ok : Guard (Recorded Shared Footstep) Call} {s : StepWorld} {l : Call}
    (h : footsteps.recorded.Reach ok s) (hs : s.Missed path c account) (hfree : s.calls d = none)
    (hl : l.starts = true) : StepWorld.Missed (s.put d l s.shared) path c account where
  course := onCourse_start h hs.course hfree hl
  gone := hs.gone
  call := by
    obtain ⟨a, hc, hrest⟩ := hs.call
    exact ⟨a, Config.put_calls_of_free hfree hc, hrest⟩
  idle := hs.idle

theorem missed_step {ok : Guard Shared Call} {s : StepWorld} {l l' : Call}
    (h : system.Reach ok (Recording.plain s)) (hs : s.Missed path c account)
    (hopen : s.shared.shared.db.openDatabase = some ⟨path⟩) (hd : s.calls d = some l)
    (hnext : l.next d ch s.shared.shared = some (l', σ')) :
    StepWorld.Missed (s.put d l' (Recording.write s.shared d [⟨l, ch, s.shared.shared⟩] σ')) path c
      account := by
  have hcourse := onCourse_step h hs.course hopen hd hnext
  have hgone := ((Call.filesStep hnext).keepsAccounts path).gone hs.gone
  obtain ⟨a, hc, hrank, hidle, haccount⟩ := hs.call
  by_cases hdc : d = c
  · subst hdc
    obtain rfl := Option.some.inj (hc.symm.trans hd)
    obtain ⟨⟨a', σ₁⟩, hr, h'⟩ := Option.map_eq_some_iff.mp hnext
    cases h'
    obtain ⟨pos', rfl, hturn⟩ := AbandonSend.next_turn hr
    have hkept : ∀ id, pos'.account = some id → id = account := by
      intro id hid
      rcases hturn.account_eq hid with hold | ⟨file, row, hpos, -⟩
      · exact haccount id hold
      · rw [hpos] at hrank
        exact absurd hrank (by simp [AbandonAt.rank])
    refine ⟨hcourse, hgone, ⟨_, Config.put_calls_self _ _ _ _, Nat.le_trans hrank hturn.rank_le, ?_, hkept⟩, ?_⟩
    · intro hacts
      obtain ⟨id, hid⟩ := AbandonAt.Acts.exists_account hacts
      rcases hturn.acts hacts hid with ⟨hacting, -⟩ | ⟨file, hpos, hsame⟩
      · exact hidle hacting
      · obtain rfl : file = path := (hs.course.course a hc).file file (by rw [hpos]; rfl)
        obtain rfl := hkept id hid
        exact hs.gone.not_named hsame
    · intro g hg
      rw [Config.put_shared, Recording.write_records_self] at hg
      rcases List.mem_append.mp hg with hg | hg
      · exact hs.idle g hg
      · obtain rfl := List.mem_singleton.mp hg
        exact ⟨a, rfl, hidle⟩
  · refine ⟨hcourse, hgone, ⟨a, ?_, hrank, hidle, haccount⟩, ?_⟩
    · rw [Config.put_calls_ne _ _ _ (Ne.symm hdc)]
      exact hc
    · rw [Config.put_shared, Recording.write_records_ne _ _ _ (Ne.symm hdc)]
      exact hs.idle

/-! ## The account that was checked -/

/-- What the `abandon_send` call `c`, on the file at `path`, has done. -/
structure StepWorld.AbandonsChecked (t : StepWorld) (path : PathBuf) (c : CallId) (a : AbandonSend) :
    Prop where
  /-- minotari's abandon runs on the account whose passphrase was checked, and while it does the wallet's
  name stands for that account. -/
  acts : ∀ file account, a.pos = .abandon file account → file = path ∧
    (∃ f ∈ t.shared.records c, f.Verifies a path account) ∧
    (t.shared.shared.files path).accountId a.walletName = some account
  /-- A call that finds another account under the name, or none, abandons nothing and stops no scan. -/
  replaced : ∀ f ∈ t.shared.records c, f.FindsReplaced path → ∀ g ∈ t.shared.records c,
    ¬ g.Abandons ∧ g.StopsNone c
  /-- A call that fails its check changes nothing. -/
  failed : ∀ f ∈ t.shared.records c, f.FailsCheck → ∀ g ∈ t.shared.records c,
    ¬ g.Abandons ∧ g.ChangesNothing c

/-- On a file that stays open, `abandon_send` acts on the account whose passphrase it checked, and does
nothing if the wallet's name stands for another one when it looks again.  It does nothing either if that
account was deleted in between, whatever has the name by then. -/
theorem abandon_acts_on_checked {s u t : StepWorld}
    (hs : footsteps.recorded.Reach (Recording.guard fun _ _ => True) s) (hfree : s.calls c = none)
    (hids : (s.shared.shared.files path).IdsUsed)
    (hu : footsteps.recorded.Steps (Recording.guard (keptOpen path)) s u)
    (ht : footsteps.recorded.Steps (Recording.guard (keptOpen path)) u t)
    (hc : t.calls c = some (.abandonSend a)) :
    t.AbandonsChecked path c a ∧
      ∀ b account, u.calls c = some (.abandonSend b) → b.pos.account = some account → ¬ b.pos.Acts →
        (∀ row ∈ (u.shared.shared.files path).accounts, row.id ≠ account) →
        ∀ g ∈ t.shared.records c, ¬ g.Abandons ∧ g.StopsNone c := by
  have hcourse : ∀ {v w : StepWorld}, footsteps.recorded.Reach (Recording.guard fun _ _ => True) v →
      v.OnCourse path c → footsteps.recorded.Steps (Recording.guard (keptOpen path)) v w →
      w.OnCourse path c := by
    intro v w hv hI hsteps
    refine hsteps.stable (I := fun w : StepWorld => w.OnCourse path c) (fun _ _ _ => trivial) ?_ ?_ hv hI
    · intro s d l hs ih _ hfree hl
      exact onCourse_start hs ih hfree hl
    · rintro s d l l' r' hs ih hopen hd ⟨ch, σ', hnext, rfl⟩
      have hplain : system.Reach (fun _ _ => True) (Recording.plain s) := Recording.forget hs
      exact onCourse_step hplain ih hopen hd hnext
  have hstart : s.OnCourse path c := ⟨hids, fun a ha => by rw [hfree] at ha; cases ha⟩
  have hut : u.OnCourse path c := hcourse hs hstart hu
  have hreach := hs.steps (fun _ _ _ => trivial) hu
  have hon := (hcourse hreach hut ht).course a hc
  refine ⟨⟨?_, ?_, ?_⟩, ?_⟩
  · intro file account hpos
    have hacts : a.pos.Acts := by simp [hpos, AbandonAt.Acts, AbandonAt.rank]
    have haccount : a.pos.account = some account := by rw [hpos]; rfl
    refine ⟨hon.file file (by rw [hpos]; rfl), (hon.verified account haccount).2, ?_⟩
    exact hon.named account hacts haccount
  · intro f hf hreplaced g hg
    exact ((hon.replaced f hf hreplaced).2 g hg).stopsNone c
  · intro f hf hfails g hg
    exact ((hon.failed f hf hfails).2 g hg).changesNothing c
  · intro b account hb haccount hidle hnone g hg
    have hbon := hut.course b hb
    have hrank : 2 ≤ b.pos.rank ∧ b.pos.rank ≤ 4 := by
      cases hpos : b.pos <;> rw [hpos] at haccount hidle <;>
        simp [AbandonAt.account, AbandonAt.Acts, AbandonAt.rank] at haccount hidle ⊢
    have hmissed : u.Missed path c account := by
      refine ⟨hut, ⟨(hbon.verified account haccount).1, hnone⟩, ⟨b, hb, hrank.1, hidle, ?_⟩, ?_⟩
      · exact fun id hid => Option.some.inj (hid.symm.trans haccount)
      · intro g hg
        obtain ⟨b', hb', hle⟩ := hbon.within g hg
        exact Footstep.Within.idle ⟨b', hb', hle⟩ hrank.2
    have hend : t.Missed path c account := by
      refine ht.stable (I := fun w : StepWorld => w.Missed path c account) (fun _ _ _ => trivial) ?_ ?_
        hreach hmissed
      · intro s d l hs ih _ hfree hl
        exact missed_start hs ih hfree hl
      · rintro s d l l' r' hs ih hopen hd ⟨ch, σ', hnext, rfl⟩
        have hplain : system.Reach (fun _ _ => True) (Recording.plain s) := Recording.forget hs
        exact missed_step hplain ih hopen hd hnext
    exact (hend.idle g hg).stopsNone c

/-! ## A name that comes back -/

/-- Nothing is abandoned once the wallet's name stood for another account, or for none, after the check
and before the call had its lock. -/
def RefusesOnceReplaced (path : PathBuf) : Prop :=
  ∀ (s u t : StepWorld) (c : CallId) (a b : AbandonSend) (account : AccountId),
    footsteps.recorded.Reach (Recording.guard fun _ _ => True) s → s.calls c = none →
    (s.shared.shared.files path).IdsUsed → (s.shared.shared.files path).NamesUnique →
    footsteps.recorded.Steps (Recording.guard (keptOpen path)) s u →
    footsteps.recorded.Steps (Recording.guard (keptOpen path)) u t →
    u.calls c = some (.abandonSend b) → b.pos = .begin account →
    (u.shared.shared.files path).accountId b.walletName ≠ some account →
    t.calls c = some (.abandonSend a) → ∀ file id, a.pos ≠ .abandon file id

/-- A file with two accounts. -/
def twoWallets : WalletDatabase :=
  ⟨[⟨1, "main", "secret", false⟩, ⟨2, "savings", "secret", false⟩], 3, fun _ => none, fun _ => none⟩

/-- The bridge with the first file kept open, replayed. -/
def replayKeptOpen : Replay (Recorded Shared Footstep) Call Choice :=
  footsteps.replay 4 Call.starts fun _ s => decide (s.shared.db.openDatabase = some ⟨firstPath⟩)

theorem replayKeptOpen_sound :
    replayKeptOpen.Sound footsteps.recorded (Recording.guard (keptOpen firstPath)) := by
  refine Recording.replay_sound (fun _ h => h) fun _ s _ h => ?_
  show s.shared.db.openDatabase = some ⟨firstPath⟩
  exact of_decide_eq_true h

/-- A fresh process over files with two accounts. -/
def freshTwo : StepWorld := ⟨⟨.initial (fun _ => twoWallets) .mainNetworks, fun _ => []⟩, fun _ => none⟩

/-- "savings" is unlocked, and keeps the first file open. -/
def savingsUnlocked : Option StepWorld :=
  (footsteps.replay 4 Call.starts fun _ _ => true).exec freshTwo
    (.start 0 (.unlockWallet ⟨firstPath, "savings", "secret", .count⟩) :: go 0 6)

/-- A rename, from its start to where it has returned. -/
def renames (c : CallId) (current new : WalletName) : List (Act Call Choice) :=
  .start c (.withWalletLocked ⟨current, .rename new, .begin⟩) :: go c 19

/-- An abandon has checked the passphrase of "main", which is "old" by now. -/
def renamedAway (s : StepWorld) : Option StepWorld :=
  replayKeptOpen.exec s (.start 1 (.abandonSend ⟨"main", "secret", "7", .conn⟩) :: go 1 2 ++
    renames 2 "main" "old")

/-- "old" is "main" again, and minotari's abandon runs. -/
def renamedBack (u : StepWorld) : Option StepWorld :=
  replayKeptOpen.exec u (renames 3 "old" "main" ++ go 1 5)

/-- The abandon of "main", at a position. -/
def abandonsMain (pos : AbandonAt) : AbandonSend := ⟨"main", "secret", "7", pos⟩

/-- Where the three parts of the schedule lead. -/
structure IsRenamedBack (s u t : StepWorld) : Prop where
  free : s.calls 1 = none
  ids : (s.shared.shared.files firstPath).IdsUsed
  names : (s.shared.shared.files firstPath).NamesUnique
  away : u.calls 1 = some (.abandonSend (abandonsMain (.begin 1)))
  nobody : (u.shared.shared.files firstPath).accountId "main" = none
  back : t.calls 1 = some (.abandonSend (abandonsMain (.abandon firstPath 1)))

theorem exists_renamedBack : ∃ s u t, IsRenamedBack s u t ∧
    footsteps.recorded.Reach (Recording.guard fun _ _ => True) s ∧
    footsteps.recorded.Steps (Recording.guard (keptOpen firstPath)) s u ∧
    footsteps.recorded.Steps (Recording.guard (keptOpen firstPath)) u t := by
  have hrun : (savingsUnlocked.bind fun s => (renamedAway s).bind fun u => (renamedBack u).map fun t =>
      decide (s.calls 1 = none) && decide (s.shared.shared.files firstPath).IdsUsed &&
        decide (s.shared.shared.files firstPath).NamesUnique &&
        decide (u.calls 1 = some (.abandonSend (abandonsMain (.begin 1)))) &&
        decide ((u.shared.shared.files firstPath).accountId "main" = none) &&
        decide (t.calls 1 = some (.abandonSend (abandonsMain (.abandon firstPath 1))))) =
      some true := by decide
  obtain ⟨s, hs, hrun⟩ := Option.bind_eq_some_iff.mp hrun
  obtain ⟨u, hu, hrun⟩ := Option.bind_eq_some_iff.mp hrun
  obtain ⟨t, ht, hrun⟩ := Option.map_eq_some_iff.mp hrun
  simp only [Bool.and_eq_true, decide_eq_true_eq] at hrun
  obtain ⟨⟨⟨⟨⟨hfree, hids⟩, hnames⟩, haway⟩, hnobody⟩, hback⟩ := hrun
  have hR : (footsteps.replay 4 Call.starts fun _ _ => true).Sound footsteps.recorded
      (Recording.guard fun _ _ => True) :=
    Recording.replay_sound (fun _ h => h) fun _ _ _ _ => trivial
  have hempty : Config.Within 4 freshTwo := fun _ _ => rfl
  have hinit : footsteps.recorded.init freshTwo.shared := ⟨⟨_, _, rfl⟩, rfl⟩
  obtain ⟨hwithin, hfirst⟩ := hR.steps hempty hs
  obtain ⟨hwithin', hsu⟩ := replayKeptOpen_sound.steps hwithin hu
  obtain ⟨-, hut⟩ := replayKeptOpen_sound.steps hwithin' ht
  have hreach := System.Reach.steps (fun _ _ h => h) (.init hinit) hfirst
  exact ⟨s, u, t, ⟨hfree, hids, hnames, haway, hnobody, hback⟩, hreach, hsu, hut⟩

/-- A wallet renamed away and back in time is abandoned in as if nothing had happened. -/
theorem not_refusesOnceReplaced : ¬ RefusesOnceReplaced firstPath := by
  intro hrefuses
  obtain ⟨s, u, t, h, hs, hsu, hut⟩ := exists_renamedBack
  have hnot : (u.shared.shared.files firstPath).accountId "main" ≠ some 1 := by
    rw [h.nobody]
    exact fun h => by cases h
  exact hrefuses s u t 1 _ _ 1 hs h.free h.ids h.names hsu hut h.away rfl hnot h.back firstPath 1 rfl

/-- It acts on the account whose passphrase it checked all the same. -/
theorem abandon_acts_on_checked_renamedBack : ∃ s u t, IsRenamedBack s u t ∧
    StepWorld.AbandonsChecked t firstPath 1 (abandonsMain (.abandon firstPath 1)) ∧
    (t.shared.shared.files firstPath).accountId "main" = some 1 := by
  obtain ⟨s, u, t, h, hs, hsu, hut⟩ := exists_renamedBack
  have hchecked := (abandon_acts_on_checked hs h.free h.ids hsu hut h.back).1
  exact ⟨s, u, t, h, hchecked, (hchecked.acts firstPath 1 rfl).2.2⟩

end CwTariWallet
