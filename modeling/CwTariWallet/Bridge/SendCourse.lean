/-
# CwTariWallet.Bridge.SendCourse -- a send is atomic with respect to its reservation

A send that succeeds does one thing after the other: its `course`.  A send that fails has gone some way
along the course and then does one of a few things more, and in particular hands back what it has
reserved (`Trail`).  What a send does and does not do is read off that (`send_atomic`).
-/
import CwTariWallet.Bridge.Effects

namespace CwTariWallet

open Interleaving

/-- The stages of a send, in order. -/
def TransactionStage.all : List TransactionStage :=
  [.initializing, .validatingInput, .connectingToNetwork, .constructingTransaction,
    .signingKeyGeneration, .signingTransaction, .broadcasting, .broadcasted]

/-! ## What a log says -/

namespace SendEvent

def stage : SendEvent → Option TransactionStage
  | .reported event => some event.stage
  | _ => none

/-- The row a build returned. -/
def builtRow : SendEvent → Option RowId
  | .built row _ => some row
  | _ => none

/-- The row `release_send_reservation` was called with. -/
def releasedRow : SendEvent → Option RowId
  | .release row => some row
  | _ => none

/-- What only a send does that fails. -/
def failing : SendEvent → Bool
  | .checked _ unlocked => !unlocked
  | .finalized ok => !ok
  | .release _ | .expired _ _ _ => true
  | _ => false

/-- The session checks and the call of finalize. -/
def guarded : SendEvent → Bool
  | .checked _ _ | .finalize _ => true
  | _ => false

end SendEvent

namespace SendTransaction

variable {ok : Guard Shared Call} {s : World} {c : CallId} {ch : Choice} {σ σ' : Shared}
variable {x x' : SendTransaction}

/-- The stages a send has reported. -/
def stages (x : SendTransaction) : List TransactionStage := x.log.filterMap SendEvent.stage

/-- The rows its builds returned. -/
def builtRows (x : SendTransaction) : List RowId := x.log.filterMap SendEvent.builtRow

/-- The rows it called `release_send_reservation` with. -/
def releasedRows (x : SendTransaction) : List RowId := x.log.filterMap SendEvent.releasedRow

/-! ## The course of a send -/

/-- Everything a send that succeeds does, in order. -/
def course (details : MultiSendTransactionDetails) (live : Bool) (row : RowId) (file : PathBuf) :
    List SendEvent :=
  [report .initializing "Starting workflow...",
    report .validatingInput "Parsing inputs...",
    report .connectingToNetwork "Accessing wallet database...",
    .checked .keyLoad true,
    .readKeys live,
    .checked .keyLoadAgain true,
    report .constructingTransaction "Building transaction UTXOs...",
    .build,
    .built row file,
    .checked .postBuild true,
    report .signingKeyGeneration "Loading signing keys...",
    report .signingTransaction "Signing transaction...",
    .checked .preFinalize true,
    report .broadcasting "Broadcasting to network...",
    .finalize (details.baseUrl.getD defaultBaseUrl),
    .finalized true,
    report .broadcasted "Transaction broadcast"]

end SendTransaction

/-- How much of its course a send has behind it that nothing has gone wrong with. -/
def SendAt.progress : SendAt → Option Nat
  | .initializing => some 0
  | .validate => some 1
  | .applyNetwork _ | .createSender _ => some 2
  | .keyConn _ | .keyAccount _ _ | .keyCheck _ _ _ => some 3
  | .decrypt _ _ _ => some 4
  | .keyCheckAgain _ _ _ _ => some 5
  | .sweepConn _ | .sweep _ _ | .build _ => some 6
  | .postBuild _ _ => some 9
  | .signingKeys _ _ => some 10
  | .sign _ _ => some 11
  | .preFinalize _ _ => some 12
  | .finalize _ _ => some 13
  | .broadcasted _ => some 16
  | .returned (.ok _) => some 17
  | _ => none

/-- The row a send has reserved and not handed back, with its file. -/
def SendAt.reserved : SendAt → Option (RowId × PathBuf)
  | .postBuild sender row | .signingKeys sender row | .sign sender row | .preFinalize sender row
  | .finalize sender row | .releaseConn sender row _ | .release sender row _ _ =>
    some (row, sender.dbPool)
  | _ => none

/-- About to hand the reservation back. -/
def SendAt.releases : SendAt → Bool
  | .releaseConn _ _ _ | .release _ _ _ _ => true
  | _ => false

/-- Nothing is left to do but to return an error. -/
def SendAt.over : SendAt → Bool
  | .goneConn _ | .gone _ _ | .returned (.error _) => true
  | _ => false

namespace SendTransaction

variable {ok : Guard Shared Call} {s : World} {c : CallId} {ch : Choice} {σ σ' : Shared}
variable {x x' : SendTransaction}

/-- How a send fails that has reserved nothing: how far it came, and what it did there. -/
inductive Refused : Nat → List SendEvent → Prop
  | inputs : Refused 2 []
  | sender : Refused 3 []
  | keys : Refused 6 []
  | build : Refused 8 []
  | keyLoad : Refused 3 [.checked .keyLoad false]
  | keyLoadAgain : Refused 5 [.checked .keyLoadAgain false]

/-- How a send fails that has reserved `row`. -/
inductive Failed (row : RowId) : Nat → List SendEvent → Prop
  | postBuild : Failed row 9 [.checked .postBuild false, .release row]
  | sign : Failed row 12 [.release row]
  | preFinalize : Failed row 12 [.checked .preFinalize false, .release row]
  | finalize : Failed row 15 [.finalized false, .release row]

/-- What a send has done, by where it stands. -/
inductive Trail (x : SendTransaction) : Prop
  | onCourse {n live row file} : x.pos.progress = some n →
      (∀ r, x.pos.reserved = some r → r = (row, file)) → x.log = (course x.details live row file).take n → Trail x
  | refused {n tail live row file} : x.pos.over = true → Refused n tail →
      x.log = (course x.details live row file).take n ++ tail → Trail x
  | releasing {n tail live row file} : x.pos.releases = true → x.pos.reserved = some (row, file) →
      Failed row n tail → x.log = (course x.details live row file).take n ++ tail → Trail x
  | released {n tail live row file} {expired : List SendEvent} : x.pos.over = true →
      Failed row n tail → (expired = [] ∨ ∃ f acted, expired = [.expired row f acted]) →
      x.log = (course x.details live row file).take n ++ tail ++ expired → Trail x

theorem next_details (h : x.next ch σ = some (x', σ')) : x'.details = x.details := by
  unfold next at h
  dsimp only at h
  split at h <;> (repeat' split at h) <;> cases h <;> rfl

/-- A failed send that has a reservation goes on to release it, and then to its error. -/
theorem over_afterRelease (cause : ReleaseCause) : (afterRelease cause).over = true := by
  cases cause <;> rfl

/-- Every step keeps to the course, leaves it, or goes on from where it was left. -/
theorem trail_next (ht : x.Trail) (h : x.next ch σ = some (x', σ')) : x'.Trail := by
  obtain ⟨details, pos, log⟩ := x
  unfold next at h
  cases ht with
  | @onCourse n live row file hn hrow hlog =>
    dsimp only at hn hrow hlog
    subst hlog
    cases pos with
    | initializing =>
      cases hn
      cases h
      exact @Trail.onCourse _ _ live row file rfl nofun rfl
    | validate =>
      cases hn
      dsimp only at h
      split at h <;> cases h
      · exact @Trail.refused _ 2 _ live row file rfl .inputs rfl
      · exact @Trail.onCourse _ _ live row file rfl nofun rfl
    | applyNetwork validated =>
      cases hn
      dsimp only at h
      split at h <;> cases h
      · exact @Trail.refused _ 2 _ live row file rfl .inputs rfl
      · exact @Trail.onCourse _ _ live row file rfl nofun rfl
    | createSender validated =>
      cases hn
      dsimp only at h
      (repeat' split at h) <;> cases h
      · exact @Trail.refused _ 3 _ live row file rfl .sender rfl
      · exact @Trail.refused _ 3 _ live row file rfl .sender rfl
      · exact @Trail.onCourse _ _ live row file rfl nofun rfl
    | keyConn sender | keyAccount sender _ =>
      cases hn
      dsimp only at h
      (repeat' split at h) <;> cases h <;>
        first
        | exact @Trail.refused _ 3 _ live row file rfl .sender rfl
        | exact @Trail.onCourse _ _ live row file rfl nofun rfl
    | keyCheck sender _ account =>
      cases hn
      dsimp only at h
      split at h <;> cases h
      · exact @Trail.refused _ 3 _ live row file rfl .keyLoad rfl
      · exact @Trail.refused _ 3 _ live row file rfl .keyLoad rfl
      · exact @Trail.onCourse _ _ live row file rfl nofun rfl
    | decrypt sender _ account =>
      -- Whether the session was live when the keys were read is settled here.
      cases hn
      cases h
      exact @Trail.onCourse _ _ (σ.keys details.walletName).isSome row file rfl nofun rfl
    | keyCheckAgain sender _ account keys =>
      cases hn
      dsimp only at h
      (repeat' split at h) <;> cases h <;>
        first
        | exact @Trail.refused _ 5 _ live row file rfl .keyLoadAgain rfl
        | exact @Trail.refused _ 6 _ live row file rfl .keys rfl
        | exact @Trail.onCourse _ _ live row file rfl nofun rfl
    | sweepConn sender | sweep sender _ =>
      cases hn
      dsimp only at h
      (repeat' split at h) <;> cases h <;> exact @Trail.onCourse _ _ live row file rfl nofun rfl
    | build sender =>
      -- The row and its file are settled here.
      cases hn
      dsimp only at h
      (repeat' split at h) <;> cases h
      · exact @Trail.refused _ 8 _ live row file rfl .build rfl
      · exact @Trail.refused _ 8 _ live row file rfl .build rfl
      · exact @Trail.onCourse _ _ live ch.row sender.dbPool rfl
          (fun _ h => (Option.some.inj h).symm) rfl
    | postBuild sender row' =>
      cases hn
      obtain ⟨rfl, rfl⟩ := Prod.mk.inj (hrow _ rfl)
      dsimp only at h
      split at h <;> cases h
      · exact @Trail.onCourse _ _ live row' sender.dbPool rfl hrow rfl
      · exact @Trail.releasing _ _ _ live row' sender.dbPool rfl rfl .postBuild rfl
    | signingKeys sender row' =>
      cases hn
      cases h
      exact @Trail.onCourse _ _ live row file rfl hrow rfl
    | sign sender row' =>
      cases hn
      obtain ⟨rfl, rfl⟩ := Prod.mk.inj (hrow _ rfl)
      dsimp only at h
      split at h <;> cases h
      · exact @Trail.releasing _ _ _ live row' sender.dbPool rfl rfl .sign rfl
      · exact @Trail.onCourse _ _ live row' sender.dbPool rfl hrow rfl
    | preFinalize sender row' =>
      cases hn
      obtain ⟨rfl, rfl⟩ := Prod.mk.inj (hrow _ rfl)
      dsimp only at h
      split at h <;> cases h
      · exact @Trail.onCourse _ _ live row' sender.dbPool rfl hrow rfl
      · exact @Trail.releasing _ _ _ live row' sender.dbPool rfl rfl .preFinalize rfl
    | finalize sender row' =>
      cases hn
      obtain ⟨rfl, rfl⟩ := Prod.mk.inj (hrow _ rfl)
      dsimp only at h
      split at h <;> cases h
      · exact @Trail.onCourse _ _ live row' sender.dbPool rfl nofun rfl
      · exact @Trail.releasing _ _ _ live row' sender.dbPool rfl rfl .finalize rfl
    | broadcasted sent =>
      cases hn
      cases h
      exact @Trail.onCourse _ _ live row file rfl nofun rfl
    | returned r => cases h
    | releaseConn _ _ _ | release _ _ _ _ | goneConn _ | gone _ _ => cases hn
  | refused hover hrefused hlog =>
    dsimp only at hover hlog
    subst hlog
    cases pos with
    | goneConn e | gone _ e =>
      dsimp only at h
      split at h <;> cases h <;> exact .refused rfl hrefused (List.append_nil _)
    | returned r => cases h
    | _ => cases hover
  | @releasing n tail live row file hreleases hrow hfailed hlog =>
    dsimp only at hreleases hrow hlog
    subst hlog
    cases pos with
    | releaseConn sender row' cause =>
      obtain ⟨rfl, rfl⟩ := Prod.mk.inj (Option.some.inj hrow)
      dsimp only at h
      split at h <;> cases h
      · exact .released (over_afterRelease cause) hfailed (Or.inl rfl) rfl
      · exact .releasing rfl rfl hfailed (List.append_nil _)
    | release sender row' cause _ =>
      obtain ⟨rfl, rfl⟩ := Prod.mk.inj (Option.some.inj hrow)
      dsimp only at h
      split at h <;> cases h
      · exact .released (over_afterRelease cause) hfailed (Or.inl rfl) rfl
      · exact .released (over_afterRelease cause) hfailed (Or.inr ⟨_, _, rfl⟩) rfl
    | _ => cases hreleases
  | released hover hfailed hexpired hlog =>
    dsimp only at hover hlog
    subst hlog
    cases pos with
    | goneConn e | gone _ e =>
      dsimp only at h
      split at h <;> cases h <;> exact .released rfl hfailed hexpired (List.append_nil _)
    | returned r => cases h
    | _ => cases hover

end SendTransaction

theorem Call.of_next_sendTransaction {me : CallId} {ch : Choice} {σ σ' : Shared} {call : Call}
    {x' : SendTransaction} (h : call.next me ch σ = some (.sendTransaction x', σ')) :
    ∃ x, call = .sendTransaction x ∧ x.next ch σ = some (x', σ') := by
  cases call <;> obtain ⟨r, hr, h⟩ := Option.map_eq_some_iff.mp h <;> cases h
  exact ⟨_, rfl, hr⟩

/-- Every send in a reachable configuration has done what its position says. -/
theorem send_trail {ok : Guard Shared Call} {s : World} (h : system.Reach ok s) {c : CallId}
    {x : SendTransaction} (hc : s.calls c = some (.sendTransaction x)) : x.Trail := by
  refine h.outline (A := fun _ call _ => ∀ x, call = .sendTransaction x → x.Trail) ?_ ?_ ?_ hc x rfl
  · rintro s c call _ _ hstart x rfl
    simp only [system, Call.starts, decide_eq_true_eq] at hstart
    rw [hstart]
    exact @SendTransaction.Trail.onCourse _ 0 true "" ⟨[]⟩ rfl (fun _ h => by cases h) rfl
  · rintro s c call call' σ' _ _ _ hA ⟨ch, hstep⟩ x' rfl
    obtain ⟨x, rfl, hnext⟩ := Call.of_next_sendTransaction hstep
    exact SendTransaction.trail_next (hA x rfl) hnext
  · intro s c call call' σ' d m _ _ _ _ _ _ _ hB
    exact hB

namespace SendTransaction

variable {ok : Guard Shared Call} {s : World} {c : CallId} {ch : Choice} {σ σ' : Shared}
variable {x x' : SendTransaction}

/-! ## What a trail says -/

/-- Finalize has returned `Ok` in a send that returns `Ok`, and in no other. -/
theorem finalized_iff (ht : x.Trail) : .finalized true ∈ x.log ↔
    (∃ sent, x.pos = .broadcasted sent) ∨ ∃ r, x.pos = .returned (.ok r) := by
  obtain ⟨details, pos, log⟩ := x
  cases ht with
  | onCourse hn _ hlog =>
    dsimp only at hn hlog
    subst hlog
    cases pos with
    | returned r =>
      cases r <;> cases hn
      simp [course, report]
    | _ => cases hn <;> simp [course, report]
  | refused hover hrefused hlog =>
    dsimp only at hover hlog
    subst hlog
    cases pos with
    | goneConn _ | gone _ _ => cases hrefused <;> simp [course, report]
    | returned r =>
      cases r <;> cases hover
      cases hrefused <;> simp [course, report]
    | _ => cases hover
  | releasing hreleases _ hfailed hlog =>
    dsimp only at hreleases hlog
    subst hlog
    cases pos <;> cases hreleases <;> cases hfailed <;> simp [course, report]
  | released hover hfailed hexpired hlog =>
    dsimp only at hover hlog
    subst hlog
    rcases hexpired with rfl | ⟨f, acted, rfl⟩ <;> cases pos with
    | goneConn _ | gone _ _ => cases hfailed <;> simp [course, report]
    | returned r =>
      cases r <;> cases hover
      cases hfailed <;> simp [course, report]
    | _ => cases hover

/-- A send that fails has released what it had reserved, and no other send has released anything. -/
theorem releasedRows_eq (ht : x.Trail) :
    x.releasedRows = if x.pos.releases || x.pos.over then x.builtRows else [] := by
  obtain ⟨details, pos, log⟩ := x
  cases ht with
  | onCourse hn _ hlog =>
    dsimp only at hn hlog
    subst hlog
    cases pos with
    | returned r =>
      cases r <;> cases hn
      rfl
    | _ => cases hn <;> rfl
  | refused hover hrefused hlog =>
    dsimp only at hover hlog
    subst hlog
    rw [hover, Bool.or_true, if_pos rfl]
    cases hrefused <;> rfl
  | releasing hreleases _ hfailed hlog =>
    dsimp only at hreleases hlog
    subst hlog
    rw [hreleases, Bool.true_or, if_pos rfl]
    cases hfailed <;> rfl
  | released hover hfailed hexpired hlog =>
    dsimp only at hover hlog
    subst hlog
    rw [hover, Bool.or_true, if_pos rfl]
    rcases hexpired with rfl | ⟨f, acted, rfl⟩ <;> cases hfailed <;> rfl

/-- The log of a send is a part of its course, and what only a send does that fails. -/
theorem log_shape (ht : x.Trail) : ∃ live row file n tail,
    x.log = (course x.details live row file).take n ++ tail ∧ ∀ e ∈ tail, e.failing = true := by
  cases ht with
  | onCourse _ _ hlog => exact ⟨_, _, _, _, [], by rw [hlog, List.append_nil], nofun⟩
  | refused _ hrefused hlog =>
    refine ⟨_, _, _, _, _, hlog, ?_⟩
    cases hrefused <;> simp [SendEvent.failing]
  | releasing _ _ hfailed hlog =>
    refine ⟨_, _, _, _, _, hlog, ?_⟩
    cases hfailed <;> simp [SendEvent.failing]
  | released _ hfailed hexpired hlog =>
    refine ⟨_, _, _, _, _, hlog.trans (List.append_assoc _ _ _), ?_⟩
    rcases hexpired with rfl | ⟨f, acted, rfl⟩ <;> cases hfailed <;> simp [SendEvent.failing]

/-- What a send does whether it fails or not, it does on its course. -/
theorem filterMap_log {α : Type} (f : SendEvent → Option α)
    (hf : ∀ e : SendEvent, e.failing = true → f e = none) (ht : x.Trail) : ∃ live row file n,
    x.log.filterMap f = ((course x.details live row file).take n).filterMap f := by
  obtain ⟨live, row, file, n, tail, hlog, htail⟩ := log_shape ht
  refine ⟨live, row, file, n, ?_⟩
  rw [hlog, List.filterMap_append,
    List.filterMap_eq_nil_iff.mpr fun e he => hf e (htail e he), List.append_nil]

/-- A send builds at most one transaction. -/
theorem builtRows_length (ht : x.Trail) : x.builtRows.length ≤ 1 := by
  obtain ⟨live, row, file, n, hlog⟩ := filterMap_log SendEvent.builtRow
    (fun e he => by cases e <;> first | rfl | cases he) ht
  rw [builtRows, hlog]
  exact ((List.take_sublist n (course x.details live row file)).filterMap _).length_le

/-- A send reports its stages in order. -/
theorem stages_prefix (ht : x.Trail) : x.stages <+: TransactionStage.all := by
  obtain ⟨live, row, file, n, hlog⟩ := filterMap_log SendEvent.stage
    (fun e he => by cases e <;> first | rfl | cases he) ht
  rw [stages, hlog]
  exact (List.take_prefix n (course x.details live row file)).filterMap _

/-- A send finalizes at most once, after it has found the wallet unlocked every time. -/
theorem guarded_log (ht : x.Trail) {baseUrl : String} (h : .finalize baseUrl ∈ x.log) :
    x.log.filter SendEvent.guarded = [.checked .keyLoad true, .checked .keyLoadAgain true,
      .checked .postBuild true, .checked .preFinalize true, .finalize baseUrl] := by
  obtain ⟨details, pos, log⟩ := x
  cases ht with
  | onCourse hn _ hlog =>
    dsimp only at hn hlog
    subst hlog
    cases pos with
    | returned r =>
      cases r <;> cases hn
      obtain rfl : baseUrl = details.baseUrl.getD defaultBaseUrl := by simpa [course, report] using h
      rfl
    | broadcasted sent =>
      cases hn
      obtain rfl : baseUrl = details.baseUrl.getD defaultBaseUrl := by simpa [course, report] using h
      rfl
    | _ => cases hn <;> simp [course, report] at h
  | refused hover hrefused hlog =>
    dsimp only at hlog
    subst hlog
    cases hrefused <;> simp [course, report] at h
  | releasing hreleases _ hfailed hlog =>
    dsimp only at hlog
    subst hlog
    cases hfailed with
    | finalize =>
      obtain rfl : baseUrl = details.baseUrl.getD defaultBaseUrl := by simpa [course, report] using h
      rfl
    | _ => simp [course, report] at h
  | released hover hfailed hexpired hlog =>
    dsimp only at hlog
    subst hlog
    rcases hexpired with rfl | ⟨f, acted, rfl⟩ <;> cases hfailed with
    | finalize =>
      obtain rfl : baseUrl = details.baseUrl.getD defaultBaseUrl := by simpa [course, report] using h
      rfl
    | _ => simp [course, report] at h

/-! ## What a step of a send sees and does -/

/-- A check is logged positive only where the wallet was seen unlocked. -/
theorem checked_live (h : x.next ch σ = some (x', σ')) {check : SessionCheck}
    (hin : .checked check true ∈ x'.log) : .checked check true ∈ x.log ∨
      ∃ file, σ.isUnlocked file x.details.walletName ch = .ok true := by
  obtain ⟨details, pos, log⟩ := x
  unfold next at h
  cases pos with
  | keyCheck sender file account =>
    dsimp only at h
    split at h <;> cases h
    · exact Or.inl (by simpa [goto] using hin)
    · exact Or.inl (by simpa [goto] using hin)
    · exact Or.inr ⟨file, ‹_›⟩
  | keyCheckAgain sender file account keys =>
    dsimp only at h
    (repeat' split at h) <;> cases h <;>
      first
      | exact Or.inr ⟨file, ‹_›⟩
      | exact Or.inl (by simpa [goto] using hin)
  | postBuild sender row | preFinalize sender row =>
    dsimp only at h
    split at h <;> cases h
    · rename_i hun
      simp only [unlockedIn, Bool.and_eq_true, beq_iff_eq] at hun
      exact Or.inr ⟨sender.dbPool, hun.2⟩
    · exact Or.inl (by simpa [goto] using hin)
  | _ =>
    dsimp only at h
    (repeat' split at h) <;> cases h <;> exact Or.inl (by simpa [goto, report] using hin)

/-- The inputs of a send are invalid, or its key load finds the wallet unknown, locked or view-only. -/
def Refuses (ch : Choice) (σ : Shared) (x : SendTransaction) : Prop :=
  match x.pos with
  | .validate => ∀ validated, validateInputs ch.fromBase58 x.details ≠ .ok validated
  | .keyAccount _ file => (σ.files file).getAccountByName x.details.walletName = none
  | .keyCheck _ file _ => σ.isUnlocked file x.details.walletName ch ≠ .ok true
  | .keyCheckAgain _ file account _ =>
    σ.isUnlocked file x.details.walletName ch ≠ .ok true ∨ account.viewOnly = true
  | _ => False

/-- A send that refuses returns at once, with nothing built. -/
theorem refuses_returned (ht : x.Trail) (h : x.next ch σ = some (x', σ')) (hr : x.Refuses ch σ) :
    (∃ e, x'.pos = .returned (.error e)) ∧ .build ∉ x'.log := by
  obtain ⟨details, pos, log⟩ := x
  cases ht with
  | onCourse hn _ hlog =>
    dsimp only at hn hlog
    subst hlog
    unfold next at h
    cases pos with
    | validate =>
      cases hn
      dsimp only at h
      split at h
      · cases h
        exact ⟨⟨_, rfl⟩, by simp [goto, course, report]⟩
      · exact absurd ‹_› (hr _)
    | keyAccount sender file =>
      cases hn
      dsimp only at h
      (repeat' split at h) <;> cases h
      · exact ⟨⟨_, rfl⟩, by simp [goto, course, report]⟩
      · exact ⟨⟨_, rfl⟩, by simp [goto, course, report]⟩
      · cases hr.symm.trans ‹_›
    | keyCheck sender file account =>
      cases hn
      dsimp only at h
      split at h
      · cases h
        exact ⟨⟨_, rfl⟩, by simp [goto, course, report]⟩
      · cases h
        exact ⟨⟨_, rfl⟩, by simp [goto, course, report]⟩
      · exact absurd ‹_› hr
    | keyCheckAgain sender file account keys =>
      cases hn
      dsimp only at h
      (repeat' split at h) <;> cases h <;>
        first
        | exact ⟨⟨_, rfl⟩, by simp [goto, course, report]⟩
        | exact absurd hr (by simp [Refuses, *])
    | _ => cases hr
  | refused hover _ _ | released hover _ _ _ =>
    cases pos with
    | validate | keyAccount _ _ | keyCheck _ _ _ | keyCheckAgain _ _ _ _ => cases hover
    | _ => exact False.elim hr
  | releasing hreleases _ _ _ =>
    cases pos with
    | validate | keyAccount _ _ | keyCheck _ _ _ | keyCheckAgain _ _ _ _ => cases hreleases
    | _ => exact False.elim hr

/-- Only the build reserves inputs. -/
theorem reserves_in_build (h : x.next ch σ = some (x', σ')) {file : PathBuf} {o : OutputId}
    {row : RowId} (ho : (σ'.files file).lockedBy o = some row) :
    (σ.files file).lockedBy o = some row ∨ ∃ sender, x.pos = .build sender := by
  obtain ⟨details, pos, log⟩ := x
  unfold next at h
  cases pos with
  | build sender => exact Or.inr ⟨sender, rfl⟩
  | applyNetwork validated =>
    left
    dsimp only at h
    split at h <;> cases h <;> obtain ⟨network, rfl⟩ := Shared.applyNetwork_frame ‹_› <;> exact ho
  | sweep sender path =>
    cases h
    refine Or.inl (Shared.lockedBy_of_setFile (fun ho => ?_) ho)
    split at ho
    · exact ho
    · exact WalletDatabase.releaseExpired_lockedBy ho
  | finalize sender row' =>
    left
    dsimp only at h
    (repeat' split at h) <;> cases h
    · exact Shared.lockedBy_of_setFile
        (fun h : ((σ.files sender.dbPool).complete row').lockedBy o = some row => h) ho
    · exact Shared.lockedBy_of_setFile
        (fun h : ((σ.files sender.dbPool).complete row').lockedBy o = some row => h) ho
    · exact Shared.lockedBy_of_setFile WalletDatabase.expireAndUnlock_lockedBy ho
    · exact ho
  | release sender row' cause path =>
    left
    dsimp only at h
    split at h <;> cases h
    · exact ho
    · exact Shared.lockedBy_of_setFile WalletDatabase.expireAndUnlock_lockedBy ho
  | _ =>
    left
    dsimp only at h
    (repeat' split at h) <;> cases h <;> exact ho

end SendTransaction

/-! ## The send -/

theorem returned_steps {ok : Guard Shared Call} {s t : World} {c : CallId} {call : Call}
    (hc : s.calls c = some call) (hr : call.returned = true) (ht : system.Steps ok s t) :
    t.calls c = some call := by
  induction ht with
  | refl => exact hc
  | move _ _ hmove ih =>
    cases hmove with
    | start hfree _ => exact Config.put_calls_of_free hfree ih
    | @step _ m _ _ _ hm hst =>
      obtain ⟨ch, hst⟩ := hst
      by_cases hcm : c = m
      · subst hcm
        obtain rfl := Option.some.inj (ih.symm.trans hm)
        rw [Call.next_of_returned hr] at hst
        cases hst
      · rw [Config.put_calls_ne _ _ _ hcm]
        exact ih

open SendTransaction in
/-- A send is atomic with respect to its reservation, wherever the other calls' steps fall.  Finalize
has returned `Ok` just where the call returns `Ok`; a call that returns has released what it built, and
only that, if it returns an error, and nothing otherwise; it finalizes at most once, after four checks
that all saw the wallet unlocked; if the inputs are invalid, or the key load finds the wallet unknown,
locked or view-only, it never builds, and nothing else reserves; and its stages come in order. -/
theorem send_atomic {ok : Guard Shared Call} {s : World} (h : system.Reach ok s) {c : CallId}
    {x : SendTransaction} (hc : s.calls c = some (.sendTransaction x)) :
    (.finalized true ∈ x.log ↔
      (∃ sent, x.pos = .broadcasted sent) ∨ ∃ r, x.pos = .returned (.ok r)) ∧
    (x.builtRows.length ≤ 1 ∧ x.releasedRows <+: x.builtRows ∧
      (∀ r, x.pos = .returned (.ok r) → x.releasedRows = []) ∧
      ∀ e, x.pos = .returned (.error e) → x.releasedRows = x.builtRows) ∧
    ((∀ baseUrl, .finalize baseUrl ∈ x.log → x.log.filter SendEvent.guarded =
        [.checked .keyLoad true, .checked .keyLoadAgain true, .checked .postBuild true,
          .checked .preFinalize true, .finalize baseUrl]) ∧
      ∀ ch x' σ', x.next ch s.shared = some (x', σ') → ∀ check, .checked check true ∈ x'.log →
        .checked check true ∈ x.log ∨
          ∃ file, s.shared.isUnlocked file x.details.walletName ch = .ok true) ∧
    (∀ ch x' σ', x.next ch s.shared = some (x', σ') →
      (x.Refuses ch s.shared → ∀ t, system.Steps ok (s.put c (.sendTransaction x') σ') t →
        ∀ y, t.calls c = some (.sendTransaction y) → .build ∉ y.log) ∧
      ∀ file o row, (σ'.files file).lockedBy o = some row →
        (s.shared.files file).lockedBy o = some row ∨ ∃ sender, x.pos = .build sender) ∧
    x.stages <+: TransactionStage.all := by
  have ht := send_trail h hc
  refine ⟨finalized_iff ht, ⟨builtRows_length ht, ?_, ?_, ?_⟩,
    ⟨fun _ => guarded_log ht, fun ch x' σ' hnext check => checked_live hnext⟩,
    fun ch x' σ' hnext => ⟨?_, fun file o row => reserves_in_build hnext⟩, stages_prefix ht⟩
  · rw [releasedRows_eq ht]
    split
    · exact List.prefix_rfl
    · exact List.nil_prefix
  · intro r hr
    rw [releasedRows_eq ht, hr]
    rfl
  · intro e he
    rw [releasedRows_eq ht, he]
    rfl
  · intro hrefuses t hsteps y hy
    obtain ⟨⟨e, he⟩, hbuild⟩ := refuses_returned ht hnext hrefuses
    have hy' := returned_steps (Config.put_calls_self s c _ σ') (by simp [Call.returned, he]) hsteps
    obtain rfl := Call.sendTransaction.inj (Option.some.inj (hy.symm.trans hy'))
    exact hbuild

/-- A send from "main" to one payee. -/
def sampleSend : MultiSendTransactionDetails :=
  ⟨none, none, "main", [⟨"payee", 1, none⟩], false, none⟩

/-- A `send_transaction` of `sampleSend` from its start to where it has reserved its inputs. -/
def sends (c : CallId) : List (Act Call Choice) :=
  .start c (.sendTransaction ⟨sampleSend, .initializing, []⟩) :: go c 1 ++
    [.step c { fromBase58 := fun text => .ok ⟨.mainNet, text⟩ }] ++ go c 9 ++
    [.step c { row := "row", inputs := [7] }]

/-- A `lock_wallet` of "main", with no scan to wait for. -/
def locks (c : CallId) : List (Act Call Choice) :=
  .start c (.lockWallet ⟨"main", none, .release⟩) :: go c 7

/-- The wallet is locked under a send that has reserved its inputs. -/
def sendLocked : Option World :=
  (replayOnly 3 fun _ => true).exec fresh (unlocks 0 firstPath ++ sends 1 ++ locks 2 ++ go 1 3)

theorem send_atomic_sendLocked : ∃ s x, sendLocked = some s ∧
    s.calls 1 = some (.sendTransaction x) ∧ x.releasedRows = ["row"] ∧ .build ∈ x.log ∧
    x.stages <+: TransactionStage.all := by
  obtain ⟨s, hs⟩ := Option.isSome_iff_exists.mp (by decide : sendLocked.isSome = true)
  have after : (sendLocked.bind fun s => s.calls 1).any (fun call => match call with
      | .sendTransaction x => x.pos = .returned (.error (.wallet .locked)) &&
          decide (x.builtRows = ["row"]) && decide (.build ∈ x.log)
      | _ => false) = true := by decide
  rw [hs, Option.bind_some, Option.any_eq_true] at after
  obtain ⟨call, hcall, hx⟩ := after
  cases call <;> simp only [Bool.false_eq_true, Bool.and_eq_true, decide_eq_true_eq] at hx
  case sendTransaction x =>
  obtain ⟨⟨hpos, hbuilt⟩, hbuild⟩ := hx
  have hreach : system.Reach (only fun _ => true) s := replayOnly_sound.reach fresh_init hs
  obtain ⟨-, ⟨-, -, -, herror⟩, -, -, hstages⟩ := send_atomic hreach hcall
  exact ⟨s, x, hs, hcall, (herror _ hpos).trans hbuilt, hbuild, hstages⟩

end CwTariWallet
