/-
# CwTariWallet.Isolation.Reached -- the runs that are compared, and what they reach

What any run reaches: the next handle id has not been seen, a scan past its claim is on its handle's wallet,
the tokens of a call not made yet are fresh, and a path once recorded stays recorded.

And the runs that are compared (`allowed`).  Every call names the one database file,
names are closed under renames, a handle is one that `create_scan_handle` returned, and a call that asks for
the path comes after one that recorded it for the wallets in `W`.
-/
import CwTariWallet.Bridge.KeyReads
import CwTariWallet.Isolation.Bystanders
import CwTariWallet.Isolation.LockstepSends

namespace CwTariWallet

open Interleaving

variable {ok : Guard Shared Call} {s : World} {c me : CallId} {ch : Choice} {σ σ' : Shared}
variable {call call' : Call}

/-! ## Handles and tokens -/

theorem unseen_next (h : system.Reach ok s) :
    Shared.Agree.Unseen s.shared.scans s.shared.scanId := by
  have hlt := (TicketProtocol.lt_next ((ticketHom fun _ _ => True).reach_any (reach_any h))).1
  refine ⟨fun hissued => Nat.lt_irrefl _ (hlt _ hissued), fun hstopped => ?_, ?_⟩
  · exact Nat.lt_irrefl _ (stopped_spent h _ hstopped).1.handedOut
  · by_contra hstarting
    obtain ⟨v, hv⟩ := Option.ne_none_iff_exists'.mp hstarting
    obtain ⟨d, holder, hd, hclaimed, -⟩ := starting_held h _ v hv
    exact Nat.lt_irrefl _ (spent_of_claimed h hd hclaimed).handedOut

/-- A scan gets past its claim under a handle of its wallet, and never back. -/
theorem Scan.next_claimed {x x' : Scan} (h : x.next me ch σ = some (x', σ'))
    (hbefore : x'.pos.stage ≠ .before) (hover : x'.pos.stage ≠ .over) :
    x.handle.walletName = x.walletName ∨ x.pos.stage ≠ .before ∧ x.pos.stage ≠ .over := by
  obtain ⟨handle, v, priority, continuous, rescanFrom, pos, dbPath, forwarder, checked, swept, rolledBack⟩ := x
  unfold next at h
  cases pos with
  | claim =>
    dsimp only at h
    split at h
    · cases h
      exact absurd rfl hover
    · exact Or.inl (not_not.mp ‹_›)
  | terminal outcome | stop r =>
    cases h
    exact absurd rfl hover
  | returned r => cases h
  | _ => exact Or.inr ⟨nofun, nofun⟩

theorem scan_handle (h : system.Reach ok s) {x : Scan} (hc : s.calls c = some (.scan x))
    (hbefore : x.pos.stage ≠ .before) (hover : x.pos.stage ≠ .over) :
    x.handle.walletName = x.walletName := by
  refine h.outline (A := fun _ call _ => ∀ x, call = .scan x → x.pos.stage ≠ .before →
    x.pos.stage ≠ .over → x.handle.walletName = x.walletName) ?_ ?_ ?_ hc x rfl hbefore hover
  · rintro s c call _ _ hl x rfl hbefore _
    have hx : x = _ := of_decide_eq_true hl
    rw [hx] at hbefore
    exact absurd rfl hbefore
  · rintro s c call call' σ' _ _ _ hA ⟨ch, hstep⟩ x' rfl hbefore hover
    obtain ⟨x, rfl, hnext⟩ := Call.of_next_scan hstep
    obtain ⟨hhandle, hwallet⟩ := Scan.next_same hnext
    rw [hhandle, hwallet]
    rcases Scan.next_claimed hnext hbefore hover with hname | ⟨hbefore, hover⟩
    · exact hname
    · exact hA x rfl hbefore hover
  · intro s c call call' σ' d m _ _ _ _ _ _ _ hB
    exact hB

/-- A step touches its own tokens and those of scans in a slot. -/
theorem ScanStep.tokens_eq (h : ScanStep me call σ call' σ') (hne : c ≠ me)
    (hslot : ∀ w k, σ.scans.running.lookup w = some k → c ≠ k.scan) : σ'.tokens c = σ.tokens c := by
  have cancelled {w : WalletName} {k : ScanController} (hk : σ.scans.running.lookup w = some k) :
      σ.tokens.cancel k.scan c = σ.tokens c := by
    simp [TokenMap.cancel, hslot w k hk]
  cases h with
  | same hsame _ _ => rw [hsame.tokens]
  | @cancelWallet _ _ _ _ w hsame _ _ _ =>
    rw [hsame.tokens, Shared.cancelWalletScans_eq]
    cases hk : σ.scans.running.lookup w with
    | none => rfl
    | some k => exact cancelled hk
  | @stopScan x _ _ _ _ hstop _ _ =>
    obtain ⟨r, scans, tokens, hs⟩ : ∃ r scans tokens, σ.scans.stopScan σ.tokens x.handle =
      (r, scans, tokens) := ⟨_, _, _, rfl⟩
    simp only [Shared.stopScan, hs] at hstop
    obtain ⟨-, rfl⟩ := Prod.mk.inj hstop
    rcases ScanState.stopScan_cases hs with ⟨-, -, rfl, -⟩ | ⟨-, -, -, rfl, -⟩ | ⟨k, hk, -, -, rfl, -⟩ |
      ⟨-, -, -, -, rfl, -⟩
    · rfl
    · rfl
    · exact cancelled hk
    · rfl
  | @enter x _ _ _ _ =>
    cases hk : σ.scans.running.lookup x.walletName with
    | none => rfl
    | some k => exact TokenMap.replace_ne (hslot _ k hk)
  | cancelSelf _ _ _ _ => simp [TokenMap.cancel, hne]
  | stop _ => simp [TokenMap.stop, hne]
  | _ => rfl

/-- A call not made yet has fresh tokens. -/
theorem tokens_fresh (h : system.Reach ok s) : ∀ c, s.calls c = none → s.shared.tokens c = {} := by
  refine h.invariant (I := fun s : World => ∀ c, s.calls c = none → s.shared.tokens c = {}) ?_ ?_ ?_
  · rintro σ ⟨files, tariCommon, rfl⟩ c _
    rfl
  · intro s m l _ ih _ _ _ c hc
    by_cases hcm : c = m
    · subst hcm
      rw [Config.put_calls_self] at hc
      cases hc
    · rw [Config.put_calls_ne _ _ _ hcm] at hc
      exact ih c hc
  · rintro s m l l' σ' hs ih _ hm ⟨ch, hstep⟩ c hc
    have hcm : c ≠ m := by
      rintro rfl
      rw [Config.put_calls_self] at hc
      cases hc
    rw [Config.put_calls_ne _ _ _ hcm] at hc
    -- A step reaches for the tokens of scans that run, and a call not made yet is none.
    refine ((Call.scanStep hstep).tokens_eq hcm fun w k hk => ?_).trans (ih c hc)
    rintro rfl
    obtain ⟨holder, hholder, -⟩ := running_sound hs w k hk
    rw [hc] at hholder
    cases hholder

/-! ## The recorded path -/

theorem DbState.count_path {a a' : DbState} {path : PathBuf} {w : WalletName}
    {opens : Except BridgeError Unit} {r : Except BridgeError (Nat × Bool)}
    (h : a.count path w opens = (r, a')) : a'.path = some path ∨ a'.path = a.path ∧ ∃ e, r = .error e := by
  unfold count at h
  split at h
  · obtain ⟨rfl, rfl⟩ := Prod.mk.inj h
    exact Or.inr ⟨rfl, _, rfl⟩
  dsimp only at h
  split at h
  · obtain ⟨-, rfl⟩ := Prod.mk.inj h
    exact Or.inl rfl
  split at h <;> obtain ⟨rfl, rfl⟩ := Prod.mk.inj h
  · exact Or.inr ⟨by split <;> rfl, _, rfl⟩
  · exact Or.inl rfl

theorem Shared.count_path {path : PathBuf} {w : WalletName} {r : Except BridgeError Nat}
    (h : σ.count me path w ch = (r, σ')) :
    σ'.db.path = some path ∨ σ'.db.path = σ.db.path ∧ ∃ e, r = .error e := by
  unfold count at h
  split at h
  · rename_i hcount
    cases h
    exact (DbState.count_path hcount).imp_right fun hsame => ⟨hsame.1, _, rfl⟩
  · rename_i hcount
    cases h
    left
    rcases DbState.count_path hcount with hset | ⟨-, e, he⟩
    · split <;> exact hset
    · cases he

theorem DbStep.path_ne_none (h : DbStep me call σ call' σ') (hpath : σ.db.path ≠ none) :
    σ'.db.path ≠ none :=
  Option.isSome_iff_ne_none.mp (h.path_kept (Option.isSome_iff_ne_none.mpr hpath))

/-- A call that has recorded the path it was made with. -/
def Call.recorded : Call → Bool
  | .setDatabasePath p => match p.pos with | .returned (.ok _) => true | _ => false
  | .unlockWallet u => u.pos.generation.isSome
  | _ => false

theorem Call.recorded_of_starts (h : call.starts = true) : call.recorded = false := by
  cases call <;> first | rfl | have hpos := of_decide_eq_true h
  case setDatabasePath p =>
    obtain ⟨path, pos⟩ := p
    cases hpos
    rfl
  case unlockWallet u =>
    obtain ⟨path, v, passphrase, pos⟩ := u
    cases hpos
    rfl

theorem Call.recorded_next (h : call.next me ch σ = some (call', σ')) (hrecorded : call'.recorded = true) :
    call.recorded = true ∨ σ'.db.path ≠ none := by
  cases call <;> obtain ⟨⟨x', σ''⟩, hr, h'⟩ := Option.map_eq_some_iff.mp h <;> cases h'
  case setDatabasePath p =>
    right
    unfold SetDatabasePath.next at hr
    split at hr
    · split at hr <;> cases hr
      · cases hrecorded
      · rename_i hset
        unfold DbState.setDatabasePath at hset
        split at hset <;> cases hset
        exact Option.some_ne_none _
    · cases hr
  case unlockWallet u =>
    by_cases hpos : u.pos = .count
    · right
      unfold UnlockWallet.next at hr
      rw [hpos] at hr
      dsimp only at hr
      split at hr <;> cases hr
      · cases hrecorded
      · rcases Shared.count_path ‹_› with hset | ⟨-, e, he⟩
        · rw [hset]
          exact Option.some_ne_none _
        · cases he
    · -- An unlock past its count has counted before.
      left
      obtain ⟨path, v, passphrase, pos⟩ := u
      cases pos with
      | count => exact absurd rfl hpos
      | returned g r => cases hr
      | _ => rfl
  all_goals cases hrecorded

theorem Call.recorded_kept (h : call.next me ch σ = some (call', σ')) (hrecorded : call.recorded = true) :
    call'.recorded = true := by
  cases call <;> first | cases hrecorded | obtain ⟨⟨x', σ''⟩, hr, h'⟩ := Option.map_eq_some_iff.mp h
  case setDatabasePath p =>
    obtain ⟨path, pos⟩ := p
    cases pos with
    | set => cases hrecorded
    | returned r => cases hr
  case unlockWallet u =>
    cases h'
    obtain ⟨g, hg⟩ := Option.isSome_iff_exists.mp hrecorded
    exact Option.isSome_iff_exists.mpr ⟨g, (UnlockWallet.next_same hr).2.2.2 g hg⟩

/-- Under whatever names. -/
theorem Call.Like.recorded {ρ : Renaming} {path : PathBuf} {m : Call} (h : call.Like ρ path m) :
    m.recorded = call.recorded := by
  cases h with
  | @unlockWallet u j _ =>
    obtain ⟨path, v, passphrase, pos⟩ := u
    cases pos with
    | returned g r => cases g <;> rfl
    | _ => rfl
  | _ => rfl

/-- Once a call has recorded a path there is one. -/
theorem recorded_path (h : system.Reach ok s) (hc : s.calls c = some call)
    (hrecorded : call.recorded = true) : s.shared.db.path ≠ none := by
  refine h.outline (A := fun _ call σ => call.recorded = true → σ.db.path ≠ none) ?_ ?_ ?_ hc hrecorded
  · intro s c call _ _ hl hrecorded
    rw [Call.recorded_of_starts hl] at hrecorded
    cases hrecorded
  · rintro s c call call' σ' _ _ _ hA ⟨ch, hstep⟩ hrecorded
    rcases Call.recorded_next hstep hrecorded with hold | hpath
    · exact (Call.dbStep hstep).path_ne_none (hA hold)
    · exact hpath
  · rintro s c call call' σ' d m _ _ _ _ ⟨ch, hstep⟩ _ _ hB hrecorded
    exact (Call.dbStep hstep).path_ne_none (hB hrecorded)

/-! ## The runs that are compared -/

variable {W : WalletName → Prop} {path : PathBuf} {tariCommon : TariCommon}

/-- The handle a call is given. -/
def Call.given : Call → Option ScanHandle
  | .scan x => some x.handle
  | .stopScan x => some x.handle
  | _ => none

/-- A `create_scan_handle` call returned `handle`. -/
def World.Issued (s : World) (handle : ScanHandle) : Prop :=
  ∃ d m, s.calls d = some m ∧ m = .createScanHandle ⟨handle.walletName, .returned handle⟩

/-- A call on a wallet in `W`, or on none, has recorded its path. -/
def World.Recorded (W : WalletName → Prop) (s : World) : Prop :=
  ∃ d m, s.calls d = some m ∧ m.On W ∧ m.recorded = true

structure Call.Allowed (W : WalletName → Prop) (path : PathBuf) (call : Call) (s : World) : Prop where
  fits : call.Fits W path
  issued : ∀ handle, call.given = some handle → s.Issued handle
  recorded : call.On W → call.needsPath = true → s.Recorded W

/-- The runs on one file that keep to what the wallets in `W` share with no other: their
names, their handles and a path that was recorded for them. -/
def allowed (W : WalletName → Prop) (path : PathBuf) : Guard Shared Call
  | .start _ call, s => call.Allowed W path s
  | .step _, _ => True

theorem Call.allowed_next (h : call.next me ch σ = some (call', σ')) :
    call'.Allowed W path s ↔ call.Allowed W path s := by
  have hgiven (call : Call) : call.begun.given = call.given := by cases call <;> rfl
  have hneeds (call : Call) : call.begun.needsPath = call.needsPath := by cases call <;> rfl
  have hbegun := Call.next_begun h
  have hgiven' : call'.given = call.given := by rw [← hgiven, hbegun, hgiven]
  have hneeds' : call'.needsPath = call.needsPath := by rw [← hneeds, hbegun, hneeds]
  constructor
  · rintro ⟨hfits, hissued, hrecorded⟩
    rw [Call.fits_next h] at hfits
    rw [hgiven'] at hissued
    rw [Call.on_next h, hneeds'] at hrecorded
    exact ⟨hfits, hissued, hrecorded⟩
  · rintro ⟨hfits, hissued, hrecorded⟩
    rw [← Call.fits_next h] at hfits
    rw [← hgiven'] at hissued
    rw [← Call.on_next h, ← hneeds'] at hrecorded
    exact ⟨hfits, hissued, hrecorded⟩

/-- What allows a call is still there after a step. -/
theorem Call.Allowed.put {m l' : Call} (h : m.Allowed W path s)
    (hissued : ∀ handle, s.Issued handle → World.Issued (s.put c l' σ') handle)
    (hrecorded : s.Recorded W → World.Recorded W (s.put c l' σ')) :
    m.Allowed W path (s.put c l' σ') :=
  ⟨h.fits, fun handle hgiven => hissued handle (h.issued handle hgiven),
    fun hon hneeds => hrecorded (h.recorded hon hneeds)⟩

/-- A call in such a run is one that was allowed to start. -/
theorem allowed_of_reach (h : system.Reach (allowed W path) s) :
    ∀ c call, s.calls c = some call → call.Allowed W path s := by
  refine h.invariant (I := fun s : World => ∀ c call, s.calls c = some call →
    call.Allowed W path s) ?_ ?_ ?_
  · intro σ _ c call hc
    cases hc
  · intro s m l _ ih hok hfree hl c call hc
    have hkept {P : Call → Prop} (hP : ∃ d x, s.calls d = some x ∧ P x) :
        ∃ d x, (s.put m l s.shared).calls d = some x ∧ P x := by
      obtain ⟨d, x, hd, hx⟩ := hP
      exact ⟨d, x, Config.put_calls_of_free hfree hd, hx⟩
    refine Call.Allowed.put ?_ (fun _ => hkept) hkept
    rcases Config.put_calls_eq_some hc with ⟨-, rfl⟩ | ⟨-, hc⟩
    · exact hok
    · exact ih c call hc
  · rintro s m l l' σ' _ ih _ hm ⟨ch, hstep⟩ c call hc
    refine Call.Allowed.put ?_ (fun handle => Config.exists_put ?_) (Config.exists_put ?_)
    · rcases Config.put_calls_eq_some hc with ⟨rfl, rfl⟩ | ⟨-, hc⟩
      · exact (Call.allowed_next hstep).mpr (ih _ l hm)
      · exact ih c call hc
    · rintro _ hl rfl
      obtain rfl := Option.some.inj (hm.symm.trans hl)
      rw [Call.next_of_returned rfl] at hstep
      cases hstep
    · rintro _ hl ⟨hon, hrecorded⟩
      obtain rfl := Option.some.inj (hm.symm.trans hl)
      exact ⟨(Call.on_next hstep).mpr hon, Call.recorded_kept hstep hrecorded⟩

end CwTariWallet
