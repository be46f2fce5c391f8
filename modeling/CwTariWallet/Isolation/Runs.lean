/-
# CwTariWallet.Isolation.Runs -- a run without the other wallets

Leaving out every step of the calls on wallets outside `W` leaves a run in which the calls on the wallets in
`W` do what they did (`isolated`).  The simulation (`World.Sim`) is entry by entry: a call that is kept
takes its step in both runs (`Call.Like.next`), and of one that is left out the second run takes no notice
(`Call.Aside.next`).
-/
import CwTariWallet.Isolation.Reached
import CwTariWallet.Pruning

namespace CwTariWallet

open Interleaving

variable {W : WalletName → Prop} {path : PathBuf} {tariCommon : TariCommon} {ρ ρ' : Renaming}
variable {s t : World} {c m : CallId} {ch : Choice} {l l' : Call} {σ σ' τ : Shared}

/-! ## The calls that are kept -/

/-- The call is on a wallet in `W`, or on none. -/
def World.Keeps (W : WalletName → Prop) (s : World) (c : CallId) : Prop :=
  ∃ call, s.calls c = some call ∧ call.On W

theorem World.keeps_iff (hc : s.calls c = some l) : s.Keeps W c ↔ l.On W := by
  constructor
  · rintro ⟨call, hcall, hon⟩
    obtain rfl := Option.some.inj (hc.symm.trans hcall)
    exact hon
  · exact fun hon => ⟨l, hc, hon⟩

/-- A call that takes a step is kept as before. -/
theorem World.keeps_step (hm : s.calls m = some l) (hon : l'.On W ↔ l.On W) :
    World.Keeps W (s.put m l' σ') = s.Keeps W := by
  funext d
  by_cases hd : d = m
  · subst hd
    exact propext ((World.keeps_iff (Config.put_calls_self _ _ _ _)).trans
      (hon.trans (World.keeps_iff hm).symm))
  · unfold World.Keeps
    rw [Config.put_calls_ne _ _ _ hd]

theorem World.keeps_start (hon : l.On W) (d : CallId) :
    World.Keeps W (s.put m l s.shared) d ↔ d = m ∨ s.Keeps W d := by
  by_cases hd : d = m
  · subst hd
    exact (World.keeps_iff (Config.put_calls_self _ _ _ _)).trans (iff_of_true hon (Or.inl rfl))
  · unfold World.Keeps
    rw [Config.put_calls_ne _ _ _ hd]
    exact (or_iff_right hd).symm

/-- More calls are kept, whose tokens are fresh. -/
theorem Shared.Agree.remine {mine mine' : CallId → Prop} (h : σ.Agree W mine ρ τ)
    (hmine : ∀ c, mine c → mine' c)
    (hfresh : ∀ c, mine' c → mine c ∨ σ.tokens c = {} ∧ τ.tokens c = {}) : σ.Agree W mine' ρ τ := by
  refine { h with scans := h.scans.remine fun _ _ _ _ => hmine _, tokens := fun c hc => ?_ }
  rcases hfresh c hc with hold | ⟨hσ, hτ⟩
  · exact h.tokens c hold
  · rw [hσ, hτ]

/-- Two fresh processes over the same files. -/
theorem Shared.Agree.initial {files : PathBuf → WalletDatabase} (hfiles : ∀ file, (files file).IdsUsed) :
    ∃ ρ : Renaming, (∀ i j, ¬ ρ.handle i j) ∧
      (Shared.initial files tariCommon).Agree W (fun _ => False) ρ (Shared.initial files tariCommon) := by
  refine ⟨⟨fun _ _ => False, fun _ _ => False, fun file i j => i = j ∧ i < (files file).nextAccountId⟩,
    fun _ _ => id, ?_⟩
  constructor
  · exact ⟨fun w _ => .none, fun _ _ => rfl, ⟨nofun, nofun, nofun⟩⟩
  · exact fun _ _ => rfl
  · exact fun _ _ => rfl
  · exact fun file => .refl (hfiles file)
  · exact ⟨nofun, nofun, nofun, nofun, fun _ _ => .none⟩
  · exact ⟨nofun, nofun, nofun⟩
  · exact fun _ h => h.elim
  · exact fun _ _ => rfl

/-- A call that starts can start under the names of the second run. -/
theorem Call.Like.start (hl : l.starts = true) (hpair : ∀ handle, l.given = some handle →
      l.wallet = some handle.walletName → ∃ j, ρ.handle handle.id j) :
    ∃ l', l'.starts = true ∧ l.Like ρ path l' := by
  cases l
  case setDatabasePath p => exact ⟨_, hl, .setDatabasePath⟩
  case lockWallet l => exact ⟨_, hl, .lockWallet⟩
  case forceLockWallet f => exact ⟨_, hl, .forceLockWallet⟩
  case withWalletLocked m => exact ⟨_, hl, .withWalletLocked⟩
  case changePassphrase p => exact ⟨_, hl, .changePassphrase⟩
  case createWallet c => exact ⟨_, hl, .createWallet⟩
  case getAddress a => exact ⟨_, hl, .getAddress⟩
  case unlockWallet u =>
    obtain ⟨p, v, passphrase, pos⟩ := u
    obtain rfl : pos = .count := of_decide_eq_true hl
    exact ⟨_, hl, .unlockWallet (j := 0) nofun⟩
  case abandonSend a =>
    obtain ⟨v, passphrase, transactionId, pos⟩ := a
    obtain rfl : pos = .conn := of_decide_eq_true hl
    exact ⟨_, hl, .abandonSend (j := 0) nofun nofun⟩
  case scan x =>
    have hx : x = _ := of_decide_eq_true hl
    have hnew (j : Nat) : (Call.scan { x with handle := ⟨x.handle.walletName, j⟩, checked := x.checked }).starts
        = true := by
      rw [hx]
      exact decide_eq_true rfl
    by_cases hown : x.handle.walletName = x.walletName
    · obtain ⟨j, hj⟩ := hpair x.handle rfl (congrArg some hown.symm)
      exact ⟨_, hnew j, .scan (fun _ => hj) rfl⟩
    · exact ⟨_, hnew 0, .scan (fun h => absurd h hown) rfl⟩
  case stopScan x =>
    obtain ⟨j, hj⟩ := hpair x.handle rfl rfl
    exact ⟨.stopScan { x with handle := ⟨x.handle.walletName, j⟩ }, hl, .stopScan hj⟩
  case createScanHandle h =>
    obtain ⟨v, pos⟩ := h
    obtain rfl : pos = .fetch := of_decide_eq_true hl
    exact ⟨_, hl, .createScanHandle (j := 0) nofun⟩
  case sendTransaction x =>
    obtain ⟨details, pos, log⟩ := x
    cases of_decide_eq_true hl
    exact ⟨_, hl, .sendTransaction (j := 0) rfl⟩

/-! ## The simulation -/

/-- What the two runs have come to: the second has the calls that are kept, each where it stands in the
first, and the states agree. -/
structure World.Sim (W : WalletName → Prop) (path : PathBuf) (tariCommon : TariCommon) (ρ : Renaming)
    (s t : World) : Prop where
  reach : system.Reach (allowed W path) s
  reachCut : system.Reach (fun _ _ => True) t
  agree : s.shared.Agree W (s.Keeps W) ρ t.shared
  one : s.shared.OnOne path tariCommon
  oneCut : t.shared.OnOne path tariCommon
  like : ∀ c l, s.calls c = some l → l.On W → ∃ m, t.calls c = some m ∧ l.Like ρ path m
  only : ∀ c, ¬ s.Keeps W c → t.calls c = none
  /-- A paired handle id was fetched by a call that is kept. -/
  made : ∀ i j, ρ.handle i j → ∃ c l, s.calls c = some l ∧ l.On W ∧ l.fetchedId = some i

namespace World.Sim

/-- A handle of a wallet in `W` is known to both runs. -/
theorem paired (h : World.Sim W path tariCommon ρ s t) {handle : ScanHandle} (hissued : s.Issued handle)
    (hw : W handle.walletName) : ∃ j, ρ.handle handle.id j := by
  obtain ⟨d, call, hd, rfl⟩ := hissued
  obtain ⟨m, -, hlike⟩ := h.like d _ hd fun w hwallet => Option.some.inj hwallet ▸ hw
  cases hlike with
  | createScanHandle hid => exact ⟨_, hid _ rfl⟩

/-- A handle of another wallet is known to the first run alone. -/
theorem unpaired (h : World.Sim W path tariCommon ρ s t) (hc : s.calls c = some l) (hcut : ¬ l.On W)
    {i : Nat} (hi : l.fetchedId = some i) (j : Nat) : ¬ ρ.handle i j := by
  intro hij
  obtain ⟨d, call, hd, hon, hfetched⟩ := h.made i j hij
  obtain rfl := (fetched_unique h.reach).2 c d l call i hc hd hi hfetched
  obtain rfl := Option.some.inj (hc.symm.trans hd)
  exact hcut hon

/-- A path recorded in the first run for the wallets in `W` is the path of both. -/
theorem recorded (h : World.Sim W path tariCommon ρ s t) (hrecorded : s.Recorded W) :
    s.shared.db.path = some path ∧ t.shared.db.path = some path := by
  obtain ⟨d, call, hd, hon, hrecorded⟩ := hrecorded
  obtain ⟨m, hm, hlike⟩ := h.like d call hd hon
  have hrecorded' : m.recorded = true := hlike.recorded.trans hrecorded
  obtain ⟨p, hp⟩ := Option.ne_none_iff_exists'.mp (recorded_path h.reach hd hrecorded)
  obtain ⟨p', hp'⟩ := Option.ne_none_iff_exists'.mp (recorded_path h.reachCut hm hrecorded')
  rw [hp, hp', h.one.db.recorded p hp, h.oneCut.db.recorded p' hp']
  exact ⟨rfl, rfl⟩

/-- What a kept call that takes a step is known to find. -/
theorem ready (h : World.Sim W path tariCommon ρ s t) (hc : s.calls c = some l) (hon : l.On W) :
    l.Ready W (s.Keeps W) path c s.shared t.shared where
  fits := (allowed_of_reach h.reach c l hc).fits
  paths hneeds := h.recorded ((allowed_of_reach h.reach c l hc).recorded hon hneeds)
  self := ⟨l, hc, hon⟩
  follows d hd := by
    obtain ⟨x, hx, hwallet⟩ := awaited_wallet h.reach c l d hc hd
    refine ⟨_, hx, fun w hw => ?_⟩
    obtain rfl := Option.some.inj hw
    exact hon _ hwallet
  own x hx hbefore hover := by
    subst hx
    exact scan_handle h.reach hc hbefore hover
  unseen := ⟨unseen_next h.reach, unseen_next h.reachCut⟩

/-- A call that is left out keeps to its own wallet. -/
theorem aside (h : World.Sim W path tariCommon ρ s t) (hc : s.calls c = some l) (hcut : ¬ l.On W) :
    ∃ v, l.Aside W (s.Keeps W) ρ c v s.shared := by
  obtain ⟨v, hv⟩ := not_forall.mp hcut
  obtain ⟨hwallet, hout⟩ := Classical.not_imp.mp hv
  have hallowed := allowed_of_reach h.reach c l hc
  -- The handle it was given was fetched for its own wallet.
  have hgiven {handle : ScanHandle} (hg : l.given = some handle) (hname : handle.walletName = v) :
      ∀ j, ¬ ρ.handle handle.id j := by
    obtain ⟨d, call, hd, rfl⟩ := hallowed.issued handle hg
    refine h.unpaired hd (fun hon => hout ?_) rfl
    exact hname ▸ hon _ rfl
  refine ⟨v, hwallet, hout, fun hkeeps => hcut ((World.keeps_iff hc).mp hkeeps), ?_, ?_, ?_⟩
  · -- The scan in its slot is one on its wallet, so it is left out as well.
    intro k hk hkeeps
    obtain ⟨x, hx, -, hname, -⟩ := running_scan h.reach hk
    rw [World.keeps_iff hx] at hkeeps
    exact hout (hname ▸ hkeeps _ rfl)
  · intro i j hi
    cases l with
    | scan x =>
      obtain ⟨hown, hid⟩ := Option.ite_none_right_eq_some.mp hi
      obtain rfl := Option.some.inj hid
      exact hgiven rfl (hown.trans (Option.some.inj hwallet)) j
    | stopScan x =>
      obtain rfl := Option.some.inj hi
      exact hgiven rfl (Option.some.inj hwallet) j
    | _ => exact h.unpaired hc hcut hi j
  · rintro x rfl hbefore hover
    exact scan_handle h.reach hc hbefore hover

theorem start (h : World.Sim W path tariCommon ρ s t) (hok : l.Allowed W path s)
    (hfree : s.calls c = none) (hl : l.starts = true) (hon : l.On W) :
    ∃ l', t.calls c = none ∧ l'.starts = true ∧ l.Like ρ path l' ∧
      World.Sim W path tariCommon ρ (s.put c l s.shared) (t.put c l' t.shared) := by
  -- The call has the id it had: the second run has made none but the calls that are kept.
  have hfree' : t.calls c = none := by
    refine h.only c ?_
    rintro ⟨call, hcall, -⟩
    rw [hfree] at hcall
    cases hcall
  have hpair : ∀ handle, l.given = some handle → l.wallet = some handle.walletName →
      ∃ j, ρ.handle handle.id j :=
    fun handle hgiven hwallet => h.paired (hok.issued handle hgiven) (hon _ hwallet)
  obtain ⟨l', hl', hlike⟩ : ∃ l' : Call, l'.starts = true ∧ l.Like ρ path l' :=
    Call.Like.start hl hpair
  refine ⟨l', hfree', hl', hlike, ?_⟩
  constructor
  · exact .move (e := .start c l) h.reach hok (.start hfree hl)
  · exact .move h.reachCut trivial (.start hfree' hl')
  · refine h.agree.remine (fun d hd => (World.keeps_start hon d).mpr (Or.inr hd)) fun d hd => ?_
    rcases (World.keeps_start hon d).mp hd with rfl | hold
    · -- The new call is kept too, and nobody has touched its tokens.
      exact Or.inr ⟨tokens_fresh h.reach _ hfree, tokens_fresh h.reachCut _ hfree'⟩
    · exact Or.inl hold
  · exact h.one
  · exact h.oneCut
  · intro d call hd hcall
    rcases Config.put_calls_eq_some hd with ⟨rfl, rfl⟩ | ⟨hne, hd⟩
    · exact ⟨l', Config.put_calls_self _ _ _ _, hlike⟩
    · rw [Config.put_calls_ne _ _ _ hne]
      exact h.like d call hd hcall
  · intro d hd
    have hne : d ≠ c := fun heq => hd ((World.keeps_start hon d).mpr (Or.inl heq))
    rw [Config.put_calls_ne _ _ _ hne]
    exact h.only d fun hold => hd ((World.keeps_start hon d).mpr (Or.inr hold))
  · intro i j hij
    obtain ⟨d, call, hd, hcall⟩ := h.made i j hij
    exact ⟨d, call, Config.put_calls_of_free hfree hd, hcall⟩

/-- A kept call takes its step in both runs. -/
theorem step (h : World.Sim W path tariCommon ρ s t) (hby : tariCommon.ByChoice) (hc : s.calls c = some l)
    (hon : l.On W) (hnext : l.next c ch s.shared = some (l', σ')) :
    ∃ ρ' m ch' m' τ', ρ ≤ ρ' ∧ t.calls c = some m ∧ m.next c ch' t.shared = some (m', τ') ∧ ch.Same ch' ∧
      World.Sim W path tariCommon ρ' (s.put c l' σ') (t.put c m' τ') := by
  obtain ⟨m, hm, hlike⟩ := h.like c l hc hon
  have hready := h.ready hc hon
  obtain ⟨ρ', ch', m', τ', hgrows, hch, hnext', hlike', hag⟩ :=
    hlike.next hon h.agree h.one h.oneCut hby hready hnext
  have hkeeps : World.Keeps W (s.put c l' σ') = s.Keeps W := World.keeps_step hc (Call.on_next hnext)
  refine ⟨ρ', m, ch', m', τ', hgrows.le, hm, hnext', hch, ?_⟩
  constructor
  · exact .move (e := .step c) h.reach trivial (.step hc ⟨ch, hnext⟩)
  · exact .move h.reachCut trivial (.step hm ⟨ch', hnext'⟩)
  · rw [hkeeps]
    exact hag
  · exact Call.onOne_next hnext hready.fits h.one
  · exact Call.onOne_next hnext' (hlike.fits.mpr hready.fits) h.oneCut
  · intro d call hd hcall
    rcases Config.put_calls_eq_some hd with ⟨rfl, rfl⟩ | ⟨hne, hd⟩
    · exact ⟨m', Config.put_calls_self _ _ _ _, hlike'⟩
    · obtain ⟨x, hx, hxlike⟩ := h.like d call hd hcall
      exact ⟨x, by rw [Config.put_calls_ne _ _ _ hne]; exact hx, hxlike.mono hgrows.le⟩
  · intro d hd
    rw [hkeeps] at hd
    have hne : d ≠ c := by
      rintro rfl
      exact hd ⟨l, hc, hon⟩
    rw [Config.put_calls_ne _ _ _ hne]
    exact h.only d hd
  · intro i j hij
    -- A pair that is new is of the id this call has fetched; the others' calls still have theirs.
    rcases hgrows.handle i j hij with hold | hmade
    · refine Config.exists_put (fun call hcall hcall' => ?_) (h.made i j hold)
      obtain rfl := Option.some.inj (hc.symm.trans hcall)
      refine ⟨(Call.on_next hnext).mpr hcall'.1, ?_⟩
      rcases Call.next_fetchedId hnext with ⟨hkept, -⟩ | ⟨hnone, -, -⟩
      · exact hkept.trans hcall'.2
      · rw [hnone] at hcall'
        cases hcall'.2
    · exact ⟨c, l', Config.put_calls_self _ _ _ _, (Call.on_next hnext).mpr hon, hmade⟩

end World.Sim

/-! ## A run without the other wallets -/

/-- The bridge, moved by what the outside world answers. -/
def stepper : Stepper system Choice where
  next c call ch σ := call.next c ch σ
  step_iff := Call.step_iff

/-- What is the same for the wallets in `W`: what their calls do and return, their open counts, key
sessions, gates and maintenance locks, their running scans and what streams from them.  And the pool is
open for each that is counted. -/
structure World.SameFor (W : WalletName → Prop) (path : PathBuf) (ρ : Renaming) (s t : World) : Prop where
  calls : ∀ c call, s.calls c = some call → call.On W →
    ∃ m, t.calls c = some m ∧ call.Like ρ path m ∧ m.returned = call.returned
  only : ∀ c, ¬ s.Keeps W c → t.calls c = none
  sessions : ∀ w, W w → Option.Rel (Session.Like ρ.generation) (s.shared.db.sessions.lookup w)
    (t.shared.db.sessions.lookup w)
  keys : ∀ w, W w → (t.shared.keys w).map (·.file) = (s.shared.keys w).map (·.file)
  gates : ∀ w, W w → t.shared.gates w = s.shared.gates w
  maintenance : ∀ w, W w → t.shared.maintenance w = s.shared.maintenance w
  running : ∀ w, W w → Option.Rel (ScanController.Like (s.Keeps W) ρ.handle)
    (s.shared.scans.running.lookup w) (t.shared.scans.running.lookup w)
  tokens : ∀ c, s.Keeps W c → t.shared.tokens c = s.shared.tokens c
  streams : ∀ c x, s.calls c = some (.scan x) → W x.walletName →
    ∃ y, t.calls c = some (.scan y) ∧ y.forwarder = x.forwarder
  pool : ∀ w, W w → (s.shared.db.sessions.lookup w).isSome = true →
    s.shared.db.openDatabase = some ⟨path⟩ ∧ t.shared.db.openDatabase = some ⟨path⟩

theorem rel_imp {α β : Type} {r r' : α → β → Prop} {a : Option α} {b : Option β} (h : Option.Rel r a b)
    (himp : ∀ x y, r x y → r' x y) : Option.Rel r' a b := by
  cases h with
  | none => exact .none
  | some hxy => exact .some (himp _ _ hxy)

theorem World.SameFor.mono (h : World.SameFor W path ρ s t) (hle : ρ ≤ ρ') :
    World.SameFor W path ρ' s t where
  calls c call hc hon := by
    obtain ⟨m, hm, hlike, hreturned⟩ := h.calls c call hc hon
    exact ⟨m, hm, hlike.mono hle, hreturned⟩
  only := h.only
  sessions w hw := rel_imp (h.sessions w hw) fun _ _ hlike => ⟨hlike.count, hle.1 _ _ hlike.generation⟩
  keys := h.keys
  gates := h.gates
  maintenance := h.maintenance
  running w hw := rel_imp (h.running w hw) fun _ _ hlike => ⟨hle.2.1 _ _ hlike.id, hlike.rest, hlike.scan⟩
  tokens := h.tokens
  streams := h.streams
  pool := h.pool

/-- A fresh process over `files`. -/
def World.start (files : PathBuf → WalletDatabase) (tariCommon : TariCommon) : World :=
  ⟨.initial files tariCommon, fun _ => none⟩

theorem Shared.OnOne.initial (files : PathBuf → WalletDatabase) (path : PathBuf) (tariCommon : TariCommon) :
    (Shared.initial files tariCommon).OnOne path tariCommon :=
  ⟨⟨nofun, nofun, iff_of_true rfl rfl⟩, rfl⟩

theorem World.Sim.initial {files : PathBuf → WalletDatabase} (hfiles : ∀ file, (files file).IdsUsed) :
    ∃ ρ, World.Sim W path tariCommon ρ (.start files tariCommon) (.start files tariCommon) := by
  obtain ⟨ρ, hnone, hag⟩ : ∃ ρ : Renaming, (∀ i j, ¬ ρ.handle i j) ∧
      (Shared.initial files tariCommon).Agree W (fun _ => False) ρ (Shared.initial files tariCommon) :=
    Shared.Agree.initial hfiles
  have hnew (c : CallId) : ¬ (World.start files tariCommon).Keeps W c := by
    rintro ⟨call, hcall, -⟩
    exact Option.some_ne_none _ hcall.symm
  refine ⟨ρ, ?_⟩
  constructor
  · exact .init ⟨files, tariCommon, rfl⟩
  · exact .init ⟨files, tariCommon, rfl⟩
  · exact hag.remine (fun _ h => h.elim) fun c hc => absurd hc (hnew c)
  · exact .initial files path tariCommon
  · exact .initial files path tariCommon
  · intro c call hcall
    exact absurd hcall.symm (Option.some_ne_none _)
  · intro c _
    rfl
  · exact fun i j hij => absurd hij (hnone i j)

/-- A fresh process over a file with "main" in it. -/
def World.sample : World := World.start (fun _ => sampleFile) .mainNetworks

/-- The database file a call names. -/
def Call.file : Call → Option PathBuf
  | .setDatabasePath p => some p.path
  | .unlockWallet u => some u.path
  | _ => none

/-- Where call `c` stands after these entries, the latest first. -/
def standing (acts : List (Act Call Choice)) (c : CallId) : Option Call :=
  (stepper.replay World.sample acts).bind fun s => s.calls c

/-- Whether every call starts where calls do, on the one file, and those on "main" are `ids`. -/
def checked (ids : List CallId) (acts : List (Act Call Choice)) : Bool :=
  acts.all fun
    | .start c l => l.starts && (l.file.all fun p => decide (p = firstPath)) &&
        (decide (c ∈ ids) == l.wallet.all fun w => decide (w = "main"))
    | .step _ _ => true

variable {acts acts' : List (Act Call Choice)} {ids : List CallId} {c : CallId} {call call' : Call}

end CwTariWallet
