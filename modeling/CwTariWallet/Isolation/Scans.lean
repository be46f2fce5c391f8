/-
# CwTariWallet.Isolation.Scans -- two `SCAN_STATE`s that agree on some wallets

As `Isolation.Sessions`, for the handles, the scans about to start, the slots and the tokens.  A handle of a
wallet in `W` has one id in each state; ids that are paired are issued, stopped early and starting in both
or in neither, and the slots of the wallets in `W` hold the same scans (`ScanState.Agree`).  The tokens are
those of `mine`, the scans the second run has too.
-/
import CwTariWallet.Api.Scanner
import CwTariWallet.Pairing

namespace CwTariWallet

open Interleaving (CallId)

namespace Table

variable {K V : Type} [DecidableEq K]

theorem lookup_retain (keep : K → V → Bool) (t : Table K V) (k : K) :
    (retain keep t).lookup k = (t.lookup k).filter (keep k) := by
  apply Option.ext
  intro v
  rw [lookup_retain_eq_some, Option.filter_eq_some_iff]

end Table

/-! ## Tokens -/

namespace TokenMap

variable {mine : CallId → Prop} {s t s' : TokenMap}

theorem replace_ne {c d : CallId} (h : d ≠ c) : s.replace c d = s d := by
  unfold replace supersede cancel
  split <;> simp [h]

/-- The scans that are `mine` have the same tokens. -/
def Agree (mine : CallId → Prop) (s t : TokenMap) : Prop := ∀ c, mine c → t c = s c

theorem Agree.cancel (h : s.Agree mine t) (c : CallId) : (s.cancel c).Agree mine (t.cancel c) := by
  intro d hd
  by_cases hdc : d = c
  · subst hdc
    simp [TokenMap.cancel, h d hd]
  · simp [TokenMap.cancel, hdc, h d hd]

theorem Agree.stop (h : s.Agree mine t) (c : CallId) : (s.stop c).Agree mine (t.stop c) := by
  intro d hd
  by_cases hdc : d = c
  · subst hdc
    simp [TokenMap.stop, h d hd]
  · simp [TokenMap.stop, hdc, h d hd]

theorem Agree.supersede (h : s.Agree mine t) (c : CallId) :
    (s.supersede c).Agree mine (t.supersede c) := by
  intro d hd
  by_cases hdc : d = c
  · subst hdc
    simp [TokenMap.supersede, h d hd]
  · simp [TokenMap.supersede, hdc, h d hd]

theorem Agree.replace (h : s.Agree mine t) {c : CallId} (hc : mine c) :
    (s.replace c).Agree mine (t.replace c) := by
  unfold TokenMap.replace
  rw [h c hc]
  split
  · exact h.cancel c
  · exact (h.supersede c).cancel c

/-- Tokens that are not `mine` are touched in the first. -/
theorem Agree.leftOnly (h : s.Agree mine t) (hsame : ∀ c, mine c → s' c = s c) : s'.Agree mine t := by
  intro c hc
  rw [hsame c hc]
  exact h c hc

end TokenMap

/-! ## Handles and slots -/

/-- The same scan of the second run, under an id that is paired. -/
structure ScanController.Like (mine : CallId → Prop) (ids : Nat → Nat → Prop) (k k' : ScanController) :
    Prop where
  id : ids k.id k'.id
  rest : k' = { k with id := k'.id }
  scan : mine k.scan

namespace ScanState

variable {W : WalletName → Prop} {mine : CallId → Prop} {ids : Nat → Nat → Prop} {n m i j : Nat}
variable {a a' b b' : ScanState} {s t : TokenMap} {w : WalletName}

structure Agree (W : WalletName → Prop) (mine : CallId → Prop) (ids : Nat → Nat → Prop)
    (a b : ScanState) : Prop where
  issued : ∀ {i j}, ids i j → (j ∈ b.issued ↔ i ∈ a.issued)
  stopped : ∀ {i j}, ids i j → (j ∈ b.stoppedBeforeStart ↔ i ∈ a.stoppedBeforeStart)
  starting : ∀ {i j}, ids i j → b.starting.lookup j = a.starting.lookup i
  owned : ∀ {i j v}, ids i j → a.starting.lookup i = some v → W v
  running : ∀ w, W w →
    Option.Rel (ScanController.Like mine ids) (a.running.lookup w) (b.running.lookup w)

/-- A slot is empty in both, or holds the same scan. -/
theorem Agree.slot (h : a.Agree W mine ids b) (hw : W w) :
    (a.running.lookup w = none ∧ b.running.lookup w = none) ∨
      ∃ k k', a.running.lookup w = some k ∧ b.running.lookup w = some k' ∧
        ScanController.Like mine ids k k' := by
  have hrel := h.running w hw
  cases ha : a.running.lookup w <;> cases hb : b.running.lookup w <;> rw [ha, hb] at hrel <;>
    cases hrel
  · exact Or.inl ⟨rfl, rfl⟩
  · exact Or.inr ⟨_, _, rfl, rfl, by assumption⟩

/-- Only handles that are not paired, and slots of wallets outside `W`, are touched in the first state. -/
theorem Agree.leftOnly (h : a.Agree W mine ids b)
    (hissued : ∀ i j, ids i j → (i ∈ a'.issued ↔ i ∈ a.issued))
    (hstopped : ∀ i j, ids i j → (i ∈ a'.stoppedBeforeStart ↔ i ∈ a.stoppedBeforeStart))
    (hstarting : ∀ i j, ids i j → a'.starting.lookup i = a.starting.lookup i)
    (hrunning : ∀ w, W w → a'.running.lookup w = a.running.lookup w) : a'.Agree W mine ids b where
  issued hij := (h.issued hij).trans (hissued _ _ hij).symm
  stopped hij := (h.stopped hij).trans (hstopped _ _ hij).symm
  starting hij := (h.starting hij).trans (hstarting _ _ hij).symm
  owned hij hv := h.owned hij ((hstarting _ _ hij).symm.trans hv)
  running w hw := by
    rw [hrunning w hw]
    exact h.running w hw

/-- More scans are `mine`, more handles are paired; the new pairs are of handles nobody has seen yet. -/
theorem Agree.pair (h : a.Agree W mine ids b) (hn : n ∉ a.issued ∧ n ∉ a.stoppedBeforeStart ∧
      a.starting.lookup n = none) (hm : m ∉ b.issued ∧ m ∉ b.stoppedBeforeStart ∧
      b.starting.lookup m = none) : a.Agree W mine (pairUp ids n m) b where
  issued := by
    rintro i j (hij | ⟨rfl, rfl⟩)
    · exact h.issued hij
    · exact iff_of_false hm.1 hn.1
  stopped := by
    rintro i j (hij | ⟨rfl, rfl⟩)
    · exact h.stopped hij
    · exact iff_of_false hm.2.1 hn.2.1
  starting := by
    rintro i j (hij | ⟨rfl, rfl⟩)
    · exact h.starting hij
    · rw [hm.2.2, hn.2.2]
  owned := by
    rintro i j v (hij | ⟨rfl, rfl⟩) hv
    · exact h.owned hij hv
    · rw [hn.2.2] at hv
      cases hv
  running w hw := by
    rcases h.slot hw with ⟨ha, hb⟩ | ⟨k, k', ha, hb, hlike⟩ <;> rw [ha, hb]
    · exact .none
    · exact .some ⟨pairUp_of hlike.id, hlike.rest, hlike.scan⟩

/-- Other scans may be `mine`, as long as those in the slots of `W` are. -/
theorem Agree.remine {mine' : CallId → Prop} (h : a.Agree W mine ids b)
    (hmine : ∀ w k, W w → a.running.lookup w = some k → mine k.scan → mine' k.scan) :
    a.Agree W mine' ids b where
  issued := h.issued
  stopped := h.stopped
  starting := h.starting
  owned := h.owned
  running w hw := by
    rcases h.slot hw with ⟨ha, hb⟩ | ⟨k, k', ha, hb, hlike⟩ <;> rw [ha, hb]
    · exact .none
    · exact .some ⟨hlike.id, hlike.rest, hmine w k hw ha hlike.scan⟩

variable (hids : Pairing ids n m)

include hids

/-- A handle put up in both. -/
theorem Agree.issue (h : a.Agree W mine ids b) (hij : ids i j) :
    (a.issue i).Agree W mine ids (b.issue j) where
  issued := by
    intro i' j' hij'
    have heq := hids.eq_iff hij' hij
    simp only [ScanState.issue, Finset.mem_insert, h.issued hij', heq]
  stopped := h.stopped
  starting := h.starting
  owned := h.owned
  running := h.running

/-- A starting scan forgotten in both. -/
theorem Agree.unstart (h : a.Agree W mine ids b) (hij : ids i j) :
    (a.unstart i).Agree W mine ids (b.unstart j) where
  issued := h.issued
  stopped := h.stopped
  starting := by
    intro i' j' hij'
    have heq := hids.eq_iff hij' hij
    simp only [ScanState.unstart, Table.lookup_erase_eq, heq, h.starting hij']
  owned := by
    intro i' j' v hij' hv
    simp only [ScanState.unstart, Table.lookup_erase_eq] at hv
    split at hv
    · cases hv
    · exact h.owned hij' hv
  running := h.running

theorem Agree.claim (h : a.Agree W mine ids b) (hij : ids i j) (hw : W w) {r : Claim}
    (hclaim : a.claim ⟨w, i⟩ = (r, a')) :
    ∃ b', b.claim ⟨w, j⟩ = (r, b') ∧ a'.Agree W mine ids b' := by
  unfold ScanState.claim at hclaim ⊢
  dsimp only at hclaim ⊢
  simp only [h.stopped hij, h.issued hij]
  split at hclaim
  · rename_i hstopped
    obtain ⟨rfl, rfl⟩ := Prod.mk.inj hclaim
    refine ⟨_, if_pos hstopped, h.issued, ?_, h.starting, h.owned, h.running⟩
    intro i' j' hij'
    have heq := hids.eq_iff hij' hij
    simp only [Finset.mem_erase, ne_eq, h.stopped hij', heq]
  rename_i hstopped
  rw [if_neg hstopped]
  split at hclaim
  · rename_i hissued
    obtain ⟨rfl, rfl⟩ := Prod.mk.inj hclaim
    refine ⟨_, if_pos hissued, ?_, h.stopped, ?_, ?_, h.running⟩
    · intro i' j' hij'
      have heq := hids.eq_iff hij' hij
      simp only [Finset.mem_erase, ne_eq, h.issued hij', heq]
    · intro i' j' hij'
      have heq := hids.eq_iff hij' hij
      simp only [Table.lookup_insert_eq, heq, h.starting hij']
    · intro i' j' v hij' hv
      simp only [Table.lookup_insert_eq] at hv
      split at hv
      · obtain rfl := Option.some.inj hv
        exact hw
      · exact h.owned hij' hv
  · rename_i hissued
    obtain ⟨rfl, rfl⟩ := Prod.mk.inj hclaim
    exact ⟨_, if_neg hissued, h⟩

theorem Agree.stopScan (h : a.Agree W mine ids b) (htokens : s.Agree mine t) (hij : ids i j) (hw : W w)
    {waitFor : Option CallId} {s' : TokenMap} (hstop : a.stopScan s ⟨w, i⟩ = (waitFor, a', s')) :
    ∃ b' t', b.stopScan t ⟨w, j⟩ = (waitFor, b', t') ∧ a'.Agree W mine ids b' ∧ s'.Agree mine t' := by
  unfold ScanState.stopScan at hstop ⊢
  dsimp only at hstop ⊢
  simp only [h.issued hij, h.starting hij]
  split at hstop
  · rename_i hissued
    obtain ⟨rfl, rfl, rfl⟩ := by simpa [eq_comm] using hstop
    refine ⟨_, _, if_pos hissued, ⟨?_, ?_, h.starting, h.owned, h.running⟩, htokens⟩
    · intro i' j' hij'
      have heq := hids.eq_iff hij' hij
      simp only [Finset.mem_erase, ne_eq, h.issued hij', heq]
    · intro i' j' hij'
      have heq := hids.eq_iff hij' hij
      simp only [Finset.mem_insert, h.stopped hij', heq]
  rename_i hissued
  rw [if_neg hissued]
  split at hstop
  · rename_i hstarting
    obtain ⟨rfl, rfl, rfl⟩ := by simpa [eq_comm] using hstop
    exact ⟨_, _, if_pos hstarting, h.unstart hids hij, htokens⟩
  rename_i hstarting
  rw [if_neg hstarting]
  rcases h.slot hw with ⟨ha, hb⟩ | ⟨k, k', ha, hb, hlike⟩
  · simp only [ha] at hstop
    obtain ⟨rfl, rfl, rfl⟩ := by simpa [eq_comm] using hstop
    simp only [hb]
    exact ⟨_, _, rfl, h, htokens⟩
  · -- What is asked is whether the scan in the slot runs under this very handle.
    have hscan : k'.scan = k.scan := by rw [hlike.rest]
    have heq : k.id = i ↔ k'.id = j := hids.eq_iff hlike.id hij
    simp only [ha] at hstop
    simp only [hb]
    by_cases hid : k.id = i
    · rw [if_pos hid] at hstop
      obtain ⟨rfl, rfl, rfl⟩ := by simpa [eq_comm] using hstop
      rw [if_pos (heq.mp hid), hscan]
      exact ⟨_, _, rfl, h, htokens.cancel _⟩
    · rw [if_neg hid] at hstop
      obtain ⟨rfl, rfl, rfl⟩ := by simpa [eq_comm] using hstop
      rw [if_neg fun hid' => hid (heq.mpr hid')]
      exact ⟨_, _, rfl, h, htokens⟩

theorem Agree.clearScanIfCurrent (h : a.Agree W mine ids b) (hij : ids i j) (hw : W w) :
    (a.clearScanIfCurrent w i).Agree W mine ids (b.clearScanIfCurrent w j) := by
  unfold ScanState.clearScanIfCurrent
  rcases h.slot hw with ⟨ha, hb⟩ | ⟨k, k', ha, hb, hlike⟩
  · simpa [ha, hb] using h
  · have heq : k.id = i ↔ k'.id = j := hids.eq_iff hlike.id hij
    by_cases hid : k.id = i
    · have hid' := heq.mp hid
      simp only [ha, hb, Option.any_some, hid, hid', decide_true, if_true]
      refine ⟨h.issued, h.stopped, h.starting, h.owned, fun v hv => ?_⟩
      rw [Table.lookup_erase_eq, Table.lookup_erase_eq]
      split
      · exact .none
      · exact h.running v hv
    · have hid' : ¬ k'.id = j := fun hid' => hid (heq.mpr hid')
      simpa [ha, hb, hid, hid'] using h

omit hids

/-- Cancelling a wallet's scans finds the same one running in both. -/
theorem Agree.cancelWalletScans (h : a.Agree W mine ids b) (htokens : s.Agree mine t) (hw : W w)
    {waitFor : Option CallId} {s' : TokenMap} (hcancel : a.cancelWalletScans s w = (waitFor, a', s')) :
    ∃ b' t', b.cancelWalletScans t w = (waitFor, b', t') ∧ a'.Agree W mine ids b' ∧
      s'.Agree mine t' := by
  rw [cancelWalletScans_eq] at hcancel
  obtain ⟨rfl, hstate⟩ := Prod.mk.inj hcancel
  obtain ⟨rfl, rfl⟩ := Prod.mk.inj hstate
  rw [cancelWalletScans_eq]
  -- Those about to start are forgotten by wallet, so no id has to be compared.
  have hretain : ({ a with starting := Table.retain (fun _ v => decide (v ≠ w)) a.starting } :
      ScanState).Agree W mine ids
      { b with starting := Table.retain (fun _ v => decide (v ≠ w)) b.starting } := by
    refine ⟨h.issued, h.stopped, ?_, ?_, h.running⟩
    · intro i' j' hij'
      rw [Table.lookup_retain, Table.lookup_retain, h.starting hij']
    · intro i' j' v hij' hv
      exact h.owned hij' (Table.lookup_retain_eq_some.mp hv).1
  rcases h.slot hw with ⟨ha, hb⟩ | ⟨k, k', ha, hb, hlike⟩
  · refine ⟨_, t, ?_, hretain, ?_⟩
    · simp only [ha, hb, Option.map_none, Option.elim_none]
    · rw [ha]
      exact htokens
  · have hscan : k'.scan = k.scan := by rw [hlike.rest]
    refine ⟨_, t.cancel k.scan, ?_, hretain, ?_⟩
    · simp only [ha, hb, Option.map_some, Option.elim_some, hscan]
    · rw [ha]
      exact htokens.cancel _

/-- The slot is taken in both, or refused in both. -/
theorem Agree.takeSlot (h : a.Agree W mine ids b) (htokens : s.Agree mine t) (hw : W w)
    {c c' : ScanController} (hc : ScanController.Like mine ids c c') :
    (∃ e, a.takeSlot s w c = .error e ∧ b.takeSlot t w c' = .error e) ∨
      ∃ previous previous' a' b' s' t', a.takeSlot s w c = .ok (previous, a', s') ∧
        b.takeSlot t w c' = .ok (previous', b', t') ∧
        previous'.map (·.scan) = previous.map (·.scan) ∧ a'.Agree W mine ids b' ∧ s'.Agree mine t' := by
  have hpriority : c'.priority = c.priority := by rw [hc.rest]
  have htaken : ({ a with running := a.running.insert w c } : ScanState).Agree W mine ids
      { b with running := b.running.insert w c' } := by
    refine ⟨h.issued, h.stopped, h.starting, h.owned, fun v hv => ?_⟩
    rw [Table.lookup_insert_eq, Table.lookup_insert_eq]
    split
    · exact .some hc
    · exact h.running v hv
  rcases h.slot hw with ⟨ha, hb⟩ | ⟨k, k', ha, hb, hlike⟩
  · right
    refine ⟨none, none, _, _, s, t, ?_, ?_, rfl, htaken, htokens⟩
    · simp [ScanState.takeSlot, ha]
    · simp [ScanState.takeSlot, hb]
  · have hscan : k'.scan = k.scan := by rw [hlike.rest]
    have hkpriority : k'.priority = k.priority := by rw [hlike.rest]
    -- The refusal reads the token of the scan in the slot, which both runs have.
    have hread := htokens k.scan hlike.scan
    by_cases hrefused : (decide (k.priority = .foreground) && decide (c.priority = .background) &&
        !(s k.scan).cancelled && !(s k.scan).stopped) = true
    · left
      refine ⟨.foregroundScanActive, ?_, ?_⟩
      · simp only [ScanState.takeSlot, ha, Option.any_some, hrefused, if_true]
      · simp only [ScanState.takeSlot, hb, Option.any_some, hkpriority, hpriority, hscan, hread,
          hrefused, if_true]
    · right
      refine ⟨some k, some k', _, _, s.replace k.scan, t.replace k.scan, ?_, ?_, ?_, htaken,
        htokens.replace hlike.scan⟩
      · simp only [ScanState.takeSlot, ha, Option.any_some, hrefused]
        rfl
      · simp only [ScanState.takeSlot, hb, Option.any_some, hkpriority, hpriority, hscan, hread,
          hrefused]
        rfl
      · simp [hscan]

end ScanState

end CwTariWallet
