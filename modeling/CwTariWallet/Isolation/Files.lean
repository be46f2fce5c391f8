/-
# CwTariWallet.Isolation.Files -- two contents of a file that agree on some wallets

Two runs write to one file, and the second leaves out what the first does for wallets outside `W`.  For the
wallets in `W` both files then have the same accounts, up to the ids, and a row that is free in the first is
free in the second (`WalletDatabase.Agree`).  The ids drift apart as soon as the first run creates a wallet
the second does not, so they are paired.

Each write is made to both (`WalletDatabase.Agree.rename` and the like), or to the first alone by a call the
second run leaves out (`WalletDatabase.Agree.leftOnly`).
-/
import CwTariWallet.Bridge.NamedAccounts
import CwTariWallet.Pairing

namespace CwTariWallet

namespace WalletDatabase

variable {db : WalletDatabase} {u v new : WalletName}

/-! ## Accounts by name -/

theorem getAccountByName_name {row : AccountRow} (h : db.getAccountByName u = some row) :
    row.friendlyName = u := by
  simpa using List.find?_some h

theorem getAccountByName_deleteWallet (db : WalletDatabase) (v u : WalletName) :
    (db.deleteWallet v).getAccountByName u = if u = v then none else db.getAccountByName u := by
  unfold getAccountByName deleteWallet
  by_cases hu : u = v
  · subst hu
    rw [if_pos rfl, List.find?_eq_none]
    intro row hrow
    simpa using (List.mem_filter.mp hrow).2
  · -- What is left out has another name, so the first row of this one is still the first.
    rw [if_neg hu, List.find?_filter]
    congr 1
    funext row
    by_cases hrow : row.friendlyName = u
    · simp [hrow, hu]
    · simp [hrow]

/-- The first row of a name, after every row was changed. -/
theorem find_map_rows (f : AccountRow → AccountRow) (accounts : List AccountRow) (u w : WalletName)
    (hname : ∀ row ∈ accounts, (f row).friendlyName = u ↔ row.friendlyName = w) :
    ((accounts.map f).find? fun a => decide (a.friendlyName = u)) =
      (accounts.find? fun a => decide (a.friendlyName = w)).map f := by
  induction accounts with
  | nil => rfl
  | cons row rest ih =>
    have hrest := ih fun row' h => hname row' (List.mem_cons_of_mem _ h)
    have hrow := hname row List.mem_cons_self
    rw [List.map_cons]
    by_cases h : row.friendlyName = w
    · have h' : (f row).friendlyName = u := hrow.mpr h
      rw [List.find?_cons_of_pos (by simpa using h'), List.find?_cons_of_pos (by simpa using h)]
      rfl
    · have h' : ¬ (f row).friendlyName = u := fun h' => h (hrow.mp h')
      rw [List.find?_cons_of_neg (by simpa using h'), List.find?_cons_of_neg (by simpa using h)]
      exact hrest

theorem getAccountByName_rewrite (db : WalletDatabase) (v u : WalletName) (p : Passphrase) :
    (db.rewrite v p).getAccountByName u =
      (db.getAccountByName u).map fun a => if a.friendlyName = v then { a with passphrase := p } else a := by
  refine find_map_rows _ _ u u fun row _ => ?_
  split <;> exact Iff.rfl

/-- Nobody has a name that is free. -/
theorem name_ne_of_free (h : db.getAccountByName u = none) {row : AccountRow} (hrow : row ∈ db.accounts) :
    row.friendlyName ≠ u := by
  have hnot := List.find?_eq_none.mp h row hrow
  simpa using hnot

/-- A rename to a free name takes the account along. -/
theorem getAccountByName_renameWallet (hne : v ≠ new) (hfree : db.getAccountByName new = none)
    (u : WalletName) :
    (db.renameWallet v new).getAccountByName u =
      if u = new then (db.getAccountByName v).map fun a => { a with friendlyName := new }
      else if u = v then none else db.getAccountByName u := by
  let f : AccountRow → AccountRow := fun a => if a.friendlyName = v then { a with friendlyName := new } else a
  show ((db.accounts.map f).find? fun a => decide (a.friendlyName = u)) = _
  by_cases hnew : u = new
  · subst hnew
    rw [if_pos rfl, find_map_rows f db.accounts u v]
    · show (db.getAccountByName v).map f = _
      cases hrow : db.getAccountByName v with
      | none => rfl
      | some row =>
        have hname : row.friendlyName = v := getAccountByName_name hrow
        simp [f, hname]
    · intro row hrow
      -- Before the rename nobody had the new name, so after it only the renamed account has.
      have hother := name_ne_of_free hfree hrow
      by_cases hv : row.friendlyName = v
      · simp [f, hv]
      · simp [f, hv, hother]
  rw [if_neg hnew]
  by_cases hv : u = v
  · subst hv
    rw [if_pos rfl, List.find?_eq_none]
    intro row' hrow'
    obtain ⟨row, -, rfl⟩ := List.mem_map.mp hrow'
    by_cases hrow : row.friendlyName = u
    · simpa [f, hrow] using Ne.symm hne
    · simp [f, hrow]
  · rw [if_neg hv, find_map_rows f db.accounts u u]
    · show (db.getAccountByName u).map f = db.getAccountByName u
      cases hrow : db.getAccountByName u with
      | none => rfl
      | some row =>
        have hname : row.friendlyName = u := getAccountByName_name hrow
        simp [f, hname, hv]
    · intro row _
      by_cases hrow : row.friendlyName = v
      · simp [f, hrow, Ne.symm hnew, Ne.symm hv]
      · simp [f, hrow]

theorem getAccountByName_addAccount (db : WalletDatabase) (v : WalletName) (p : Passphrase)
    (viewOnly : Bool) (u : WalletName) :
    (db.addAccount v p viewOnly).getAccountByName u =
      if u = v then some ⟨db.nextAccountId, v, p, viewOnly⟩ else db.getAccountByName u := by
  unfold getAccountByName addAccount
  by_cases hu : u = v
  · rw [if_pos hu, List.find?_cons_of_pos (by simpa using hu.symm)]
  · rw [if_neg hu, List.find?_cons_of_neg (by simpa using Ne.symm hu)]

/-! ## Free rows -/

/-- Expiring a row makes none and frees none. -/
theorem expireAndUnlock_free (db : WalletDatabase) (id row : RowId) :
    (db.expireAndUnlock id).2.pending row = none ↔ db.pending row = none := by
  unfold expireAndUnlock
  split
  · rename_i hpending
    by_cases hid : row = id
    · subst hid
      simp [hpending]
    · simp [Function.update_of_ne hid]
  · exact Iff.rfl

theorem releaseExpired_free {expired : List RowId} :
    ∀ (db : WalletDatabase) (row : RowId),
      (db.releaseExpired expired).pending row = none ↔ db.pending row = none := by
  induction expired with
  | nil => exact fun _ _ => Iff.rfl
  | cons id rest ih =>
    intro db row
    exact (ih (db.expireAndUnlock id).2 row).trans (db.expireAndUnlock_free id row)

end WalletDatabase

/-! ## Agreement -/

/-- The same account, but for its id. -/
structure AccountRow.Like (ids : AccountId → AccountId → Prop) (a b : AccountRow) : Prop where
  id : ids a.id b.id
  rest : b = { a with id := b.id }

namespace WalletDatabase

variable {W : WalletName → Prop} {ids : AccountId → AccountId → Prop} {a a' b b' : WalletDatabase}
variable {w : WalletName}

structure Agree (W : WalletName → Prop) (ids : AccountId → AccountId → Prop) (a b : WalletDatabase) :
    Prop where
  accounts : ∀ w, W w → Option.Rel (AccountRow.Like ids) (a.getAccountByName w) (b.getAccountByName w)
  free : ∀ row, a.pending row = none → b.pending row = none
  ids : Pairing ids a.nextAccountId b.nextAccountId

theorem Agree.isNone_eq (h : a.Agree W ids b) (hw : W w) :
    (b.getAccountByName w).isNone = (a.getAccountByName w).isNone := by
  have hrel := h.accounts w hw
  cases ha : a.getAccountByName w <;> cases hb : b.getAccountByName w <;> rw [ha, hb] at hrel <;>
    first | rfl | cases hrel

/-- One file, twice: every account has the id it has. -/
theorem Agree.refl (hused : a.IdsUsed) : a.Agree W (fun i j => i = j ∧ i < a.nextAccountId) a where
  accounts w _ := by
    cases hrow : a.getAccountByName w with
    | none => exact .none
    | some row => exact .some ⟨⟨rfl, hused row (List.mem_of_find?_eq_some hrow)⟩, rfl⟩
  free _ h := h
  ids := .refl _

/-- Only accounts outside `W`, and rows, are touched in the first file. -/
theorem Agree.leftOnly (h : a.Agree W ids b)
    (haccounts : ∀ w, W w → a'.getAccountByName w = a.getAccountByName w)
    (hfree : ∀ row, a'.pending row = none → a.pending row = none)
    (hnext : a.nextAccountId ≤ a'.nextAccountId) : a'.Agree W ids b where
  accounts w hw := by
    rw [haccounts w hw]
    exact h.accounts w hw
  free row hrow := h.free row (hfree row hrow)
  ids := h.ids.mono hnext (Nat.le_refl _)

/-- Rows alone are touched in the second file, and none freed that the first still has. -/
theorem Agree.rightRows (h : a.Agree W ids b) (haccounts : b'.accounts = b.accounts)
    (hnext : b'.nextAccountId = b.nextAccountId)
    (hfree : ∀ row, b.pending row = none → b'.pending row = none) : a.Agree W ids b' where
  accounts w hw := by
    unfold getAccountByName
    rw [haccounts]
    exact h.accounts w hw
  free row hrow := hfree row (h.free row hrow)
  ids := by
    rw [hnext]
    exact h.ids

/-- Rows alone are touched in the first file. -/
theorem Agree.leftRows (h : a.Agree W ids b) (haccounts : a'.accounts = a.accounts)
    (hnext : a'.nextAccountId = a.nextAccountId)
    (hfree : ∀ row, a'.pending row = none → a.pending row = none) : a'.Agree W ids b := by
  refine h.leftOnly (fun w _ => ?_) hfree (Nat.le_of_eq hnext.symm)
  unfold getAccountByName
  rw [haccounts]

theorem Agree.releaseLeft (h : a.Agree W ids b) (expired : List RowId) :
    (a.releaseExpired expired).Agree W ids b :=
  h.leftRows (releaseExpired_accounts a).1 (releaseExpired_accounts a).2 fun row =>
    (releaseExpired_free a row).mp

theorem Agree.releaseRight (h : a.Agree W ids b) (expired : List RowId) :
    a.Agree W ids (b.releaseExpired expired) :=
  h.rightRows (releaseExpired_accounts b).1 (releaseExpired_accounts b).2 fun row =>
    (releaseExpired_free b row).mpr

theorem Agree.expireLeft (h : a.Agree W ids b) (id : RowId) : (a.expireAndUnlock id).2.Agree W ids b :=
  h.leftRows (a.expireAndUnlock_accounts id).1 (a.expireAndUnlock_accounts id).2 fun row =>
    (a.expireAndUnlock_free id row).mp

theorem Agree.expireRight (h : a.Agree W ids b) (id : RowId) : a.Agree W ids (b.expireAndUnlock id).2 :=
  h.rightRows (b.expireAndUnlock_accounts id).1 (b.expireAndUnlock_accounts id).2 fun row =>
    (b.expireAndUnlock_free id row).mpr

/-- A row that is written is not free. -/
theorem free_of_update {pending : RowId → Option PendingStatus} {id row : RowId} {status : PendingStatus}
    (h : Function.update pending id (some status) row = none) : row ≠ id ∧ pending row = none := by
  by_cases hid : row = id
  · subst hid
    rw [Function.update_self] at h
    cases h
  · rw [Function.update_of_ne hid] at h
    exact ⟨hid, h⟩

theorem Agree.completeLeft (h : a.Agree W ids b) (id : RowId) : (a.complete id).Agree W ids b :=
  h.leftRows rfl rfl fun _ hrow => (free_of_update hrow).2

theorem Agree.complete (h : a.Agree W ids b) (id : RowId) : (a.complete id).Agree W ids (b.complete id) where
  accounts := h.accounts
  free row hrow := by
    obtain ⟨hid, hrow⟩ := free_of_update hrow
    exact (Function.update_of_ne hid _ _).trans (h.free row hrow)
  ids := h.ids

theorem Agree.reserveLeft (h : a.Agree W ids b) (id : RowId) (inputs : List OutputId) :
    (a.reserve id inputs).Agree W ids b :=
  h.leftRows rfl rfl fun _ hrow => (free_of_update hrow).2

theorem Agree.reserve (h : a.Agree W ids b) (id : RowId) (inputs : List OutputId) :
    (a.reserve id inputs).Agree W ids (b.reserve id inputs) where
  accounts := h.accounts
  free row hrow := by
    obtain ⟨hid, hrow⟩ := free_of_update hrow
    exact (Function.update_of_ne hid _ _).trans (h.free row hrow)
  ids := h.ids

theorem Agree.rewrite (h : a.Agree W ids b) (v : WalletName) (p : Passphrase) :
    (a.rewrite v p).Agree W ids (b.rewrite v p) where
  accounts w hw := by
    rw [getAccountByName_rewrite, getAccountByName_rewrite]
    have hrel := h.accounts w hw
    cases ha : a.getAccountByName w <;> cases hb : b.getAccountByName w <;> rw [ha, hb] at hrel <;>
      cases hrel
    · exact .none
    · rename_i row row' hlike
      -- Accounts are picked by name, and the two have the same.
      obtain ⟨hid, hrest⟩ := hlike
      have hname : row'.friendlyName = row.friendlyName := by rw [hrest]
      refine .some ⟨?_, ?_⟩
      · dsimp only
        split <;> split <;> exact hid
      · dsimp only
        rw [hname]
        split <;> rw [hrest]
  free := h.free
  ids := h.ids

theorem Agree.delete (h : a.Agree W ids b) (v : WalletName) :
    (a.deleteWallet v).Agree W ids (b.deleteWallet v) where
  accounts w hw := by
    rw [getAccountByName_deleteWallet, getAccountByName_deleteWallet]
    split
    · exact .none
    · exact h.accounts w hw
  free := h.free
  ids := h.ids

theorem Agree.rename (h : a.Agree W ids b) {v new : WalletName} (hv : W v) (hnew : W new)
    (hne : v ≠ new) (hfree : a.getAccountByName new = none) :
    (a.renameWallet v new).Agree W ids (b.renameWallet v new) where
  accounts w hw := by
    have hfree' : b.getAccountByName new = none := by
      rw [← Option.isNone_iff_eq_none, h.isNone_eq hnew, hfree]
      rfl
    rw [getAccountByName_renameWallet hne hfree, getAccountByName_renameWallet hne hfree']
    split
    · have hrel := h.accounts v hv
      cases ha : a.getAccountByName v <;> cases hb : b.getAccountByName v <;> rw [ha, hb] at hrel <;>
        cases hrel
      · exact .none
      · rename_i row row' hlike
        exact .some ⟨hlike.id, by rw [hlike.rest]⟩
    · split
      · exact .none
      · exact h.accounts w hw
  free := h.free
  ids := h.ids

theorem Agree.imp {ids' : AccountId → AccountId → Prop} (h : a.Agree W ids b)
    (himp : ∀ i j, ids i j → ids' i j) (hids : Pairing ids' a.nextAccountId b.nextAccountId) :
    a.Agree W ids' b where
  accounts w hw := by
    have hrel := h.accounts w hw
    cases ha : a.getAccountByName w <;> cases hb : b.getAccountByName w <;> rw [ha, hb] at hrel <;>
      cases hrel
    · exact .none
    · rename_i hlike
      exact .some ⟨himp _ _ hlike.id, hlike.rest⟩
  free := h.free
  ids := hids

/-- Both create a wallet; its ids are a new pair. -/
theorem Agree.add (h : a.Agree W ids b) (v : WalletName) (p : Passphrase) (viewOnly : Bool) :
    (a.addAccount v p viewOnly).Agree W (pairUp ids a.nextAccountId b.nextAccountId)
      (b.addAccount v p viewOnly) where
  accounts w hw := by
    rw [getAccountByName_addAccount, getAccountByName_addAccount]
    split
    · exact .some ⟨pairUp_self _ _ _, rfl⟩
    · have hrel := h.accounts w hw
      cases ha : a.getAccountByName w <;> cases hb : b.getAccountByName w <;> rw [ha, hb] at hrel <;>
        cases hrel
      · exact .none
      · rename_i hlike
        exact .some ⟨pairUp_of hlike.id, hlike.rest⟩
  free := h.free
  ids := h.ids.next

end WalletDatabase

end CwTariWallet
