/-
# CwTariWallet.Isolation.Sessions -- two `DB_STATE`s that agree on some wallets

The second state is that of a run without the calls on wallets outside `W`: the wallets in `W` have the open
counts they have in the first, under generations that are paired, and no other wallet is counted
(`DbState.Agree`).  The pool is not part of it: it may well be open in the first state alone, for a wallet
the second knows nothing of.  What keeps the two in step all the same is that both are on one file
(`DbState.OnFile`).
-/
import CwTariWallet.Bridge.DbSteps
import CwTariWallet.Pairing

namespace CwTariWallet

variable {W : WalletName → Prop} {r : Nat → Nat → Prop} {a a' b b' : DbState} {w : WalletName}
variable {path : PathBuf} {g g' : Nat}

namespace DbState

/-! ## One file -/

/-- Only `path` is ever opened or recorded, and the pool is open exactly while a wallet is counted. -/
structure OnFile (path : PathBuf) (db : DbState) : Prop where
  pool : ∀ d, db.openDatabase = some d → d = ⟨path⟩
  recorded : ∀ p, db.path = some p → p = path
  counted : db.openDatabase = none ↔ Table.isEmpty db.sessions = true

theorem OnFile.onOtherPath (h : a.OnFile path) : a.onOtherPath path = false := by
  unfold DbState.onOtherPath
  cases hopen : a.openDatabase with
  | none => rfl
  | some d =>
    rw [h.pool d hopen]
    simp

/-- On one file, every path there is to be found is that one. -/
theorem OnFile.getDbPath (h : a.OnFile path) (hpath : a.path = some path) : a.getDbPath = .ok path := by
  unfold DbState.getDbPath
  cases hopen : a.openDatabase with
  | none => simp [hpath]
  | some d =>
    rw [h.pool d hopen]

theorem OnFile.removeSession (h : a.OnFile path) (v : WalletName) : (a.removeSession v).OnFile path := by
  unfold DbState.removeSession
  dsimp only
  split
  · rename_i hclose
    simp only [Bool.and_eq_true] at hclose
    refine ⟨fun d hd => ?_, h.recorded, iff_of_true rfl hclose.2⟩
    cases hd
  · rename_i hopen
    refine ⟨h.pool, h.recorded, h.counted.trans ?_⟩
    -- The pool stays open: either a wallet is left, or this one was not counted to begin with.
    rw [Bool.and_eq_true, not_and] at hopen
    constructor
    · intro hempty
      rw [Table.isEmpty_iff] at hempty ⊢
      intro k
      rw [Table.lookup_erase_eq]
      split
      · rfl
      · exact hempty k
    · intro hempty
      rw [Table.isEmpty_iff]
      intro k
      by_cases hk : k = v
      · subst hk
        by_contra hsome
        exact hopen (Option.isSome_iff_ne_none.mpr hsome) hempty
      · have hnone := (Table.isEmpty_iff _).mp hempty k
        rwa [Table.lookup_erase_eq, if_neg hk] at hnone

theorem OnFile.releaseOne {zero : Bool} (h : a.OnFile path) (hrel : a.releaseOne w = (zero, a')) :
    a'.OnFile path := by
  rcases releaseOne_cases hrel with ⟨-, -, rfl⟩ | ⟨session, rest, hs, -, -, -, rfl⟩ | ⟨_, -, -, -, rfl⟩
  · exact h
  · refine ⟨h.pool, h.recorded, h.counted.trans (iff_of_false ?_ ?_)⟩
    · rw [Bool.not_eq_true, Table.isEmpty_eq_false_iff]
      exact ⟨w, session, hs⟩
    · rw [Table.isEmpty_insert]
      exact Bool.false_ne_true
  · exact h.removeSession w

theorem OnFile.acquire (hpool : ∀ d, a.openDatabase = some d → d = ⟨path⟩)
    (hrecorded : ∀ p, a.path = some p → p = path) (hopen : a.openDatabase ≠ none) (w : WalletName) :
    (a.acquireSession w).2.OnFile path where
  pool := hpool
  recorded := hrecorded
  counted := by
    refine iff_of_false hopen ?_
    show ¬ Table.isEmpty (a.sessions.insert w _) = true
    rw [Table.isEmpty_insert]
    exact Bool.false_ne_true

/-- The count with the pool open: `opens` is not asked. -/
theorem OnFile.count_of_open (h : a.OnFile path) (hopen : a.openDatabase ≠ none) (w : WalletName)
    (opens : Except BridgeError Unit) :
    a.count path w opens =
      (.ok (({ a with path := some path }.acquireSession w).1, false),
        ({ a with path := some path }.acquireSession w).2) := by
  obtain ⟨d, hd⟩ := Option.ne_none_iff_exists'.mp hopen
  simp only [DbState.count, h.onOtherPath, Bool.false_and, Bool.false_eq_true, if_false, hd]

/-- The count with the pool closed: it has to be opened. -/
theorem OnFile.count_of_closed (h : a.OnFile path) (hclosed : a.openDatabase = none) (w : WalletName)
    (opens : Except BridgeError Unit) :
    a.count path w opens = match opens with
      | .error e => (.error e, a)
      | .ok () =>
        (.ok (({ a with openDatabase := some ⟨path⟩, path := some path }.acquireSession w).1, true),
          ({ a with openDatabase := some ⟨path⟩, path := some path }.acquireSession w).2) := by
  cases opens <;>
    simp only [DbState.count, h.onOtherPath, Bool.false_and, Bool.false_eq_true, if_false, hclosed]

theorem OnFile.count {opens : Except BridgeError Unit} {result : Except BridgeError (Nat × Bool)}
    (h : a.OnFile path) (hcount : a.count path w opens = (result, a')) : a'.OnFile path := by
  by_cases hopen : a.openDatabase = none
  · rw [h.count_of_closed hopen] at hcount
    split at hcount
    · obtain ⟨-, rfl⟩ := Prod.mk.inj hcount
      exact h
    · obtain ⟨-, rfl⟩ := Prod.mk.inj hcount
      refine OnFile.acquire (a := { a with openDatabase := some ⟨path⟩, path := some path }) ?_ ?_
        (Option.some_ne_none _) w
      · exact fun d hd => (Option.some.inj hd).symm
      · exact fun p hp => (Option.some.inj hp).symm
  · rw [h.count_of_open hopen] at hcount
    obtain ⟨-, rfl⟩ := Prod.mk.inj hcount
    refine OnFile.acquire (a := { a with path := some path }) h.pool ?_ hopen w
    exact fun p hp => (Option.some.inj hp).symm

end DbState

/-! ## Agreement -/

/-- The same count, in generations that are paired. -/
structure Session.Like (r : Nat → Nat → Prop) (x y : Session) : Prop where
  count : y.count = x.count
  generation : r x.generation y.generation

namespace DbState

/-- The wallets in `W` are counted alike, and no other is counted in `b`. -/
structure Agree (W : WalletName → Prop) (r : Nat → Nat → Prop) (a b : DbState) : Prop where
  sessions : ∀ w, W w → Option.Rel (Session.Like r) (a.sessions.lookup w) (b.sessions.lookup w)
  others : ∀ w, ¬ W w → b.sessions.lookup w = none
  generations : Pairing r a.nextGeneration b.nextGeneration

/-- A wallet is counted in both or in neither. -/
theorem Agree.cases (h : a.Agree W r b) (hw : W w) :
    (a.sessions.lookup w = none ∧ b.sessions.lookup w = none) ∨
      ∃ x y, a.sessions.lookup w = some x ∧ b.sessions.lookup w = some y ∧ Session.Like r x y := by
  have hrel := h.sessions w hw
  cases ha : a.sessions.lookup w <;> cases hb : b.sessions.lookup w <;> rw [ha, hb] at hrel <;>
    cases hrel
  · exact Or.inl ⟨rfl, rfl⟩
  · exact Or.inr ⟨_, _, rfl, rfl, by assumption⟩

theorem Agree.isSome_eq (h : a.Agree W r b) (hw : W w) :
    (b.sessions.lookup w).isSome = (a.sessions.lookup w).isSome := by
  rcases h.cases hw with ⟨ha, hb⟩ | ⟨x, y, ha, hb, -⟩
  · rw [ha, hb]
  · rw [ha, hb]
    rfl

/-- Whoever the second counts, the first counts. -/
theorem Agree.isEmpty (h : a.Agree W r b) (hempty : Table.isEmpty a.sessions = true) :
    Table.isEmpty b.sessions = true := by
  rw [Table.isEmpty_iff] at hempty ⊢
  intro w
  by_cases hw : W w
  · rcases h.cases hw with ⟨-, hb⟩ | ⟨x, y, ha, -, -⟩
    · exact hb
    · rw [hempty w] at ha
      cases ha
  · exact h.others w hw

/-- Where the first has no pool open, neither has the second. -/
theorem Agree.closed (h : a.Agree W r b) (ha : a.OnFile path) (hb : b.OnFile path)
    (hclosed : a.openDatabase = none) : b.openDatabase = none :=
  hb.counted.mpr (h.isEmpty (ha.counted.mp hclosed))

/-- An unlock's count is still there in both or in neither. -/
theorem Agree.stillCounted_eq (h : a.Agree W r b) (hw : W w) (hg : r g g') :
    b.stillCounted w g' = a.stillCounted w g := by
  rw [Bool.eq_iff_iff, stillCounted_iff, stillCounted_iff]
  unfold generation
  rcases h.cases hw with ⟨ha, hb⟩ | ⟨x, y, ha, hb, hlike⟩ <;> rw [ha, hb]
  · simp
  · show some y.generation = some g' ↔ some x.generation = some g
    rw [Option.some.injEq, Option.some.injEq]
    exact (h.generations.eq_iff hlike.generation hg).symm

/-- Only wallets outside `W` are touched in the first state. -/
theorem Agree.leftOnly (h : a.Agree W r b)
    (hsessions : ∀ w, W w → a'.sessions.lookup w = a.sessions.lookup w)
    (hnext : a.nextGeneration ≤ a'.nextGeneration) : a'.Agree W r b where
  sessions w hw := by
    rw [hsessions w hw]
    exact h.sessions w hw
  others := h.others
  generations := h.generations.mono hnext (Nat.le_refl _)

/-- Entries put in place of a wallet's own, or taken away, in both. -/
theorem Agree.update (h : a.Agree W r b) (hw : W w) {x y : Option Session}
    (hxy : Option.Rel (Session.Like r) x y)
    (ha : ∀ v, a'.sessions.lookup v = if v = w then x else a.sessions.lookup v)
    (hb : ∀ v, b'.sessions.lookup v = if v = w then y else b.sessions.lookup v)
    (hna : a'.nextGeneration = a.nextGeneration) (hnb : b'.nextGeneration = b.nextGeneration) :
    a'.Agree W r b' where
  sessions v hv := by
    rw [ha, hb]
    split
    · exact hxy
    · exact h.sessions v hv
  others v hv := by
    have hne : v ≠ w := by
      rintro rfl
      exact hv hw
    rw [hb, if_neg hne]
    exact h.others v hv
  generations := by
    rw [hna, hnb]
    exact h.generations

theorem Agree.removeSession (h : a.Agree W r b) (hw : W w) :
    (a.removeSession w).Agree W r (b.removeSession w) :=
  h.update hw .none (removeSession_lookup a w) (removeSession_lookup b w)
    (removeSession_nextGeneration a w) (removeSession_nextGeneration b w)

/-- Taking one off reaches zero in both or in neither. -/
theorem Agree.releaseOne (h : a.Agree W r b) (hw : W w) {zero : Bool}
    (hrel : a.releaseOne w = (zero, a')) :
    ∃ b', b.releaseOne w = (zero, b') ∧ a'.Agree W r b' := by
  rcases h.cases hw with ⟨ha, hb⟩ | ⟨x, y, ha, hb, hlike⟩
  · simp only [DbState.releaseOne, ha] at hrel
    obtain ⟨rfl, rfl⟩ := Prod.mk.inj hrel
    exact ⟨b, by simp only [DbState.releaseOne, hb], h⟩
  · obtain ⟨count, generation, hcounted⟩ := x
    obtain ⟨count', generation', hcounted'⟩ := y
    obtain ⟨hcount, hgeneration⟩ := hlike
    obtain rfl : count' = count := hcount
    by_cases hlast : 0 < count' - 1
    · simp only [DbState.releaseOne, ha, dif_pos hlast] at hrel
      obtain ⟨rfl, rfl⟩ := Prod.mk.inj hrel
      let rest : Session := ⟨count' - 1, generation, hlast⟩
      let rest' : Session := ⟨count' - 1, generation', hlast⟩
      refine ⟨{ b with sessions := b.sessions.insert w rest' },
        by simp only [DbState.releaseOne, hb, dif_pos hlast, rest'], ?_⟩
      have hrest : Session.Like r rest rest' := ⟨rfl, hgeneration⟩
      refine h.update hw (.some hrest) ?_ ?_ rfl rfl
      · exact fun v => Table.lookup_insert_eq _ _ _ _
      · exact fun v => Table.lookup_insert_eq _ _ _ _
    · -- The last one comes off, and the entry with it.
      have hremove : a' = a.removeSession w ∧ zero = true := by
        rcases releaseOne_cases hrel with ⟨hnone, -, -⟩ | ⟨session, rest, hs, -, hrest, -, -⟩ |
          ⟨session, -, hzero, -, heq⟩
        · rw [ha] at hnone
          cases hnone
        · rw [ha] at hs
          obtain rfl := Option.some.inj hs
          have hpos := rest.counted
          exfalso
          dsimp only at hrest
          omega
        · exact ⟨heq, hzero⟩
      obtain ⟨rfl, rfl⟩ := hremove
      refine ⟨b.removeSession w, ?_, h.removeSession hw⟩
      simp [DbState.releaseOne, hb, hlast, DbState.removeSession]

/-- Counting gives both the generation of the entry there is, or their next ones, which are then a new
pair. -/
theorem Agree.acquire (h : a.Agree W r b) (hw : W w) :
    ∃ r', (∀ i j, r i j → r' i j) ∧ r' (a.acquireSession w).1 (b.acquireSession w).1 ∧
      (a.acquireSession w).2.Agree W r' (b.acquireSession w).2 := by
  have hlookup : ∀ (db : DbState) (v : WalletName), (db.acquireSession w).2.sessions.lookup v =
      if v = w then some (acquired (db.sessions.lookup w) db.nextGeneration) else db.sessions.lookup v :=
    fun db v => acquireSession_lookup rfl v
  rcases h.cases hw with ⟨ha, hb⟩ | ⟨x, y, ha, hb, hlike⟩
  · -- The first count of the wallet: each state gives it the next generation of its own.
    refine ⟨pairUp r a.nextGeneration b.nextGeneration, fun _ _ => pairUp_of, ?_, ?_, ?_, ?_⟩
    · simp only [acquireSession, ha, hb, acquired]
      exact pairUp_self _ _ _
    · intro v hv
      rw [hlookup a, hlookup b, ha, hb]
      split
      · exact .some ⟨rfl, pairUp_self _ _ _⟩
      · rcases h.cases hv with ⟨ha', hb'⟩ | ⟨x, y, ha', hb', hlike⟩ <;> rw [ha', hb']
        · exact .none
        · exact .some ⟨hlike.count, pairUp_of hlike.generation⟩
    · intro v hv
      have hne : v ≠ w := by
        rintro rfl
        exact hv hw
      rw [hlookup b, if_neg hne]
      exact h.others v hv
    · simpa only [acquireSession, ha, hb, acquired, if_true] using h.generations.next
  · -- One more for an entry there is, which keeps its generation.
    have hlt := h.generations.lt hlike.generation
    refine ⟨r, fun _ _ hr => hr, ?_, ?_⟩
    · simp only [acquireSession, ha, hb, acquired]
      exact hlike.generation
    · refine h.update hw (x := some (acquired (some x) a.nextGeneration))
        (y := some (acquired (some y) b.nextGeneration)) ?_ ?_ ?_ ?_ ?_
      · refine .some ⟨?_, hlike.generation⟩
        simp only [acquired, hlike.count]
      · intro v
        rw [hlookup a, ha]
      · intro v
        rw [hlookup b, hb]
      · simp only [acquireSession, ha, acquired, if_neg (Nat.ne_of_lt hlt.1)]
      · simp only [acquireSession, hb, acquired, if_neg (Nat.ne_of_lt hlt.2)]

end DbState

end CwTariWallet
