/-
# CwTariWallet.Codec -- what one side writes and the other reads

A reader takes what it wants from the front of a buffer.  It carries as a field that bytes appended to the
buffer are left alone, so that a message is read whole or not at all (`decode_of_prefix`).  `Reads limit r bs a`
says that `r` reads `a` off any buffer that starts with `bs`, and exactly `bs` of it; the rules build the reads
of a record, an option, a list or a tagged choice from those of its parts.  `limit` bounds the whole message:
a length prefix is right only below it.
-/
import Mathlib.Data.List.Basic
import Mathlib.Logic.Nontrivial.Basic
import Mathlib.Tactic.Ring

namespace CwTariWallet.Codec

abbrev Bytes := List UInt8

/-- What was read and what is left; `none` where the buffer does not hold it. -/
structure Reader (α : Type) where
  run : Bytes → Option (α × Bytes)
  run_append : ∀ bs a rest more, run bs = some (a, rest) → run (bs ++ more) = some (a, rest ++ more)

namespace Reader

variable {α β : Type}

instance : Monad Reader where
  pure a := ⟨fun bs => some (a, bs), by rintro bs a rest more ⟨⟩; rfl⟩
  bind r f :=
    { run := fun bs =>
        match r.run bs with
        | none => none
        | some (a, rest) => (f a).run rest
      run_append := by
        intro bs b rest more h
        cases hr : r.run bs with
        | none => rw [hr] at h; cases h
        | some read =>
          obtain ⟨a, left⟩ := read
          rw [hr] at h
          rw [r.run_append bs a left more hr]
          exact (f a).run_append left b rest more h }

@[simp] theorem run_pure (a : α) (bs : Bytes) : (pure a : Reader α).run bs = some (a, bs) := rfl

theorem run_bind_of_run {r : Reader α} {bs rest : Bytes} {a : α} (f : α → Reader β)
    (h : r.run bs = some (a, rest)) : (r >>= f).run bs = (f a).run rest := by
  show (match r.run bs with | none => none | some (a, rest) => (f a).run rest) = _
  rw [h]

/-- Reads nothing; there only where there is something. -/
def ofOption (value : Option α) : Reader α where
  run bs := value.map fun a => (a, bs)
  run_append := by
    intro bs a rest more h
    cases value with
    | none => cases h
    | some b => cases h; rfl

/-- The next `n` bytes. -/
def take (n : Nat) : Reader Bytes where
  run bs := if n ≤ bs.length then some (bs.take n, bs.drop n) else none
  run_append := by
    intro bs a rest more h
    split at h
    next hn =>
      cases h
      have hlonger : n ≤ (bs ++ more).length := by
        rw [List.length_append]
        omega
      rw [if_pos hlonger, List.take_append_of_le_length hn, List.drop_append_of_le_length hn]
    next => cases h

/-- The same reader, `n` times over. -/
def times (r : Reader α) : Nat → Reader (List α)
  | 0 => pure []
  | n + 1 => do
    let a ← r
    let rest ← times r n
    pure (a :: rest)

/-- Something behind a flag, if the flag is up. -/
def option (flag : Reader Bool) (r : Reader α) : Reader (Option α) := do
  let present ← flag
  if present then do
    let a ← r
    pure (some a)
  else pure none

/-- The whole buffer, with nothing left over. -/
def decode (r : Reader α) (bs : Bytes) : Option α :=
  match r.run bs with
  | some (a, []) => some a
  | _ => none

theorem decode_eq_some_iff {r : Reader α} {bs : Bytes} {a : α} :
    r.decode bs = some a ↔ r.run bs = some (a, []) := by
  unfold decode
  constructor
  · intro h
    split at h
    next hrun => cases h; exact hrun
    next => cases h
  · intro h
    rw [h]

/-- One part of a choice, by the tag in front of it. -/
def tagged (tag : Reader α) (ofTag : α → Option β) : Reader β := do
  let t ← tag
  ofOption (ofTag t)

end Reader

/-! ## What a reader makes of what was written -/

/-- `r` reads `a` off `bs`, whatever follows it; promised where `bs` is shorter than `limit`. -/
def Reads {α : Type} (limit : Nat) (r : Reader α) (bs : Bytes) (a : α) : Prop :=
  bs.length < limit → ∀ rest, r.run (bs ++ rest) = some (a, rest)

namespace Reads

variable {α β γ : Type} {limit : Nat}

theorem done (a : α) : Reads limit (pure a) (List.flatten []) a := by
  intro _ rest
  rfl

/-- The parts of a record are read in the order they were written. -/
theorem step {r : Reader α} {f : α → Reader β} {bs : Bytes} {parts : List Bytes} {a : α} {b : β}
    (hfirst : Reads limit r bs a) (hrest : Reads limit (f a) parts.flatten b) :
    Reads limit (r >>= f) (List.flatten (bs :: parts)) b := by
  intro hlimit rest
  rw [List.flatten_cons, List.length_append] at hlimit
  rw [List.flatten_cons, List.append_assoc,
    Reader.run_bind_of_run f (hfirst (by omega) (parts.flatten ++ rest))]
  exact hrest (by omega) rest

theorem append {r : Reader α} {f : α → Reader β} {bs cs : Bytes} {a : α} {b : β}
    (hfirst : Reads limit r bs a) (hrest : Reads limit (f a) cs b) : Reads limit (r >>= f) (bs ++ cs) b := by
  intro hlimit rest
  rw [List.length_append] at hlimit
  rw [List.append_assoc, Reader.run_bind_of_run f (hfirst (by omega) (cs ++ rest))]
  exact hrest (by omega) rest

/-- A value may be turned into another on the way out. -/
theorem map {r : Reader α} {bs : Bytes} {a : α} (g : α → β) (h : Reads limit r bs a) :
    Reads limit (do let x ← r; pure (g x)) bs (g a) := by
  intro hlimit rest
  rw [Reader.run_bind_of_run _ (h hlimit rest)]
  rfl

/-- The same, where not every value can. -/
theorem mapOption {r : Reader α} {bs : Bytes} {a : α} {g : α → Option β} {b : β}
    (h : Reads limit r bs a) (hg : g a = some b) :
    Reads limit (do let x ← r; Reader.ofOption (g x)) bs b := by
  intro hlimit rest
  rw [Reader.run_bind_of_run _ (h hlimit rest), hg]
  rfl

/-- A tag says which value of an enumeration this is. -/
theorem tagged {tag : Reader α} {ofTag : α → Option β} {bs : Bytes} {t : α} {b : β}
    (h : Reads limit tag bs t) (hb : ofTag t = some b) : Reads limit (Reader.tagged tag ofTag) bs b :=
  h.mapOption hb

theorem take {n : Nat} {bs : Bytes} (hlength : bs.length = n) : Reads limit (Reader.take n) bs bs := by
  subst hlength
  intro _ rest
  have hle : bs.length ≤ (bs ++ rest).length := by
    rw [List.length_append]
    omega
  show (if bs.length ≤ (bs ++ rest).length then some _ else none) = _
  rw [if_pos hle, List.take_left, List.drop_left]

/-- A loop over the items reads them all: below the limit if the whole is. -/
theorem times {r : Reader β} {write : α → Bytes} {g : α → β} (xs : List α)
    (h : ∀ x ∈ xs, Reads limit r (write x) (g x)) :
    Reads limit (Reader.times r xs.length) (xs.flatMap write) (xs.map g) := by
  induction xs with
  | nil => exact done []
  | cons x xs ih =>
    have htail := ih fun y hy => h y (List.mem_cons_of_mem x hy)
    rw [List.flatMap_cons]
    exact (h x List.mem_cons_self).append (htail.map (g x :: ·))

/-- Items that are not empty are no more than the bytes they take. -/
theorem length_le_length_flatMap {write : α → Bytes} (hpos : ∀ a, 0 < (write a).length) (xs : List α) :
    xs.length ≤ (xs.flatMap write).length := by
  induction xs with
  | nil => exact Nat.le_refl 0
  | cons x xs ih =>
    have hx := hpos x
    rw [List.flatMap_cons, List.length_append, List.length_cons]
    omega

/-- An option is a flag and, under it, the value. -/
theorem option {flag : Reader Bool} {r : Reader β} {up down : Bytes} {write : α → Bytes} {g : α → β}
    (hup : Reads limit flag up true) (hdown : Reads limit flag down false)
    (h : ∀ a, Reads limit r (write a) (g a)) (value : Option α) :
    Reads limit (Reader.option flag r) (value.elim down fun a => up ++ write a) (value.map g) := by
  cases value with
  | none =>
    intro hlimit rest
    show (Reader.option flag r).run (down ++ rest) = some (none, rest)
    rw [Reader.option, Reader.run_bind_of_run _ (hdown hlimit rest)]
    rfl
  | some a => exact hup.append ((h a).map some)

/-! ### Whole messages -/

variable {r : Reader α} {bs : Bytes} {a : α}

theorem decode (h : Reads limit r bs a) (hlimit : bs.length < limit) : r.decode bs = some a := by
  rw [Reader.decode_eq_some_iff]
  have hrun := h hlimit []
  rwa [List.append_nil] at hrun

/-- A message cut short anywhere is not read as anything. -/
theorem decode_of_prefix (h : Reads limit r bs a) (hlimit : bs.length < limit) {front back : Bytes}
    (hcut : bs = front ++ back) (hback : back ≠ []) : r.decode front = none := by
  cases hdecode : r.decode front with
  | none => rfl
  | some b =>
    have hfront := r.run_append front b [] back (Reader.decode_eq_some_iff.mp hdecode)
    have hwhole := Reader.decode_eq_some_iff.mp (h.decode hlimit)
    rw [hcut, hfront] at hwhole
    cases hwhole
    exact absurd rfl hback

/-- Nor is one with something after it. -/
theorem decode_of_longer (h : Reads limit r bs a) (hlimit : bs.length < limit) {more : Bytes}
    (hmore : more ≠ []) : r.decode (bs ++ more) = none := by
  cases hdecode : r.decode (bs ++ more) with
  | none => rfl
  | some b =>
    rw [Reader.decode_eq_some_iff, h hlimit more] at hdecode
    cases hdecode
    exact absurd rfl hmore

end Reads

/-! ## Fixed formats -/

/-- A way to write a value and the way to read it back. -/
structure Format (α : Type) where
  put : α → Bytes
  get : Reader α
  get_put : ∀ a rest, get.run (put a ++ rest) = some (a, rest)

namespace Format

variable {α : Type} {limit : Nat}

theorem reads (format : Format α) (a : α) : Reads limit format.get (format.put a) a :=
  fun _ rest => format.get_put a rest

/-- A format with two values to tell apart writes something. -/
theorem put_ne_nil [Nontrivial α] (format : Format α) (a : α) : format.put a ≠ [] := by
  intro hnil
  obtain ⟨b, hb⟩ := exists_ne a
  have ha : format.get.run (format.put b) = some (a, format.put b) := by
    have hget := format.get_put a (format.put b)
    rwa [hnil, List.nil_append] at hget
  have hput := format.get_put b []
  rw [List.append_nil, ha] at hput
  exact hb (congrArg Prod.fst (Option.some.inj hput)).symm

end Format

/-- A byte as it is. -/
def Format.byte : Format UInt8 where
  put x := [x]
  get :=
    { run := fun
        | [] => none
        | x :: rest => some (x, rest)
      run_append := by
        intro bs a rest more h
        cases bs with
        | nil => cases h
        | cons x bs => cases h; rfl }
  get_put _ _ := rfl

/-- Bytes may be read one by one. -/
theorem Reads.bytes {limit : Nat} (bs : Bytes) : Reads limit (Reader.times Format.byte.get bs.length) bs bs := by
  have htimes : Reads limit (Reader.times Format.byte.get bs.length) (bs.flatMap Format.byte.put) (bs.map id) :=
    Reads.times bs fun x _ => Format.byte.reads x
  have hput : bs.flatMap Format.byte.put = bs := List.flatMap_singleton' bs
  rwa [hput, List.map_id] at htimes

/-! ### Numbers -/

inductive Endian where
  | little
  | big
  deriving DecidableEq, Repr

/-- Bytes from the least significant on, put in order. -/
def Endian.arrange : Endian → Bytes → Bytes
  | little, bs => bs
  | big, bs => bs.reverse

theorem Endian.arrange_arrange (endian : Endian) (bs : Bytes) : endian.arrange (endian.arrange bs) = bs := by
  cases endian with
  | little => rfl
  | big => exact List.reverse_reverse bs

theorem Endian.length_arrange (endian : Endian) (bs : Bytes) : (endian.arrange bs).length = bs.length := by
  cases endian with
  | little => rfl
  | big => exact List.length_reverse

/-- The `width` least significant bytes of a number, the least significant first. -/
def bytesOf : Nat → Nat → Bytes
  | 0, _ => []
  | width + 1, n => UInt8.ofNat n :: bytesOf width (n / 256)

def numberOf : Bytes → Nat
  | [] => 0
  | b :: bs => b.toNat + 256 * numberOf bs

theorem length_bytesOf (width n : Nat) : (bytesOf width n).length = width := by
  induction width generalizing n with
  | zero => rfl
  | succ width ih => rw [bytesOf, List.length_cons, ih]

theorem numberOf_bytesOf (width n : Nat) (h : n < 256 ^ width) : numberOf (bytesOf width n) = n := by
  induction width generalizing n with
  | zero =>
    have hzero : n = 0 := by
      rw [Nat.pow_zero] at h
      omega
    rw [hzero]
    rfl
  | succ width ih =>
    have hquotient : n / 256 < 256 ^ width := by
      rw [Nat.pow_succ] at h
      exact Nat.div_lt_of_lt_mul (by omega)
    rw [bytesOf, numberOf, ih _ hquotient, UInt8.toNat_ofNat']
    exact Nat.mod_add_div n 256

/-- `width` bytes hold every value of a type that numbers its values below `256 ^ width`. -/
def Format.fixed {α : Type} (endian : Endian) (width : Nat) (toNat : α → Nat) (ofNat : Nat → α)
    (hlt : ∀ a, toNat a < 256 ^ width) (hof : ∀ a, ofNat (toNat a) = a) : Format α where
  put a := endian.arrange (bytesOf width (toNat a))
  get := do
    let bs ← Reader.take width
    pure (ofNat (numberOf (endian.arrange bs)))
  get_put := by
    intro a rest
    have hlength : (endian.arrange (bytesOf width (toNat a))).length = width := by
      rw [endian.length_arrange, length_bytesOf]
    have hread : Reads (width + 1) (Reader.take width) (endian.arrange (bytesOf width (toNat a)))
        (endian.arrange (bytesOf width (toNat a))) := Reads.take hlength
    have hmap := hread.map (fun bs => ofNat (numberOf (endian.arrange bs))) (by omega) rest
    rw [hmap, endian.arrange_arrange, numberOf_bytesOf _ _ (hlt a), hof]

end CwTariWallet.Codec
