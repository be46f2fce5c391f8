/-
# CwTariWallet.Table -- ordered maps as association lists with distinct keys

A `BTreeMap` whose order nobody reads is Mathlib's `AList`.  Added here: `retain`, emptiness, and
what both do to a lookup.
-/
import Mathlib.Data.List.AList

namespace CwTariWallet

/-- A map from `K` to `V`. -/
abbrev Table (K V : Type) := AList (fun _ : K => V)

namespace Table

variable {K V : Type} [DecidableEq K]

/-- Whether the map has no key. -/
def isEmpty (t : Table K V) : Bool := t.entries.isEmpty

/-- Keep the entries `keep` says yes to (`BTreeMap::retain`). -/
def retain (keep : K → V → Bool) (t : Table K V) : Table K V where
  entries := t.entries.filter fun e => keep e.1 e.2
  nodupKeys := t.nodupKeys.sublist List.filter_sublist

theorem isEmpty_iff (t : Table K V) : t.isEmpty = true ↔ ∀ k, t.lookup k = none := by
  constructor
  · intro h k
    have hnil : t.entries = [] := List.isEmpty_iff.mp h
    simp [AList.lookup, hnil]
  · intro h
    refine List.isEmpty_iff.mpr (List.eq_nil_iff_forall_not_mem.mpr ?_)
    rintro ⟨k, v⟩ hmem
    have hsome := AList.mem_lookup_iff.mpr hmem
    rw [h k] at hsome
    cases hsome

theorem isEmpty_eq_false_iff (t : Table K V) :
    t.isEmpty = false ↔ ∃ k v, t.lookup k = some v := by
  rw [← Bool.not_eq_true, isEmpty_iff]
  simp only [not_forall, Option.ne_none_iff_exists']

@[simp]
theorem isEmpty_insert (t : Table K V) (k : K) (v : V) :
    Table.isEmpty (t.insert k v) = false := by
  rw [isEmpty_eq_false_iff]
  exact ⟨k, v, t.lookup_insert⟩

theorem lookup_insert_eq (t : Table K V) (k k' : K) (v : V) :
    (t.insert k v).lookup k' = if k' = k then some v else t.lookup k' := by
  by_cases h : k' = k
  · subst h
    simp
  · rw [if_neg h, AList.lookup_insert_ne h]

theorem lookup_erase_eq (t : Table K V) (k k' : K) :
    (t.erase k).lookup k' = if k' = k then none else t.lookup k' := by
  by_cases h : k' = k
  · subst h
    simp
  · rw [if_neg h, AList.lookup_erase_ne h]

/-- `retain` only ever forgets an entry. -/
theorem lookup_retain_eq_some {keep : K → V → Bool} {t : Table K V} {k : K} {v : V} :
    (retain keep t).lookup k = some v ↔ t.lookup k = some v ∧ keep k v = true := by
  constructor
  · intro h
    have hmem := AList.mem_lookup_iff.mp h
    simp only [retain, List.mem_filter] at hmem
    exact ⟨AList.mem_lookup_iff.mpr hmem.1, hmem.2⟩
  · rintro ⟨h, hk⟩
    refine AList.mem_lookup_iff.mpr ?_
    simp only [retain, List.mem_filter]
    exact ⟨AList.mem_lookup_iff.mp h, hk⟩

end Table

end CwTariWallet
