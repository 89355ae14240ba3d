import Mathlib.Data.Finset.Card
import Mathlib.Data.Finset.Option
import Mathlib.Tactic

namespace Lib.Tables

/-- A finite map. Nothing is said about the order of its entries. -/
structure Table (K V : Type) where
  find : K → Option V
  keys : Finset K
  mem_keys : ∀ k, k ∈ keys ↔ (find k).isSome

namespace Table

variable {K V : Type}

def empty : Table K V where
  find _ := none
  keys := ∅
  mem_keys _ := by simp

def len (t : Table K V) : Nat := t.keys.card

def keysWith (p : V → Bool) (t : Table K V) : Finset K :=
  t.keys.filter fun k => ((t.find k).any p) = true

def retain (p : V → Bool) (t : Table K V) : Table K V where
  find k := (t.find k).filter p
  keys := t.keysWith p
  mem_keys k := by
    rw [keysWith, Finset.mem_filter, t.mem_keys]
    cases t.find k with
    | none => simp
    | some v => cases hp : p v <;> simp [hp, Option.filter]

def map (f : V → V) (t : Table K V) : Table K V where
  find k := (t.find k).map f
  keys := t.keys
  mem_keys k := by rw [t.mem_keys, Option.isSome_map]

section Lookup

variable {t : Table K V} {k : K} {v : V} {p : V → Bool}

@[simp] theorem find_empty : (empty : Table K V).find k = none := rfl

theorem find_retain_eq_some : (t.retain p).find k = some v ↔ t.find k = some v ∧ p v = true :=
  Option.filter_eq_some_iff

theorem find_map_eq_some {f : V → V} : (t.map f).find k = some v ↔ ∃ w, t.find k = some w ∧ f w = v :=
  Option.map_eq_some_iff

end Lookup

variable [DecidableEq K]

def insert (k : K) (v : V) (t : Table K V) : Table K V where
  find j := if j = k then some v else t.find j
  keys := Insert.insert k t.keys
  mem_keys j := by
    rw [Finset.mem_insert, t.mem_keys]
    by_cases h : j = k <;> simp [h]

def erase (k : K) (t : Table K V) : Table K V where
  find j := if j = k then none else t.find j
  keys := t.keys.erase k
  mem_keys j := by
    rw [Finset.mem_erase, t.mem_keys]
    by_cases h : j = k <;> simp [h]

/-- Remove a set of keys, as a loop over them does in any order. -/
def eraseAll (ks : Finset K) (t : Table K V) : Table K V where
  find j := if j ∈ ks then none else t.find j
  keys := t.keys \ ks
  mem_keys j := by
    rw [Finset.mem_sdiff, t.mem_keys]
    by_cases h : j ∈ ks <;> simp [h]

variable {t : Table K V} {j k : K} {v : V}

@[simp] theorem find_insert_self : (t.insert k v).find k = some v := if_pos rfl

theorem find_insert_of_ne (h : j ≠ k) : (t.insert k v).find j = t.find j := if_neg h

@[simp] theorem find_erase_self : (t.erase k).find k = none := if_pos rfl

theorem find_erase_of_ne (h : j ≠ k) : (t.erase k).find j = t.find j := if_neg h

theorem find_erase_eq_some : (t.erase k).find j = some v ↔ j ≠ k ∧ t.find j = some v := by
  by_cases h : j = k
  · subst h
    simp
  · simp [find_erase_of_ne h, h]

theorem find_eraseAll_eq_some {ks : Finset K} : (t.eraseAll ks).find j = some v ↔ j ∉ ks ∧ t.find j = some v := by
  by_cases h : j ∈ ks <;> simp [eraseAll, h]

end Table

end Lib.Tables
