import Mathlib.Data.Finset.Insert
import CoreVpn.Lib.Machine

namespace Lib.Leases

open Lib.Machine

variable {K A : Type}

/-- Which leases have been given out, and who holds what. -/
structure Registry (K A : Type) where
  taken : Finset A
  held : K → Option A

/-- A holder gets a lease in place of any it had, or loses the one it had.
What it had stays taken either way. -/
inductive Move (K A : Type) where
  | grant (k : K) (a : A)
  | drop (k : K)
  deriving DecidableEq

def Move.holder : Move K A → K
  | .grant k _ => k
  | .drop k => k

def apply [DecidableEq K] [DecidableEq A] (r : Registry K A) : Move K A → Registry K A
  | .grant k a => ⟨insert a r.taken, Function.update r.held k (some a)⟩
  | .drop k => ⟨r.taken, Function.update r.held k none⟩

def step [DecidableEq K] [DecidableEq A] (r : Registry K A) (m : Move K A) : Unit × Registry K A :=
  ((), apply r m)

/-- Only leases that are neither reserved nor taken are granted. -/
def Legal (reserved : Finset A) (r : Registry K A) : Move K A → Prop
  | .grant _ a => a ∉ r.taken ∧ a ∉ reserved
  | .drop _ => True

def Spares (r : Registry K A) (m : Move K A) : Prop := r.held m.holder = none

/-- What is held is taken and not reserved, and nothing is held twice. -/
structure Sound (reserved : Finset A) (r : Registry K A) : Prop where
  mem_taken : ∀ {k a}, r.held k = some a → a ∈ r.taken
  unique : ∀ {j k a}, r.held j = some a → r.held k = some a → j = k
  not_reserved : ∀ {a}, a ∈ r.taken → a ∉ reserved

/-- Exactly what is held is taken. -/
def Accounted (r : Registry K A) : Prop := ∀ a, a ∈ r.taken ↔ ∃ k, r.held k = some a

def Lost (r : Registry K A) (a : A) : Prop := a ∈ r.taken ∧ ∀ k, r.held k ≠ some a

variable {reserved : Finset A} {r : Registry K A} {m : Move K A}

theorem sound_empty : Sound reserved (⟨∅, fun _ => none⟩ : Registry K A) where
  mem_taken h := by cases h
  unique h := by cases h
  not_reserved h := by cases h

theorem accounted_empty : Accounted (⟨∅, fun _ => none⟩ : Registry K A) := by
  intro a
  simp

theorem Lost.not_accounted {a : A} (h : Lost r a) : ¬ Accounted r := by
  intro hacc
  obtain ⟨k, hk⟩ := (hacc a).mp h.1
  exact h.2 k hk

variable [DecidableEq K] [DecidableEq A]

theorem mem_taken_apply {a : A} : a ∈ (apply r m).taken ↔ a ∈ r.taken ∨ ∃ k, m = .grant k a := by
  cases m with
  | drop k => simp [apply]
  | grant k b => simp [apply, or_comm, eq_comm]

theorem held_apply {j : K} {a : A} :
    (apply r m).held j = some a ↔ m = .grant j a ∨ (j ≠ m.holder ∧ r.held j = some a) := by
  by_cases hj : j = m.holder
  · subst hj
    cases m <;> simp [apply, Move.holder]
  · cases m <;> simp_all [apply, Move.holder, Function.update_of_ne, Ne.symm]

theorem Sound.apply (h : Sound reserved r) (hm : Legal reserved r m) :
    Sound reserved (apply r m) := by
  constructor
  · intro k a hk
    rw [mem_taken_apply]
    cases held_apply.mp hk with
    | inl hnew => exact .inr ⟨k, hnew⟩
    | inr hold => exact .inl (h.mem_taken hold.2)
  · intro j k a hj hk
    cases held_apply.mp hj with
    | inl hj =>
      cases held_apply.mp hk with
      | inl hk =>
        rw [hj] at hk
        cases hk
        rfl
      | inr hk =>
        subst hj
        exact absurd (h.mem_taken hk.2) hm.1
    | inr hj =>
      cases held_apply.mp hk with
      | inl hk =>
        subst hk
        exact absurd (h.mem_taken hj.2) hm.1
      | inr hk => exact h.unique hj.2 hk.2
  · intro a ha
    cases mem_taken_apply.mp ha with
    | inl hold => exact h.not_reserved hold
    | inr hnew =>
      obtain ⟨k, rfl⟩ := hnew
      exact hm.2

theorem Lost.apply {a : A} (h : Lost r a) (hm : Legal reserved r m) : Lost (apply r m) a := by
  refine ⟨mem_taken_apply.mpr (.inl h.1), fun j hj => ?_⟩
  cases held_apply.mp hj with
  | inl hnew =>
    subst hnew
    exact hm.1 h.1
  | inr hold => exact h.2 j hold.2

theorem Accounted.apply (h : Accounted r) (hm : Spares r m) : Accounted (apply r m) := by
  intro a
  rw [mem_taken_apply, h a]
  constructor
  · intro ha
    cases ha with
    | inl hold =>
      obtain ⟨k, hk⟩ := hold
      refine ⟨k, held_apply.mpr (.inr ⟨fun hkm => ?_, hk⟩)⟩
      rw [hkm, hm] at hk
      cases hk
    | inr hnew =>
      obtain ⟨k, hk⟩ := hnew
      exact ⟨k, held_apply.mpr (.inl hk)⟩
  · rintro ⟨k, hk⟩
    cases held_apply.mp hk with
    | inl hnew => exact .inr ⟨k, hnew⟩
    | inr hold => exact .inl ⟨k, hold.2⟩

theorem lost_of_not_spares (h : Sound reserved r) (hm : Legal reserved r m) (hs : ¬ Spares r m) :
    ∃ a, Lost (apply r m) a := by
  obtain ⟨a, ha⟩ := Option.ne_none_iff_exists'.mp hs
  refine ⟨a, mem_taken_apply.mpr (.inl (h.mem_taken ha)), fun k hk => ?_⟩
  cases held_apply.mp hk with
  | inl hnew =>
    subst hnew
    exact hm.1 (h.mem_taken ha)
  | inr hold => exact hold.1 (h.unique hold.2 ha)

theorem Sound.exec {ms : List (Move K A)} (h : Sound reserved r) (hm : EachStep step (Legal reserved) r ms) :
    Sound reserved (exec step r ms) := by
  induction ms generalizing r with
  | nil => exact h
  | cons m ms ih => exact ih (h.apply hm.1) hm.2

theorem Lost.exec {a : A} {ms : List (Move K A)} (h : Lost r a) (hm : EachStep step (Legal reserved) r ms) :
    Lost (exec step r ms) a := by
  induction ms generalizing r with
  | nil => exact h
  | cons m ms ih => exact ih (h.apply hm.1) hm.2

/-- A run of legal moves keeps the account if and only if each of them spares its holder. -/
theorem accounted_exec_iff {ms : List (Move K A)} (h : Sound reserved r) (ha : Accounted r)
    (hm : EachStep step (Legal reserved) r ms) :
    Accounted (exec step r ms) ↔ EachStep step Spares r ms := by
  induction ms generalizing r with
  | nil => exact iff_of_true ha trivial
  | cons m ms ih =>
    by_cases hs : Spares r m
    · rw [exec_cons, EachStep, and_iff_right hs]
      exact ih (h.apply hm.1) (ha.apply hs) hm.2
    · obtain ⟨a, hlost⟩ := lost_of_not_spares h hm.1 hs
      exact iff_of_false (hlost.exec hm.2).not_accounted fun hall => hs hall.1

theorem legal_drops (ks : List K) : EachStep step (Legal reserved) r (ks.map Move.drop) := by
  induction ks generalizing r with
  | nil => trivial
  | cons k ks ih => exact ⟨trivial, ih⟩

theorem spares_drops {ks : List K} : EachStep step Spares r (ks.map Move.drop) ↔ ∀ k ∈ ks, r.held k = none := by
  induction ks generalizing r with
  | nil => simp [EachStep]
  | cons k ks ih =>
    rw [List.map_cons, EachStep, ih, List.forall_mem_cons]
    refine and_congr_right fun hk => forall₂_congr fun j _ => ?_
    by_cases hjk : j = k
    · subst hjk
      exact iff_of_true (Function.update_self ..) hk
    · change Function.update r.held k none j = none ↔ _
      rw [Function.update_of_ne hjk]

end Lib.Leases
