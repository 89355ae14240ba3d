import CoreVpn.Lib.Machine

namespace Lib.Replay

open Lib.Machine

def highest (A : Finset Nat) : Nat := A.sup id

/-- What an anti-replay filter of window size `W` lets through once the ids in
`A` have passed: nonzero ids that are new and not too far behind the highest. -/
def Admits (W : Nat) (A : Finset Nat) (p : Nat) : Prop := p ≠ 0 ∧ p ∉ A ∧ highest A < p + W

instance (W : Nat) (A : Finset Nat) (p : Nat) : Decidable (Admits W A p) :=
  inferInstanceAs (Decidable (_ ∧ _ ∧ _))

/-- The filter as a machine over the set of ids it has let through. -/
def filter (W : Nat) (A : Finset Nat) (p : Nat) : Bool × Finset Nat :=
  if Admits W A p then (true, insert p A) else (false, A)

def passed (ids : List Nat) (results : List Bool) : List Nat :=
  (ids.zip results).filterMap fun r => if r.2 then some r.1 else none

variable {W : Nat}

theorem le_highest {A : Finset Nat} {a : Nat} (h : a ∈ A) : a ≤ highest A :=
  Finset.le_sup (f := id) h

@[simp] theorem highest_insert (A : Finset Nat) (p : Nat) :
    highest (insert p A) = max p (highest A) := Finset.sup_insert

theorem highest_toFinset (l : List Nat) : highest l.toFinset = l.foldr max 0 := by
  induction l with
  | nil => rfl
  | cons a l ih => simp [ih]

theorem filter_true {A : Finset Nat} {p : Nat} (h : Admits W A p) :
    filter W A p = (true, insert p A) := if_pos h

theorem filter_false {A : Finset Nat} {p : Nat} (h : ¬ Admits W A p) :
    filter W A p = (false, A) := if_neg h

theorem exec_filter (A : Finset Nat) (ids : List Nat) :
    exec (filter W) A ids = A ∪ (passed ids (outputs (filter W) A ids)).toFinset := by
  induction ids generalizing A with
  | nil => simp [passed]
  | cons p ids ih =>
    by_cases h : Admits W A p
    · simp [ih, passed, filter_true h]
    · simp [ih, passed, filter_false h]

theorem passed_nodup (A : Finset Nat) (ids : List Nat) :
    (passed ids (outputs (filter W) A ids)).Nodup ∧
      ∀ p ∈ passed ids (outputs (filter W) A ids), p ∉ A := by
  induction ids generalizing A with
  | nil => simp [passed]
  | cons p ids ih =>
    by_cases h : Admits W A p
    · obtain ⟨hn, hd⟩ := ih (insert p A)
      have hp : p ∉ passed ids (outputs (filter W) (insert p A) ids) :=
        fun hm => hd p hm (Finset.mem_insert_self p A)
      have he : passed (p :: ids) (outputs (filter W) A (p :: ids)) =
          p :: passed ids (outputs (filter W) (insert p A) ids) := by
        simp [passed, filter_true h]
      rw [he]
      refine ⟨List.nodup_cons.mpr ⟨hp, hn⟩, ?_⟩
      intro q hq
      rcases List.mem_cons.mp hq with rfl | hq
      · exact h.2.1
      · exact fun hm => hd q hq (Finset.mem_insert_of_mem hm)
    · have he : passed (p :: ids) (outputs (filter W) A (p :: ids)) =
          passed ids (outputs (filter W) A ids) := by
        simp [passed, filter_false h]
      rw [he]
      exact ih A

/-- An id that was offered and refused stays refused: either it had passed
before, or it was already behind the window, which only moves forward. Hence
the filter may as well compare with everything offered so far. -/
theorem admits_offered (hW : 0 < W) (ids : List Nat) (h0 : ∀ i ∈ ids, i ≠ 0) (p : Nat) :
    Admits W (exec (filter W) ∅ ids) p ↔ Admits W ids.toFinset p := by
  suffices h : ∀ (A D : Finset Nat) (ids : List Nat), A ⊆ D → highest A = highest D →
      (∀ d ∈ D, d ∉ A → d + W ≤ highest A) → (∀ i ∈ ids, i ≠ 0) →
      (Admits W (exec (filter W) A ids) p ↔ Admits W (D ∪ ids.toFinset) p) by
    simpa using h ∅ ∅ ids (by simp) rfl (by simp) h0
  intro A D ids hsub hmax hold h0
  induction ids generalizing A D with
  | nil =>
    simp only [exec_nil, List.toFinset_nil, Finset.union_empty, Admits, hmax]
    constructor
    · rintro ⟨hp, hA, hlt⟩
      refine ⟨hp, fun hD => ?_, hlt⟩
      have := hold p hD hA
      omega
    · rintro ⟨hp, hD, hlt⟩
      exact ⟨hp, fun hA => hD (hsub hA), hlt⟩
  | cons i ids ih =>
    have hi : i ≠ 0 := h0 i (by simp)
    have hs : D ∪ (i :: ids).toFinset = insert i D ∪ ids.toFinset := by
      ext x; simp
    rw [hs, exec_cons]
    by_cases h : Admits W A i
    · rw [filter_true h]
      apply ih (insert i A) (insert i D) (Finset.insert_subset_insert i hsub) (by simp [hmax])
      · intro d hd hdA
        simp only [Finset.mem_insert, not_or] at hd hdA
        have := hold d (hd.resolve_left hdA.1) hdA.2
        simp only [highest_insert]
        omega
      · exact fun j hj => h0 j (by simp [hj])
    · rw [filter_false h]
      -- A refused id lies at or below the highest, so offering it moves nothing.
      have hle : i ≤ highest A ∧ (i ∉ A → i + W ≤ highest A) := by
        simp only [Admits, not_and, not_lt] at h
        by_cases hA : i ∈ A
        · exact ⟨le_highest hA, fun hn => absurd hA hn⟩
        · have := h hi hA
          exact ⟨by omega, fun _ => this⟩
      apply ih A (insert i D) (hsub.trans (Finset.subset_insert i D))
      · simp only [highest_insert, ← hmax]
        omega
      · intro d hd hdA
        rcases Finset.mem_insert.mp hd with rfl | hd
        · exact hle.2 hdA
        · exact hold d hd hdA
      · exact fun j hj => h0 j (by simp [hj])

end Lib.Replay
