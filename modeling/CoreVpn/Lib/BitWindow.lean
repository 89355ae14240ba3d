import CoreVpn.Lib.Replay

namespace Lib.BitWindow

open Lib.Replay

variable {w : Nat} {A : Finset Nat} {b : BitVec w} {h p : Nat}

/-- A bitmap of the recent past: `h` is the highest id in `A`, and bit `k`
tells whether `h - k` is in `A`. Older ids leave no mark. -/
structure Tracks (b : BitVec w) (h : Nat) (A : Finset Nat) : Prop where
  zero_notMem : 0 ∉ A
  highest_eq : highest A = h
  bit_iff : ∀ k < w, b.getLsbD k = true ↔ k < h ∧ h - k ∈ A

theorem tracks_empty : Tracks (0#w) 0 ∅ :=
  ⟨by simp, rfl, by simp⟩

theorem Tracks.notMem_of_lt (ht : Tracks b h A) (hp : h < p) : p ∉ A := fun hm => by
  have := le_highest hm
  have := ht.highest_eq
  omega

theorem Tracks.jump (ht : Tracks b h A) (hp : h + w ≤ p) (hw : 0 < w) :
    Tracks (1#w) p (insert p A) := by
  refine ⟨?_, by simp [ht.highest_eq]; omega, ?_⟩
  · have := ht.zero_notMem
    simp only [Finset.mem_insert, not_or]
    exact ⟨by omega, this⟩
  · intro k hk
    have hbit : (1#w).getLsbD k = true ↔ k = 0 := by
      simp [BitVec.getLsbD_one, hw]
    rw [hbit]
    constructor
    · rintro rfl
      exact ⟨by omega, by simp⟩
    · rintro ⟨-, hm⟩
      rcases Finset.mem_insert.mp hm with he | hm
      · omega
      · exact absurd hm (ht.notMem_of_lt (by omega))

/-- A new highest id within reach shifts the bitmap and sets bit zero. -/
theorem Tracks.advance (ht : Tracks b h A) (hp : h < p) (hw : p - h < w) :
    Tracks ((b <<< (p - h)) ||| 1#w) p (insert p A) := by
  refine ⟨?_, by simp [ht.highest_eq]; omega, ?_⟩
  · have := ht.zero_notMem
    simp only [Finset.mem_insert, not_or]
    exact ⟨by omega, this⟩
  · intro k hk
    have hone : (1#w).getLsbD k = decide (k = 0) := by
      simp [BitVec.getLsbD_one]; omega
    simp only [BitVec.getLsbD_or, BitVec.getLsbD_shiftLeft, hone, hk, decide_true, Bool.true_and,
      Bool.or_eq_true, Bool.and_eq_true, Bool.not_eq_true', decide_eq_false_iff_not,
      decide_eq_true_eq, not_lt]
    constructor
    · rintro (⟨hle, hb⟩ | rfl)
      · obtain ⟨hlt, hm⟩ := (ht.bit_iff (k - (p - h)) (by omega)).mp hb
        have he : p - k = h - (k - (p - h)) := by omega
        exact ⟨by omega, he ▸ Finset.mem_insert_of_mem hm⟩
      · exact ⟨by omega, by simp⟩
    · rintro ⟨hlt, hm⟩
      rcases Finset.mem_insert.mp hm with he | hm
      · exact Or.inr (by omega)
      · left
        -- an older id lies at or below the old highest, hence within the shifted part
        have hle : p - h ≤ k := by
          have := le_highest hm
          have := ht.highest_eq
          omega
        have he : p - k = h - (k - (p - h)) := by omega
        exact ⟨hle, (ht.bit_iff (k - (p - h)) (by omega)).mpr ⟨by omega, he ▸ hm⟩⟩

theorem Tracks.clear_iff (ht : Tracks b h A) (hp : p ≤ h) (h0 : p ≠ 0) (hw : h - p < w) :
    b.getLsbD (h - p) = false ↔ p ∉ A := by
  have hb := ht.bit_iff (h - p) hw
  have he : h - (h - p) = p := by omega
  rw [he] at hb
  rw [← Bool.not_eq_true, hb]
  constructor
  · exact fun hn hm => hn ⟨by omega, hm⟩
  · exact fun hn hm => hn hm.2

theorem Tracks.mark (ht : Tracks b h A) (hp : p ≤ h) (h0 : p ≠ 0) (hw : h - p < w) :
    Tracks (b ||| (1#w <<< (h - p))) h (insert p A) := by
  refine ⟨?_, by simp [ht.highest_eq]; omega, ?_⟩
  · have := ht.zero_notMem
    simp only [Finset.mem_insert, not_or]
    exact ⟨by omega, this⟩
  · intro k hk
    have hone : (1#w <<< (h - p)).getLsbD k = decide (k = h - p) := by
      simp only [BitVec.getLsbD_shiftLeft, BitVec.getLsbD_one, hk, decide_true, Bool.true_and]
      by_cases hkp : k = h - p
      · subst hkp; simp; omega
      · simp [hkp]; omega
    rw [BitVec.getLsbD_or, hone, Bool.or_eq_true, ht.bit_iff k hk, decide_eq_true_eq]
    constructor
    · rintro (⟨hlt, hm⟩ | rfl)
      · exact ⟨hlt, Finset.mem_insert_of_mem hm⟩
      · exact ⟨by omega, by rw [show h - (h - p) = p by omega]; simp⟩
    · rintro ⟨hlt, hm⟩
      rcases Finset.mem_insert.mp hm with he | hm
      · exact Or.inr (by omega)
      · exact Or.inl ⟨hlt, hm⟩

end Lib.BitWindow
