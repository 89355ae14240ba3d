import Mathlib.Tactic

namespace Lib.Draws

variable {α : Type} [LE α]

/-- A draw finds the least thing of a window that is not taken. -/
structure LeastFirst (window : Finset α) (draw : Finset α → Option α) : Prop where
  least : ∀ {taken a}, draw taken = some a → IsLeast {b | b ∈ window ∧ b ∉ taken} a
  exhausted : ∀ {taken}, draw taken = none → window ⊆ taken

/-- So many draws in a row find things of a given part of the window, each taken
before the next draw. -/
def Successive [DecidableEq α] (draw : Finset α → Option α) (part : Finset α) : Nat → Finset α → Prop
  | 0, _ => True
  | n + 1, taken => ∃ a ∈ part, draw taken = some a ∧ Successive draw part n (insert a taken)

namespace LeastFirst

variable {window part taken : Finset α} {draw : Finset α → Option α}

/-- From the lower part of a window as many things can be drawn as are free in it. -/
theorem successive_iff [DecidableEq α] (h : LeastFirst window draw) (hpart : part ⊆ window)
    (hlower : ∀ a ∈ part, ∀ b ∈ window, b ≤ a → b ∈ part) {n : Nat} :
    Successive draw part n taken ↔ n ≤ (part \ taken).card := by
  induction n generalizing taken with
  | zero => exact iff_of_true trivial (Nat.zero_le _)
  | succ n ih =>
    constructor
    · rintro ⟨a, ha, hdraw, hrest⟩
      obtain ⟨⟨-, hfree⟩, -⟩ := h.least hdraw
      have hmem : a ∈ part \ taken := Finset.mem_sdiff.mpr ⟨ha, hfree⟩
      rw [ih, Finset.sdiff_insert, Finset.card_erase_of_mem hmem] at hrest
      have hpos : 0 < (part \ taken).card := Finset.card_pos.mpr ⟨a, hmem⟩
      omega
    · intro hroom
      obtain ⟨b, hb⟩ := Finset.card_pos.mp (Nat.lt_of_lt_of_le (Nat.succ_pos n) hroom)
      obtain ⟨hb, hbfree⟩ := Finset.mem_sdiff.mp hb
      cases hdraw : draw taken with
      | none => exact absurd (h.exhausted hdraw (hpart hb)) hbfree
      | some a =>
        obtain ⟨⟨hmem, hfree⟩, hleast⟩ := h.least hdraw
        have ha : a ∈ part := hlower b hb a hmem (hleast ⟨hpart hb, hbfree⟩)
        refine ⟨a, ha, hdraw, ih.mpr ?_⟩
        rw [Finset.sdiff_insert, Finset.card_erase_of_mem (Finset.mem_sdiff.mpr ⟨ha, hfree⟩)]
        omega

end LeastFirst

end Lib.Draws
