import Mathlib.Data.Stream.Init
import Mathlib.Data.Vector.Basic
import Mathlib.Tactic

namespace Lib.Blocks

variable {α : Type} {n : ℕ}

def concat (block : ℕ → List.Vector α n) (k : ℕ) : List α := (List.range k).flatMap fun i => (block i).toList

theorem concat_succ (block : ℕ → List.Vector α n) (k : ℕ) :
    concat block (k + 1) = concat block k ++ (block k).toList := by
  rw [concat, List.range_succ, List.flatMap_append, List.flatMap_singleton, concat]

theorem length_concat (block : ℕ → List.Vector α n) (k : ℕ) : (concat block k).length = k * n := by
  induction k with
  | zero => rw [Nat.zero_mul]; rfl
  | succ k ih => rw [concat_succ, List.length_append, ih, List.Vector.toList_length, Nat.succ_mul]

variable [NeZero n]

def stream (block : ℕ → List.Vector α n) : Stream' α := fun i => (block (i / n)).get (Fin.ofNat n i)

theorem stream_eq_append (block : ℕ → List.Vector α n) :
    stream block = (block 0).toList ++ₛ stream fun i => block (i + 1) := by
  have hn : 0 < n := Nat.pos_of_neZero n
  refine Stream'.ext fun i => ?_
  by_cases hi : i < n
  · have hlength : i < (block 0).toList.length := by rwa [List.Vector.toList_length]
    have hfirst : (stream block).get i = (block 0).get ⟨i, hi⟩ := by
      have hindex : Fin.ofNat n i = ⟨i, hi⟩ := Fin.ext (Nat.mod_eq_of_lt hi)
      rw [Stream'.get, stream, Nat.div_eq_of_lt hi, hindex]
    rw [hfirst, Stream'.get_append_left i _ _ hlength, List.Vector.get_eq_get_toList]
    rfl
  · obtain ⟨j, rfl⟩ := Nat.exists_eq_add_of_le (not_lt.mp hi)
    have hindex : Fin.ofNat n (n + j) = Fin.ofNat n j := Fin.ext (Nat.add_mod_left n j)
    have hbehind := Stream'.get_append_right j (block 0).toList (stream fun i => block (i + 1))
    rw [List.Vector.toList_length] at hbehind
    rw [hbehind, Stream'.get, Stream'.get, stream, stream, Nat.add_div_left j hn, hindex]

theorem stream_eq_concat (block : ℕ → List.Vector α n) (k : ℕ) :
    stream block = concat block k ++ₛ stream fun i => block (k + i) := by
  induction k with
  | zero => simp [concat]
  | succ k ih =>
    rw [ih, stream_eq_append, concat_succ, Stream'.append_append_stream]
    simp only [Nat.add_zero, Nat.add_assoc, Nat.add_comm 1]

theorem take_stream (block : ℕ → List.Vector α n) {k m : ℕ} (h : m ≤ k * n) :
    (stream block).take m = (concat block k).take m := by
  rw [stream_eq_concat block k, Stream'.take_append_of_le_length]
  rwa [length_concat]

theorem take_zip {β γ : Type} (f : α → β → γ) (s : Stream' α) (t : Stream' β) (m : ℕ) :
    (Stream'.zip f s t).take m = List.zipWith f (s.take m) (t.take m) := by
  induction m generalizing s t with
  | zero => rfl
  | succ m ih => rw [Stream'.take_succ, Stream'.take_succ, Stream'.take_succ, Stream'.tail_zip, ih]; rfl

end Lib.Blocks
