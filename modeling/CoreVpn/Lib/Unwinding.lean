import CoreVpn.Lib.Machine

namespace Lib.Machine

variable {σ ι ο ω : Type}

/-- What an observer sees of a run. -/
def seen (step : σ → ι → ο × σ) (view : σ → ι → List ω) (s : σ) : List ι → List ω
  | [] => []
  | i :: is => view s i ++ seen step view (step s i).2 is

/-- The unwinding conditions: two states that the observer cannot tell apart stay
so when one of them takes a hidden step, of which nothing is seen, and when both
take the same visible step, of which the same is seen. -/
structure Unwinds (step : σ → ι → ο × σ) (view : σ → ι → List ω) (visible : ι → Bool) (C : σ → ι → Prop)
    (R : σ → σ → Prop) : Prop where
  hidden : ∀ {s t i}, visible i = false → C s i → R s t → view s i = [] ∧ R (step s i).2 t
  shown : ∀ {s t i}, visible i = true → C s i → R s t → view s i = view t i ∧ R (step s i).2 (step t i).2

variable {step : σ → ι → ο × σ} {view : σ → ι → List ω} {visible : ι → Bool} {C : σ → ι → Prop} {R : σ → σ → Prop}

/-- Noninterference: the observer sees the same if the hidden steps are left out. -/
theorem Unwinds.purge (h : Unwinds step view visible C R) {s t : σ} (hst : R s t) {is : List ι}
    (hc : EachStep step C s is) :
    seen step view s is = seen step view t (is.filter visible) ∧
      R (exec step s is) (exec step t (is.filter visible)) := by
  induction is generalizing s t with
  | nil => exact ⟨rfl, hst⟩
  | cons i is ih =>
    cases hi : visible i with
    | false =>
      obtain ⟨hview, hnext⟩ := h.hidden hi hc.1 hst
      rw [List.filter_cons_of_neg (by rw [hi]; exact Bool.false_ne_true), seen, hview, List.nil_append]
      exact ih hnext hc.2
    | true =>
      obtain ⟨hview, hnext⟩ := h.shown hi hc.1 hst
      rw [List.filter_cons_of_pos hi, seen, seen, hview, exec_cons, exec_cons]
      obtain ⟨hseen, hend⟩ := ih hnext hc.2
      exact ⟨by rw [hseen], hend⟩

end Lib.Machine
