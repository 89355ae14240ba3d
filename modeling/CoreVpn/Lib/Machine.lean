import Mathlib.Tactic

namespace Lib.Machine

variable {σ τ ι ο : Type}

/-- The state after feeding a list of inputs to a step function. -/
def exec (step : σ → ι → ο × σ) (s : σ) : List ι → σ
  | [] => s
  | i :: is => exec step (step s i).2 is

def outputs (step : σ → ι → ο × σ) (s : σ) : List ι → List ο
  | [] => []
  | i :: is => (step s i).1 :: outputs step (step s i).2 is

/-- Every step of a run meets a condition on its input and the state before it. -/
def EachStep (step : σ → ι → ο × σ) (C : σ → ι → Prop) (s : σ) : List ι → Prop
  | [] => True
  | i :: is => C s i ∧ EachStep step C (step s i).2 is

/-- A property of the state holds throughout a run, its two ends included. -/
def Always (step : σ → ι → ο × σ) (P : σ → Prop) (s : σ) : List ι → Prop
  | [] => P s
  | i :: is => P s ∧ Always step P (step s i).2 is

variable {step : σ → ι → ο × σ}

instance EachStep.decidable {C : σ → ι → Prop} [∀ s i, Decidable (C s i)] :
    ∀ (s : σ) (is : List ι), Decidable (EachStep step C s is)
  | _, [] => inferInstanceAs (Decidable True)
  | s, i :: is =>
    have := EachStep.decidable (C := C) (step s i).2 is
    inferInstanceAs (Decidable (C s i ∧ EachStep step C (step s i).2 is))

instance Always.decidable {P : σ → Prop} [∀ s, Decidable (P s)] :
    ∀ (s : σ) (is : List ι), Decidable (Always step P s is)
  | s, [] => inferInstanceAs (Decidable (P s))
  | s, i :: is =>
    have := Always.decidable (P := P) (step s i).2 is
    inferInstanceAs (Decidable (P s ∧ Always step P (step s i).2 is))

@[simp] theorem exec_nil (s : σ) : exec step s [] = s := rfl

@[simp] theorem exec_cons (s : σ) (i : ι) (is : List ι) :
    exec step s (i :: is) = exec step (step s i).2 is := rfl

@[simp] theorem outputs_nil (s : σ) : outputs step s [] = [] := rfl

@[simp] theorem outputs_cons (s : σ) (i : ι) (is : List ι) :
    outputs step s (i :: is) = (step s i).1 :: outputs step (step s i).2 is := rfl

@[simp] theorem exec_append (s : σ) (is js : List ι) :
    exec step s (is ++ js) = exec step (exec step s is) js := by
  induction is generalizing s with
  | nil => rfl
  | cons i is ih => exact ih _

theorem rel_exec {R : σ → σ → Prop} [IsPreorder σ R] {K : ι → Prop} (hstep : ∀ s i, K i → R s (step s i).2)
    {is : List ι} (h : ∀ i ∈ is, K i) (s : σ) : R s (exec step s is) := by
  induction is generalizing s with
  | nil => exact refl_of R s
  | cons i is ih =>
    have hhead := hstep s i (h i List.mem_cons_self)
    exact trans_of R hhead (ih (fun j hj => h j (List.mem_cons_of_mem i hj)) (step s i).2)

theorem outputs_append (s : σ) (is js : List ι) :
    outputs step s (is ++ js) = outputs step s is ++ outputs step (exec step s is) js := by
  induction is generalizing s with
  | nil => rfl
  | cons i is ih => exact congrArg _ (ih _)

theorem EachStep.append {C : σ → ι → Prop} {s : σ} {is js : List ι} :
    EachStep step C s (is ++ js) ↔ EachStep step C s is ∧ EachStep step C (exec step s is) js := by
  induction is generalizing s with
  | nil => simp [EachStep]
  | cons i is ih => simp [EachStep, ih, and_assoc]

theorem EachStep.iff {C : σ → ι → Prop} {s : σ} {is : List ι} :
    EachStep step C s is ↔
      ∀ (before : List ι) (i : ι) (rest : List ι), is = before ++ i :: rest → C (exec step s before) i := by
  induction is generalizing s with
  | nil => simp [EachStep]
  | cons j js ih =>
    constructor
    · rintro ⟨hj, hjs⟩ before i rest h
      cases before with
      | nil =>
        obtain ⟨rfl, -⟩ := List.cons.inj h
        exact hj
      | cons b bs =>
        obtain ⟨rfl, ht⟩ := List.cons.inj h
        exact ih.mp hjs bs i rest ht
    · intro h
      refine ⟨h [] j js rfl, ih.mpr fun before i rest hi => ?_⟩
      exact h (j :: before) i rest (by rw [hi]; rfl)

theorem Always.head {P : σ → Prop} {s : σ} {is : List ι} (h : Always step P s is) : P s := by
  cases is with
  | nil => exact h
  | cons i is => exact h.1

theorem Always.imp {P Q : σ → Prop} (hPQ : ∀ s, P s → Q s) {s : σ} {is : List ι}
    (h : Always step P s is) : Always step Q s is := by
  induction is generalizing s with
  | nil => exact hPQ s h
  | cons i is ih => exact ⟨hPQ s h.1, ih h.2⟩

theorem Always.iff {P : σ → Prop} {s : σ} {is : List ι} :
    Always step P s is ↔ ∀ before rest : List ι, is = before ++ rest → P (exec step s before) := by
  induction is generalizing s with
  | nil => simp [Always]
  | cons j js ih =>
    constructor
    · rintro ⟨hs, hjs⟩ before rest h
      cases before with
      | nil => exact hs
      | cons b bs =>
        obtain ⟨rfl, ht⟩ := List.cons.inj h
        exact ih.mp hjs bs rest ht
    · intro h
      refine ⟨h [] (j :: js) rfl, ih.mpr fun before rest hi => ?_⟩
      exact h (j :: before) rest (by rw [hi]; rfl)

/-- The invariant rule: what one step preserves, under a condition on that
step, holds throughout every run whose steps meet the condition. -/
theorem always_of_step {C : σ → ι → Prop} {P : σ → Prop}
    (hstep : ∀ s i, C s i → P s → P (step s i).2) {s : σ} {is : List ι}
    (hs : P s) (hc : EachStep step C s is) : Always step P s is := by
  induction is generalizing s with
  | nil => exact hs
  | cons i is ih => exact ⟨hs, ih (hstep s i hc.1 hs) hc.2⟩

theorem EachStep.of_invariant {P : σ → Prop} {C D : σ → ι → Prop}
    (hkeep : ∀ s i, C s i → P s → P (step s i).2) (hstep : ∀ s i, C s i → P s → D s i) {s : σ} {is : List ι}
    (hs : P s) (hc : EachStep step C s is) : EachStep step D s is := by
  induction is generalizing s with
  | nil => trivial
  | cons i is ih => exact ⟨hstep s i hc.1 hs, ih (hkeep s i hc.1 hs) hc.2⟩

/-- Where a property survives a step exactly under a condition, it holds
throughout a run if and only if all steps meet the condition. -/
theorem always_iff_eachStep {P : σ → Prop} {F C : σ → ι → Prop}
    (hstep : ∀ s i, F s i → P s → (P (step s i).2 ↔ C s i)) {s : σ} {is : List ι}
    (hs : P s) (hf : EachStep step F s is) : Always step P s is ↔ EachStep step C s is := by
  induction is generalizing s with
  | nil => exact iff_of_true hs trivial
  | cons i is ih =>
    constructor
    · rintro ⟨-, hrest⟩
      exact ⟨(hstep s i hf.1 hs).mp hrest.head, (ih hrest.head hf.2).mp hrest⟩
    · rintro ⟨hi, hrest⟩
      have hnext := (hstep s i hf.1 hs).mpr hi
      exact ⟨hs, (ih hnext hf.2).mpr hrest⟩

theorem exec_of_step {P : σ → Prop} (hstep : ∀ s i, P s → P (step s i).2) {s : σ}
    (hs : P s) (is : List ι) : P (exec step s is) := by
  induction is generalizing s with
  | nil => exact hs
  | cons i is ih => exact ih (hstep s i hs)

/-- The simulation rule: steps of two machines that agree on their outputs and
keep their states related give runs that agree on all outputs. -/
theorem outputs_of_simulation {step' : τ → ι → ο × τ} {R : σ → τ → Prop}
    (hstep : ∀ s t i, R s t → (step s i).1 = (step' t i).1 ∧ R (step s i).2 (step' t i).2)
    {s : σ} {t : τ} (h : R s t) (is : List ι) :
    outputs step s is = outputs step' t is ∧ R (exec step s is) (exec step' t is) := by
  induction is generalizing s t with
  | nil => exact ⟨rfl, h⟩
  | cons i is ih =>
    obtain ⟨ho, hr⟩ := hstep s t i h
    obtain ⟨hos, hrs⟩ := ih hr
    exact ⟨by rw [outputs_cons, outputs_cons, ho, hos], hrs⟩

end Lib.Machine
