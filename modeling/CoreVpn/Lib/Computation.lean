import Mathlib.Tactic

namespace Lib.Computation

/-- How a computation stops short: the runtime panics, or the code reports an error. -/
inductive Fault (ε : Type) where
  | panic
  | error (e : ε)
  deriving DecidableEq, Repr

abbrev Outcome (ε α : Type) := Except (Fault ε) α

/-- A computation over a mutable state. The state outlives a fault: whatever
was written before an early exit stays written. -/
def Program (σ ε α : Type) := σ → Outcome ε α × σ

variable {σ τ ε ε' α β : Type}

instance : Monad (Program σ ε) where
  pure a := fun s => (.ok a, s)
  bind p f := fun s => match p s with
    | (.ok a, t) => f a t
    | (.error e, t) => (.error e, t)

def lift (o : Outcome ε α) : Program σ ε α := fun s => (o, s)

def get : Program σ ε σ := fun s => (.ok s, s)

def modify (f : σ → σ) : Program σ ε Unit := fun s => (.ok (), f s)

def fail (e : ε) : Program σ ε α := fun s => (.error (.error e), s)

def Fault.map (f : ε → ε') : Fault ε → Fault ε'
  | .panic => .panic
  | .error e => .error (f e)

def Outcome.mapFault (f : ε → ε') : Outcome ε α → Outcome ε' α
  | .ok a => .ok a
  | .error e => .error (e.map f)

@[simp] theorem Outcome.ok_bind (a : α) (f : α → Outcome ε β) :
    ((.ok a : Outcome ε α) >>= f) = f a := rfl

theorem Outcome.mapFault_eq_ok_iff {f : ε → ε'} {o : Outcome ε α} {a : α} :
    o.mapFault f = .ok a ↔ o = .ok a := by
  cases o <;> simp [Outcome.mapFault]

theorem Outcome.eq_ok_get {o : Outcome ε α} (h : o.toOption.isSome) : o = .ok (o.toOption.get h) := by
  cases o with
  | error e => cases h
  | ok a => rfl

theorem Outcome.bind_eq_ok_iff {o : Outcome ε α} {f : α → Outcome ε β} {b : β} :
    (o >>= f) = .ok b ↔ ∃ a, o = .ok a ∧ f a = .ok b := by
  cases o with
  | ok a => simp [bind, Except.bind]
  | error e => simp [bind, Except.bind]

theorem Outcome.bind_congr_ok {o : Outcome ε α} {f g : α → Outcome ε β} (h : ∀ a, o = .ok a → f a = g a) :
    (o >>= f) = (o >>= g) := by
  cases o with
  | ok a => exact h a rfl
  | error e => rfl

/-- The outcome of a computation whose state is given up when it fails. -/
def evaluate (p : Program σ ε α) (s : σ) : Outcome ε (α × σ) :=
  match p s with
  | (.ok a, t) => .ok (a, t)
  | (.error e, _) => .error e

/-- Run a computation on one component of the state, translating its errors. -/
def zoom (view : σ → τ) (put : τ → σ → σ) (wrap : ε → ε') (p : Program τ ε α) :
    Program σ ε' α := fun s =>
  let r := p (view s)
  (r.1.mapFault wrap, put r.2 s)

/-- Turn a reported error into a value. A panic is not caught. -/
def attempt (p : Program σ ε α) : Program σ ε' (Except ε α) := fun s =>
  match p s with
  | (.ok a, t) => (.ok (.ok a), t)
  | (.error (.error e), t) => (.ok (.error e), t)
  | (.error .panic, t) => (.error .panic, t)

@[simp] theorem pure_apply (a : α) (s : σ) : (pure a : Program σ ε α) s = (.ok a, s) := rfl

@[simp] theorem get_apply (s : σ) : (get : Program σ ε σ) s = (.ok s, s) := rfl

@[simp] theorem modify_apply (f : σ → σ) (s : σ) :
    (modify f : Program σ ε Unit) s = (.ok (), f s) := rfl

@[simp] theorem fail_apply (e : ε) (s : σ) :
    (fail e : Program σ ε α) s = (.error (.error e), s) := rfl

@[simp] theorem lift_apply (o : Outcome ε α) (s : σ) :
    (lift o : Program σ ε α) s = (o, s) := rfl

theorem bind_apply (p : Program σ ε α) (f : α → Program σ ε β) (s : σ) :
    (p >>= f) s = match p s with
      | (.ok a, t) => f a t
      | (.error e, t) => (.error e, t) := rfl

theorem bind_state_eq {p : Program σ ε α} {f : α → Program σ ε β} (h : ∀ a t, (f a t).2 = t) (s : σ) :
    ((p >>= f) s).2 = (p s).2 := by
  rw [bind_apply]
  split <;> simp_all

theorem exists_of_fst_eq {p : Program σ ε α} {s : σ} {r : Outcome ε α} (h : (p s).1 = r) :
    ∃ t, p s = (r, t) := ⟨(p s).2, Prod.ext h rfl⟩

theorem bind_ok {p : Program σ ε α} {f : α → Program σ ε β} {s t : σ} {a : α}
    (h : p s = (.ok a, t)) : (p >>= f) s = f a t := by
  simp only [bind_apply, h]

theorem bind_error {p : Program σ ε α} {f : α → Program σ ε β} {s t : σ} {e : Fault ε}
    (h : p s = (.error e, t)) : (p >>= f) s = (.error e, t) := by
  simp only [bind_apply, h]

theorem bind_eq_ok {p : Program σ ε α} {f : α → Program σ ε β} {s u : σ} {b : β}
    (h : (p >>= f) s = (.ok b, u)) : ∃ a t, p s = (.ok a, t) ∧ f a t = (.ok b, u) := by
  rw [bind_apply] at h
  split at h
  · exact ⟨_, _, by assumption, h⟩
  · simp at h

theorem lift_bind_eq_ok {o : Outcome ε α} {f : α → Program σ ε β} {s u : σ} {b : β}
    (h : (lift o >>= f) s = (.ok b, u)) : ∃ a, o = .ok a ∧ f a s = (.ok b, u) := by
  cases o with
  | ok a => exact ⟨a, rfl, h⟩
  | error e => cases h

theorem zoom_eq_ok {view : σ → τ} {put : τ → σ → σ} {wrap : ε → ε'} {p : Program τ ε α} {s u : σ} {a : α}
    (h : zoom view put wrap p s = (.ok a, u)) : ∃ t, p (view s) = (.ok a, t) ∧ u = put t s := by
  obtain ⟨hresult, hstate⟩ := Prod.ext_iff.mp h
  exact ⟨_, Prod.ext (Outcome.mapFault_eq_ok_iff.mp hresult) rfl, hstate.symm⟩

theorem bind_congr_run {p q : Program σ ε α} {f g : α → Program σ ε β} {s : σ} (hrun : p s = q s)
    (h : ∀ a t, q s = (.ok a, t) → f a t = g a t) : (p >>= f) s = (q >>= g) s := by
  rw [bind_apply, bind_apply, hrun]
  split
  · exact h _ _ (by assumption)
  · rfl

theorem bind_congr_ok {p : Program σ ε α} {f g : α → Program σ ε β} {s : σ}
    (h : ∀ a t, p s = (.ok a, t) → f a t = g a t) : (p >>= f) s = (p >>= g) s := bind_congr_run rfl h

/-- Whatever its outcome, a run of `p` relates the state before to the state after. -/
def Frames (R : σ → σ → Prop) (p : Program σ ε α) : Prop := ∀ s, R s (p s).2

section Frames

variable {R : σ → σ → Prop} [IsPreorder σ R]

theorem frames_pure (a : α) : Frames R (pure a : Program σ ε α) := fun s => refl_of R s

theorem frames_get : Frames R (get : Program σ ε σ) := fun s => refl_of R s

theorem frames_fail (e : ε) : Frames R (fail e : Program σ ε α) := fun s => refl_of R s

theorem frames_lift (o : Outcome ε α) : Frames R (lift o : Program σ ε α) :=
  fun s => refl_of R s

theorem frames_bind {p : Program σ ε α} {f : α → Program σ ε β}
    (hp : Frames R p) (hf : ∀ a, Frames R (f a)) : Frames R (p >>= f) := by
  intro s
  have h := hp s
  rw [bind_apply]
  split
  · rename_i a t ht
    rw [ht] at h
    exact trans_of R h (hf a t)
  · rename_i e t ht
    rw [ht] at h
    exact h

theorem frames_after {p : Program σ ε α} {f : α → Program σ ε β} (hf : ∀ a, Frames R (f a)) (s : σ) :
    R (p s).2 ((p >>= f) s).2 := by
  rw [bind_apply]
  split
  · rename_i a t ht
    rw [ht]
    exact hf a t
  · rename_i e t ht
    rw [ht]
    exact refl_of R t

theorem evaluate_eq_ok {p : Program σ ε α} {f : ε → ε'} {s t : σ} {a : α}
    (h : Outcome.mapFault f (evaluate p s) = .ok (a, t)) : p s = (.ok a, t) := by
  unfold evaluate at h
  split at h
  · rename_i hp
    cases h
    exact hp
  · cases h

theorem Frames.rel {R : σ → σ → Prop} {p : Program σ ε α} (hp : Frames R p) {s t : σ} {result : Outcome ε α}
    (h : p s = (result, t)) : R s t := by
  have hrun := hp s
  rw [h] at hrun
  exact hrun

theorem Frames.evaluate {R : σ → σ → Prop} {p : Program σ ε α} (hp : Frames R p) {f : ε → ε'}
    {s t : σ} {a : α} (h : Outcome.mapFault f (evaluate p s) = .ok (a, t)) : R s t :=
  hp.rel (evaluate_eq_ok h)

end Frames

theorem frames_get_bind {R : σ → σ → Prop} {f : σ → Program σ ε α} (h : ∀ s, R s (f s s).2) :
    Frames R (get >>= f) := h

theorem Frames.mono {R S : σ → σ → Prop} {p : Program σ ε α} (hp : Frames R p)
    (h : ∀ s t, R s t → S s t) : Frames S p := fun s => h s _ (hp s)

theorem frames_modify {R : σ → σ → Prop} {f : σ → σ} (h : ∀ s, R s (f s)) :
    Frames R (modify f : Program σ ε Unit) := h

theorem frames_zoom {R : σ → σ → Prop} {S : τ → τ → Prop} {view : σ → τ} {put : τ → σ → σ}
    {wrap : ε → ε'} {p : Program τ ε α} (hp : Frames S p)
    (h : ∀ s t, S (view s) t → R s (put t s)) : Frames R (zoom view put wrap p) :=
  fun s => h s _ (hp (view s))

theorem frames_attempt {R : σ → σ → Prop} {p : Program σ ε α} (hp : Frames R p) :
    Frames R (attempt p : Program σ ε' (Except ε α)) := by
  intro s
  have h := hp s
  unfold attempt
  split <;> simp_all

section NoPanic

def Outcome.NoPanic (o : Outcome ε α) : Prop := o ≠ .error .panic

theorem Outcome.noPanic_ok (a : α) : Outcome.NoPanic (.ok a : Outcome ε α) := nofun

theorem Outcome.noPanic_error (e : ε) : Outcome.NoPanic (.error (.error e) : Outcome ε α) := nofun

theorem Outcome.NoPanic.bind {o : Outcome ε α} {f : α → Outcome ε β} (ho : o.NoPanic)
    (hf : ∀ a, o = .ok a → (f a).NoPanic) : Outcome.NoPanic (o >>= f) := by
  cases o with
  | ok a => exact hf a rfl
  | error fault => exact fun h => ho (congrArg _ (Except.error.inj h))

theorem Outcome.NoPanic.mapFault {o : Outcome ε α} (ho : o.NoPanic) (f : ε → ε') :
    (o.mapFault f).NoPanic := by
  match o, ho with
  | .ok a, _ => exact Outcome.noPanic_ok a
  | .error (.error e), _ => exact Outcome.noPanic_error (f e)
  | .error .panic, ho => exact absurd rfl ho

def Total (p : Program σ ε α) : Prop := ∀ s, (p s).1.NoPanic

theorem total_pure (a : α) : Total (pure a : Program σ ε α) := fun _ => Outcome.noPanic_ok a

theorem total_get : Total (get : Program σ ε σ) := fun s => Outcome.noPanic_ok s

theorem total_modify (f : σ → σ) : Total (modify f : Program σ ε Unit) := fun _ => Outcome.noPanic_ok ()

theorem total_fail (e : ε) : Total (fail e : Program σ ε α) := fun _ => Outcome.noPanic_error e

theorem total_lift {o : Outcome ε α} (h : o.NoPanic) : Total (lift o : Program σ ε α) := fun _ => h

theorem total_zoom {view : σ → τ} {put : τ → σ → σ} {wrap : ε → ε'} {p : Program τ ε α} (hp : Total p) :
    Total (zoom view put wrap p) := fun s => (hp (view s)).mapFault wrap

theorem total_bind {p : Program σ ε α} {f : α → Program σ ε β} (hp : Total p)
    (hf : ∀ s a, (p s).1 = .ok a → Total (f a)) : Total (p >>= f) := by
  intro s
  have hrun := hp s
  rw [bind_apply]
  split
  · rename_i a t hok
    exact hf s a (congrArg Prod.fst hok) t
  · rename_i fault t herror
    rw [herror] at hrun
    exact fun h => hrun (congrArg _ (Except.error.inj h))

end NoPanic

section Atomic

/-- A run that fails leaves the state as it was. -/
def Atomic (p : Program σ ε α) (s : σ) : Prop := ∀ fault t, p s = (.error fault, t) → t = s

def Succeeds (p : Program σ ε α) (s : σ) : Prop := ∃ a t, p s = (.ok a, t)

variable {p : Program σ ε α} {f : α → Program σ ε β} {s t : σ} {a : α}

theorem Succeeds.atomic (h : Succeeds p s) : Atomic p s := by
  obtain ⟨a, t, hrun⟩ := h
  intro fault u hfault
  cases hrun.symm.trans hfault

theorem atomic_of_result {result : Outcome ε α} (h : p s = (result, s)) : Atomic p s :=
  fun _ _ hfault => (Prod.mk.inj (h.symm.trans hfault)).2.symm

theorem atomic_get_bind {f : σ → Program σ ε α} (h : Atomic (f s) s) : Atomic (get >>= f) s := h

theorem atomic_lift_bind {o : Outcome ε α} (h : ∀ a, o = .ok a → Atomic (f a) s) : Atomic (lift o >>= f) s := by
  cases o with
  | ok a => exact h a rfl
  | error e => exact atomic_of_result rfl

theorem succeeds_or_fault (p : Program σ ε α) (s : σ) : Succeeds p s ∨ ∃ fault t, p s = (.error fault, t) := by
  cases hrun : p s with
  | mk result t =>
    cases result with
    | ok a => exact .inl ⟨a, t, hrun⟩
    | error fault => exact .inr ⟨fault, t, rfl⟩

theorem succeeds_get_bind {f : σ → Program σ ε α} : Succeeds (get >>= f) s ↔ Succeeds (f s) s := Iff.rfl

theorem succeeds_bind_iff {p : Program σ ε Unit} {f : Unit → Program σ ε β} :
    Succeeds (p >>= f) s ↔ Succeeds p s ∧ Succeeds (f ()) (p s).2 := by
  unfold Succeeds
  rw [bind_apply]
  rcases hrun : p s with ⟨fault | a, t⟩
  · simp
  · simp

/-- Of two atomic programs, the second must not fail once the first has changed
the state. -/
theorem atomic_bind_iff (hp : Atomic p s) (hf : ∀ a t, p s = (.ok a, t) → Atomic (f a) t) :
    Atomic (p >>= f) s ↔ ∀ a t, p s = (.ok a, t) → t = s ∨ Succeeds (f a) t := by
  constructor
  · intro h a t hrun
    rcases succeeds_or_fault (f a) t with hsucceeds | ⟨fault, u, hfault⟩
    · exact .inr hsucceeds
    · have hu := h fault u ((bind_ok hrun).trans hfault)
      exact .inl ((hf a t hrun fault u hfault).symm.trans hu)
  · intro h fault u hfault
    rcases succeeds_or_fault p s with ⟨a, t, hrun⟩ | ⟨fault', t, hrun⟩
    · rw [bind_ok hrun] at hfault
      rcases h a t hrun with rfl | ⟨b, v, hsucceeds⟩
      · exact hf a _ hrun fault u hfault
      · cases hsucceeds.symm.trans hfault
    · rw [bind_error hrun] at hfault
      obtain ⟨-, rfl⟩ := Prod.mk.inj hfault
      exact hp fault' _ hrun

/-- The program succeeds exactly under a condition, and otherwise changes nothing. -/
structure Guarded (C : Prop) (p : Program σ ε α) (s : σ) : Prop where
  succeeds : C → Succeeds p s
  refuses : ¬ C → ∃ fault, p s = (.error fault, s)

variable {C D : Prop}

theorem guarded_pure (hC : C) (a : α) (s : σ) : Guarded C (pure a : Program σ ε α) s :=
  ⟨fun _ => ⟨a, s, rfl⟩, fun h => absurd hC h⟩

theorem Guarded.succeeds_iff (h : Guarded C p s) : Succeeds p s ↔ C := by
  refine ⟨fun ⟨a, t, hrun⟩ => ?_, h.succeeds⟩
  by_contra hC
  obtain ⟨fault, hfault⟩ := h.refuses hC
  cases hrun.symm.trans hfault

theorem Guarded.atomic (h : Guarded C p s) : Atomic p s := by
  by_cases hC : C
  · exact (h.succeeds hC).atomic
  · obtain ⟨fault, hfault⟩ := h.refuses hC
    exact atomic_of_result hfault

theorem Guarded.bind (h : Guarded C p s) (hf : ∀ a t, p s = (.ok a, t) → Succeeds (f a) t) :
    Guarded C (p >>= f) s where
  succeeds hC := by
    obtain ⟨a, t, hrun⟩ := h.succeeds hC
    obtain ⟨b, u, hrest⟩ := hf a t hrun
    exact ⟨b, u, (bind_ok hrun).trans hrest⟩
  refuses hC := by
    obtain ⟨fault, hfault⟩ := h.refuses hC
    exact ⟨fault, bind_error hfault⟩

theorem Guarded.atomic_bind_iff (hp : Guarded C p s) (hmoves : ∀ a t, p s = (.ok a, t) → t ≠ s)
    (hf : ∀ a t, p s = (.ok a, t) → Guarded D (f a) t) : Atomic (p >>= f) s ↔ (C → D) := by
  rw [Computation.atomic_bind_iff hp.atomic fun a t hrun => (hf a t hrun).atomic]
  constructor
  · intro h hC
    obtain ⟨a, t, hrun⟩ := hp.succeeds hC
    have hsucceeds := (h a t hrun).resolve_left (hmoves a t hrun)
    exact (hf a t hrun).succeeds_iff.mp hsucceeds
  · intro h a t hrun
    have hC := hp.succeeds_iff.mp ⟨a, t, hrun⟩
    exact .inr ((hf a t hrun).succeeds (h hC))

end Atomic

end Lib.Computation
