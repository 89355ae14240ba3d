import CoreVpn.Lib.Computation

namespace Lib.Simulation

open Lib.Computation

variable {σ σ' τ τ' ε ε' δ δ' α α' β β' : Type}

/-- Whenever the first program returns, so does the second from a related state.
What they return is related, and so are the states they leave. -/
def Simulates (R : σ → τ → Prop) (Q : α → β → Prop) (p : Program σ ε α) (q : Program τ δ β) : Prop :=
  ∀ ⦃s t⦄, R s t → ∀ ⦃a s'⦄, p s = (.ok a, s') → ∃ b t', q t = (.ok b, t') ∧ Q a b ∧ R s' t'

section Rules

variable {R : σ → τ → Prop} {Q : α → β → Prop}

theorem simulates_pure {a : α} {b : β} (h : Q a b) :
    Simulates R Q (pure a : Program σ ε α) (pure b : Program τ δ β) := by
  rintro s t hst _ _ ⟨⟩
  exact ⟨b, t, rfl, h, hst⟩

theorem simulates_get : Simulates R R (get : Program σ ε σ) (get : Program τ δ τ) := by
  rintro s t hst _ _ ⟨⟩
  exact ⟨t, t, rfl, hst, hst⟩

theorem simulates_modify {f : σ → σ} {g : τ → τ} (h : ∀ s t, R s t → R (f s) (g t)) :
    Simulates R Eq (modify f : Program σ ε Unit) (modify g : Program τ δ Unit) := by
  rintro s t hst _ _ ⟨⟩
  exact ⟨(), g t, rfl, rfl, h s t hst⟩

theorem simulates_lift (o : Outcome ε α) : Simulates R Eq (lift o : Program σ ε α) (lift o : Program τ ε α) := by
  intro s t hst a s' h
  rw [lift_apply] at h
  cases h
  exact ⟨a, t, rfl, rfl, hst⟩

theorem simulates_fail (e : ε) (q : Program τ δ β) : Simulates R Q (fail e : Program σ ε α) q := by
  rintro s t hst _ _ ⟨⟩

theorem simulates_bind {Q' : α' → β' → Prop} {p : Program σ ε α} {q : Program τ δ β}
    {f : α → Program σ ε α'} {g : β → Program τ δ β'} (hp : Simulates R Q p q)
    (hf : ∀ a b, Q a b → Simulates R Q' (f a) (g b)) : Simulates R Q' (p >>= f) (q >>= g) := by
  intro s t hst c u hrun
  obtain ⟨a, s', ha, hrest⟩ := bind_eq_ok hrun
  obtain ⟨b, t', hb, hab, hst'⟩ := hp hst ha
  rw [bind_ok hb]
  exact hf a b hab hst' hrest

theorem simulates_zoom {I : σ' → τ' → Prop} {view : σ → σ'} {put : σ' → σ → σ} {view' : τ → τ'}
    {put' : τ' → τ → τ} {wrap : ε → ε'} {wrap' : δ → δ'} {p : Program σ' ε α} {q : Program τ' δ β}
    (hview : ∀ s t, R s t → I (view s) (view' t))
    (hput : ∀ s t s' t', R s t → I s' t' → R (put s' s) (put' t' t)) (hp : Simulates I Q p q) :
    Simulates R Q (zoom view put wrap p) (zoom view' put' wrap' q) := by
  intro s t hst a u hrun
  obtain ⟨s', ha, rfl⟩ := zoom_eq_ok hrun
  obtain ⟨b, t', hb, hab, hst'⟩ := hp (hview s t hst) ha
  refine ⟨b, put' t' t, ?_, hab, hput s t s' t' hst hst'⟩
  simp only [zoom, hb, Outcome.mapFault]

theorem simulates_refl (p : Program σ ε α) : Simulates Eq Eq p p := by
  rintro s _ rfl a s' h
  exact ⟨a, s', h, rfl, rfl⟩

theorem Simulates.evaluate {p : Program σ ε α} {q : Program τ δ β} (h : Simulates R Q p q) {s s' : σ} {t : τ} {a : α}
    (hst : R s t) (hrun : evaluate p s = .ok (a, s')) :
    ∃ b t', Lib.Computation.evaluate q t = .ok (b, t') ∧ Q a b ∧ R s' t' := by
  have hp : p s = (.ok a, s') := by
    unfold Lib.Computation.evaluate at hrun
    split at hrun
    · rename_i hp
      cases hrun
      exact hp
    · cases hrun
  obtain ⟨b, t', hb, hab, hst'⟩ := h hst hp
  exact ⟨b, t', by rw [Lib.Computation.evaluate, hb], hab, hst'⟩

theorem Simulates.mono {Q' : α → β → Prop} {p : Program σ ε α} {q : Program τ δ β} (h : Simulates R Q p q)
    (hQ : ∀ a b, Q a b → Q' a b) : Simulates R Q' p q := by
  intro s t hst a s' hrun
  obtain ⟨b, t', hb, hab, hst'⟩ := h hst hrun
  exact ⟨b, t', hb, hQ a b hab, hst'⟩

end Rules

/-- Whatever the state, the program returns, and moves the state along `R`. -/
def Moves (R : σ → σ → Prop) (p : Program σ ε α) : Prop := ∀ s, ∃ a t, p s = (.ok a, t) ∧ R s t

section Moves

variable {R : σ → σ → Prop} [IsPreorder σ R]

theorem moves_pure (a : α) : Moves R (pure a : Program σ ε α) := fun s => ⟨a, s, rfl, refl_of R s⟩

theorem moves_get : Moves R (get : Program σ ε σ) := fun s => ⟨s, s, rfl, refl_of R s⟩

theorem moves_bind {p : Program σ ε α} {f : α → Program σ ε β} (hp : Moves R p) (hf : ∀ a, Moves R (f a)) :
    Moves R (p >>= f) := by
  intro s
  obtain ⟨a, t, ha, hst⟩ := hp s
  obtain ⟨b, u, hb, htu⟩ := hf a t
  exact ⟨b, u, (bind_ok ha).trans hb, trans_of R hst htu⟩

end Moves

theorem moves_modify {R : σ → σ → Prop} {f : σ → σ} (h : ∀ s, R s (f s)) :
    Moves R (modify f : Program σ ε Unit) := fun s => ⟨(), f s, rfl, h s⟩

theorem moves_zoom {R : σ → σ → Prop} {R' : τ → τ → Prop} {view : σ → τ} {put : τ → σ → σ} {wrap : ε → ε'}
    {p : Program τ ε α} (hput : ∀ s t, R' (view s) t → R s (put t s)) (hp : Moves R' p) :
    Moves R (zoom view put wrap p) := by
  intro s
  obtain ⟨a, t, ha, hst⟩ := hp (view s)
  refine ⟨a, put t s, ?_, hput s t hst⟩
  simp only [zoom, ha, Outcome.mapFault]

theorem simulates_of_moves {R : σ → τ → Prop} {A : σ → σ → Prop} {B : τ → τ → Prop} {p : Program σ ε α}
    {q : Program τ δ β} (hp : Moves A p) (hq : Moves B q)
    (h : ∀ s s' t t', R s t → A s s' → B t t' → R s' t') : Simulates R (fun _ _ => True) p q := by
  intro s t hst a s' ha
  obtain ⟨a', s'', ha', hs⟩ := hp s
  obtain ⟨b, t', hb, ht⟩ := hq t
  rw [ha] at ha'
  cases ha'
  exact ⟨b, t', hb, trivial, h s s' t t' hst hs ht⟩

end Lib.Simulation
