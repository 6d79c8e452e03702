import BillingEngine.Library.Transition

-- Forward simulations between two systems, where a step of the first one is matched by any number
-- of steps of the second one.
namespace Transition

variable {σ τ α β γ : Type} {step : σ → α → Option σ} {ok : σ → α → Prop} {s₀ s s' : σ}
  {as : List α} {out : α → List γ} {spec : τ → β → Option τ} {out' : β → List γ} {R : σ → τ → Prop}
  {t : τ}

-- In runs from `s₀`, the steps of the first system preserve `R`, and those of the second one that
-- match them show the same to the outside.
structure Simulates (step : σ → α → Option σ) (ok : σ → α → Prop) (out : α → List γ) (s₀ : σ)
    (spec : τ → β → Option τ) (out' : β → List γ) (R : σ → τ → Prop) : Prop where
  step : ∀ {s a s' t}, Reach step ok s₀ s → R s t → ok s a → step s a = some s' →
    ∃ bs t', run spec t bs = some t' ∧ bs.flatMap out' = out a ∧ R s' t'

theorem Simulates.path (hR : Simulates step ok out s₀ spec out' R) (h₀ : Reach step ok s₀ s)
    (h : Path step ok s as s') (ht : R s t) :
    ∃ bs t', run spec t bs = some t' ∧ bs.flatMap out' = as.flatMap out ∧ R s' t' := by
  induction h
  case nil => exact ⟨[], t, rfl, rfl, ht⟩
  case snoc h hok hs hi =>
    have ⟨bs, t₁, hr₁, ho₁, ht₁⟩ := hi
    have ⟨cs, t₂, hr₂, ho₂, ht₂⟩ := hR.step (h₀.trans h.reach) ht₁ hok hs
    refine ⟨bs ++ cs, t₂, run_append_some.mpr ⟨t₁, hr₁, hr₂⟩, ?_, ht₂⟩
    simp [ho₁, ho₂]

end Transition
