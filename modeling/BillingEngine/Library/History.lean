import BillingEngine.Library.Sessions

-- What the sessions of a run have done, and on which data.
namespace Sessions

variable {τ δ σ α ρ ω ε : Type} [DecidableEq τ] [DecidableEq ρ] {P : Program τ δ σ α ρ ω ε}
  {s₀ s s' : State τ δ σ ρ} {t : τ} {a : α} {d : δ}

-- Between `s₀` and `s`, the session `t` has taken the step `a` when the committed data was `d`.
def Took (P : Program τ δ σ α ρ ω ε) (s₀ s : State τ δ σ ρ) (t : τ) (a : α) (d : δ) : Prop :=
  ∃ s₁ s₂, P.Reach s₀ s₁ ∧ s₁.db = d ∧ P.step s₁ (.act t a) = some s₂ ∧ P.Reach s₂ s

theorem Took.later (h : Took P s₀ s t a d) (hr : P.Reach s s') : Took P s₀ s' t a d :=
  have ⟨s₁, s₂, h₁, hd, hs, h₂⟩ := h
  ⟨s₁, s₂, h₁, hd, hs, h₂.trans hr⟩

theorem Took.last (h : P.Reach s₀ s) (hs : P.step s (.act t a) = some s') :
    Took P s₀ s' t a s.db :=
  ⟨s, s', h, rfl, hs, .refl⟩

-- The rule for what the local state of a session says about the past of this session. It may rely
-- on the steps that the session has taken, but not on the steps of others.
theorem Program.history_reach {I : (α → δ → Prop) → σ → Prop}
    (mono : ∀ {took took' : α → δ → Prop} {l}, (∀ {a d}, took a d → took' a d) →
      I took l → I took' l)
    (starts : ∀ {took l}, P.initial t l → I took l)
    (acts : ∀ {took s l a l' e}, P.Reach s₀ s → s.session t = some l →
      P.next s.db t l a = some (l', e) → took a s.db → I took l → I took l')
    (h : P.Reach s₀ s) (idle : s₀.session t = none) :
    ∀ {l}, s.session t = some l → I (Took P s₀ s t) l := by
  induction h
  case refl => intro l hl; cases hl.symm.trans idle
  case tail s s' a h _ hs hi =>
    intro l' hl'
    have hlater {a d} (ht : Took P s₀ s t a d) : Took P s₀ s' t a d :=
      ht.later <| .single trivial hs
    rcases (step_iff.mp hs).session_cases hl' with ⟨_, hl⟩ | ⟨hl', _⟩ | ⟨a, l, e, rfl, hl, hn, _⟩
    · exact mono hlater <| hi hl
    · exact starts hl'
    · exact acts h hl hn (.last h hs) <| mono hlater <| hi hl

end Sessions
