import Mathlib.Logic.Function.Basic
import BillingEngine.Library.Transition

open Function

-- Stores whose entries are written once, and never changed afterwards.
namespace WriteOnce

abbrev Store (κ β : Type) :=
  κ → Option β

-- `m'` has at least the entries of `m`.
def Extends (m m' : Store κ β) : Prop :=
  ∀ k v, m k = some v → m' k = some v

inductive Step [DecidableEq κ] (m : Store κ β) : Store κ β → Prop
  | stutter : Step m m
  | write {k v} (free : m k = none) : Step m (update m k <| some v)

variable {m m₁ m₂ m₃ : Store κ β} {k : κ} {v v' : β}

theorem Extends.refl : Extends m m :=
  fun _ _ h => h

theorem Extends.trans (h₁ : Extends m₁ m₂) (h₂ : Extends m₂ m₃) : Extends m₁ m₃ :=
  fun k v h => h₂ k v <| h₁ k v h

theorem Step.extends [DecidableEq κ] (h : Step m₁ m₂) : Extends m₁ m₂ := by
  intro k v hk
  cases h
  case stutter => exact hk
  case write k' _ free =>
    rw [update_of_ne, hk]
    rintro rfl
    simp [hk] at free

-- A system whose states are abstracted to a store.
theorem reach_extends [DecidableEq κ] {σ α : Type} {step : σ → α → Option σ} {ok : σ → α → Prop}
    {s s' : σ} (store : σ → Store κ β)
    (refines : ∀ {s₁ a s₂}, Transition.Reach step ok s s₁ → step s₁ a = some s₂ →
      Step (store s₁) (store s₂))
    (h : Transition.Reach step ok s s') : Extends (store s) (store s') := by
  induction h
  case refl         => exact .refl
  case tail h _ hs hi => exact hi.trans (refines h hs).extends

end WriteOnce
