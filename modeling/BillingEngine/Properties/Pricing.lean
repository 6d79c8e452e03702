import BillingEngine.Library.Floor
import BillingEngine.Services.Pricing

open PricingCalculator

namespace TokenUsage

-- The sum of all the usages, field by field.
def sum (usages : List TokenUsage) : TokenUsage where
  inputTokens       := usages.map (·.inputTokens) |>.sum
  cachedInputTokens := usages.map (·.cachedInputTokens) |>.sum
  outputTokens      := usages.map (·.outputTokens) |>.sum
  reasoningTokens   := usages.map (·.reasoningTokens) |>.sum

end TokenUsage

namespace PricingCalculator

variable {s : Settings} {usages : List TokenUsage} {groups : List (List TokenUsage)}

-- In micro-cents, costs add up exactly.
theorem calculateCostMicroCents_sum : calculateCostMicroCents s (.sum usages) =
    (usages.map <| calculateCostMicroCents s).sum := by
  induction usages
  case nil => simp [TokenUsage.sum, calculateCostMicroCents]
  case cons usage usages hi =>
    rw [List.map_cons, List.sum_cons, ← hi]
    simp only [calculateCostMicroCents, TokenUsage.sum, List.map_cons, List.sum_cons, Nat.cast_add]
    ring

-- The costs in micro-cents of the usages in each group.
def microCents (s : Settings) (groups : List (List TokenUsage)) : List (List Int) :=
  groups.map (·.map <| calculateCostMicroCents s)

theorem calculateCostCents_sum : calculateCostCents s (.sum usages) =
    (usages.map <| calculateCostMicroCents s).sum / microCentsPerCent := by
  rw [calculateCostCents, calculateCostMicroCents_sum]

theorem map_calculateCostCents : usages.map (calculateCostCents s) =
    (usages.map <| calculateCostMicroCents s).map (· / microCentsPerCent) := by
  rw [List.map_map]
  rfl

theorem map_calculateCostCents_sum : (groups.map fun group => calculateCostCents s (.sum group)) =
    (microCents s groups).map fun group => group.sum / microCentsPerCent := by
  simp only [microCents, List.map_map, calculateCostCents_sum]
  rfl

theorem flatten_microCents :
    (microCents s groups).flatten = groups.flatten.map (calculateCostMicroCents s) :=
  List.map_flatten.symm

-- What is charged for the usages one by one, for their groups, and for all of them at once.
structure Rounded (s : Settings) (usages : List TokenUsage) : Prop where
  atMost : (usages.map <| calculateCostCents s).sum ≤ calculateCostCents s (.sum usages)
  loss   : calculateCostCents s (.sum usages) ≤
    (usages.map <| calculateCostCents s).sum + (usages.length - 1)
  groups : ∀ groups : List (List TokenUsage), (∀ group ∈ groups, group ≠ []) →
    groups.flatten.Perm usages →
    let charged := (groups.map fun group => calculateCostCents s (.sum group)).sum
    (usages.map <| calculateCostCents s).sum ≤ charged ∧
    charged ≤ (usages.map <| calculateCostCents s).sum + (usages.length - groups.length) ∧
    charged ≤ calculateCostCents s (.sum usages)

-- Rounding down for each event never charges more, and loses less than a cent for each event.
theorem rounded (h : usages ≠ []) : Rounded s usages := by
  have hd : 0 < microCentsPerCent := by decide
  constructor
  case atMost =>
    rw [map_calculateCostCents, calculateCostCents_sum]
    exact Floor.sum_le hd
  case loss =>
    have hmicro : usages.map (calculateCostMicroCents s) ≠ [] := List.map_eq_nil_iff.not.mpr h
    have hl := Floor.le_sum hd hmicro
    rwa [List.length_map, ← map_calculateCostCents, ← calculateCostCents_sum] at hl
  case groups =>
    intro groups hg hp charged
    have hcharged : charged = _ := congrArg List.sum map_calculateCostCents_sum
    have hsum := hp.map (calculateCostCents s) |>.sum_eq
    have hall := hp.map (calculateCostMicroCents s) |>.sum_eq
    have hmicro : ∀ group ∈ microCents s groups, group ≠ [] := by
      simpa [microCents] using hg
    rw [map_calculateCostCents, ← flatten_microCents] at hsum
    rw [← flatten_microCents] at hall
    rw [hcharged, ← hsum, calculateCostCents_sum, ← hall, ← hp.length_eq]
    refine ⟨Floor.sum_le_groups hd, ?_, Floor.groups_le hd⟩
    have hl := Floor.groups_le_sum hd hmicro
    have hgroups : (microCents s groups).length = groups.length := List.length_map _
    have husages : (microCents s groups).flatten.length = groups.flatten.length := by
      rw [flatten_microCents, List.length_map]
    rwa [hgroups, husages] at hl

-- One of two events loses its part of a cent.
theorem rounded_pair :
    let usages : List TokenUsage := [{ inputTokens := 333 }, { inputTokens := 334 }]
    (usages.map <| calculateCostCents {}).sum = 1 ∧ calculateCostCents {} (.sum usages) = 2 ∧
      Rounded {} usages :=
  ⟨by decide, by decide, rounded (by simp)⟩

end PricingCalculator
