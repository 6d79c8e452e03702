-- The rates of `app.core.config.Settings`, in micro-cents per token.
structure Settings where
  rateInput       : Int := 30
  rateCachedInput : Int := 8
  rateOutput      : Int := 150
  rateReasoning   : Int := 150
  deriving DecidableEq, Repr

-- No rate is negative, or higher than a cent for a token.
structure Settings.Bounded (s : Settings) : Prop where
  input       : 0 ≤ s.rateInput ∧ s.rateInput ≤ 10000
  cachedInput : 0 ≤ s.rateCachedInput ∧ s.rateCachedInput ≤ 10000
  output      : 0 ≤ s.rateOutput ∧ s.rateOutput ≤ 10000
  reasoning   : 0 ≤ s.rateReasoning ∧ s.rateReasoning ≤ 10000

theorem Settings.bounded_default : ({} : Settings).Bounded where
  input       := by decide
  cachedInput := by decide
  output      := by decide
  reasoning   := by decide

-- Negative counts are refused by `__post_init__`.
structure TokenUsage where
  inputTokens       : Nat := 0
  cachedInputTokens : Nat := 0
  outputTokens      : Nat := 0
  reasoningTokens   : Nat := 0
  deriving DecidableEq, Repr

def TokenUsage.totalTokens (usage : TokenUsage) : Nat :=
  usage.inputTokens + usage.cachedInputTokens + usage.outputTokens + usage.reasoningTokens

namespace PricingCalculator

def microCentsPerCent : Int :=
  10000

def calculateCostMicroCents (s : Settings) (usage : TokenUsage) : Int :=
  usage.inputTokens * s.rateInput +
  usage.cachedInputTokens * s.rateCachedInput +
  usage.outputTokens * s.rateOutput +
  usage.reasoningTokens * s.rateReasoning

-- As the divisor is positive, `/` rounds down like Python's `//`.
def calculateCostCents (s : Settings) (usage : TokenUsage) : Int :=
  calculateCostMicroCents s usage / microCentsPerCent

def calculateApiCallCostCents : Int :=
  0

-- Below a cent for a token, the cost in cents is at most the number of tokens.

theorem rate_bounds {rate : Int} (n : Nat) (h : 0 ≤ rate ∧ rate ≤ 10000) :
    0 ≤ n * rate ∧ n * rate ≤ n * 10000 :=
  have hn : 0 ≤ (n : Int) := Int.natCast_nonneg n
  ⟨Int.mul_nonneg hn h.left, Int.mul_le_mul_of_nonneg_left h.right hn⟩

variable {s : Settings} {usage : TokenUsage}

theorem calculateCostMicroCents_bounds (h : s.Bounded) : 0 ≤ calculateCostMicroCents s usage ∧
    calculateCostMicroCents s usage ≤ usage.totalTokens * microCentsPerCent := by
  have hi := rate_bounds usage.inputTokens h.input
  have hc := rate_bounds usage.cachedInputTokens h.cachedInput
  have ho := rate_bounds usage.outputTokens h.output
  have hr := rate_bounds usage.reasoningTokens h.reasoning
  simp only [calculateCostMicroCents, TokenUsage.totalTokens, microCentsPerCent]
  omega

theorem calculateCostCents_bounds (h : s.Bounded) :
    0 ≤ calculateCostCents s usage ∧ calculateCostCents s usage ≤ usage.totalTokens := by
  have hb : _ ∧ calculateCostMicroCents s usage ≤ _ := calculateCostMicroCents_bounds h
  simp only [calculateCostCents, microCentsPerCent] at hb ⊢
  omega

end PricingCalculator
