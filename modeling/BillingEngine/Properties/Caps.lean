import BillingEngine.Properties.Billing
import BillingEngine.Properties.Quota

open Sessions PricingCalculator

-- No rate is above `rate`.
structure Settings.Within (s : Settings) (rate : Nat) : Prop where
  input       : s.rateInput ≤ rate
  cachedInput : s.rateCachedInput ≤ rate
  output      : s.rateOutput ≤ rate
  reasoning   : s.rateReasoning ≤ rate

-- The pinned rates.
theorem Settings.within_default : ({} : Settings).Within 150 where
  input       := by decide
  cachedInput := by decide
  output      := by decide
  reasoning   := by decide

namespace PricingCalculator

variable {settings : Settings} {usage : TokenUsage} {rate : Nat}

theorem calculateCostMicroCents_le (h : settings.Within rate) :
    calculateCostMicroCents settings usage ≤ usage.totalTokens * rate := by
  have scaled (n : Nat) {r : Int} (hr : r ≤ rate) : n * r ≤ n * rate :=
    Int.mul_le_mul_of_nonneg_left hr <| Int.natCast_nonneg n
  have hi := scaled usage.inputTokens h.input
  have hc := scaled usage.cachedInputTokens h.cachedInput
  have ho := scaled usage.outputTokens h.output
  have hr := scaled usage.reasoningTokens h.reasoning
  simp only [calculateCostMicroCents, TokenUsage.totalTokens, Nat.cast_add, Int.add_mul]
  omega

end PricingCalculator

namespace UsageEvent

variable {settings : Settings} {e : UsageEvent} {events : List UsageEvent} {rate : Nat}

theorem Accounts.cost_le (h : e.Accounts settings) (hs : settings.Within rate) :
    e.costCents * microCentsPerCent ≤ e.tokens.totalTokens * rate := by
  rw [h.cost, calculateCostCents]
  exact Int.ediv_mul_le _ (by decide) |>.trans <| calculateCostMicroCents_le hs

-- Whatever the settings were at the time of an event.
theorem costs_le (h : ∀ e ∈ events, ∃ settings : Settings, e.Accounts settings ∧
      settings.Within rate) :
    (events.map (·.costCents)).sum * microCentsPerCent ≤
      Rows.total (·.totalQuantity) (·.eventType = .aiToken) events * rate := by
  induction events
  case nil => simp [Rows.total]
  case cons e events hi =>
    obtain ⟨⟨settings, he, hs⟩, h⟩ := List.forall_mem_cons.mp h
    have hc := he.cost_le hs
    have hi := hi h
    rw [Rows.total_cons, he.metered, List.map_cons, List.sum_cons, Nat.cast_add, Int.add_mul,
      Int.add_mul]
    omega

end UsageEvent

namespace Execution

variable {plans : List Plan} {s : State} {rate : Nat} {sub : Subscription} {plan : Plan}

-- The plan caps the bill of a period, however many requests run at once.
theorem bill_capped (h : NoWebhook.Reach (.boot <| .migrated plans) s)
    (hs : ∀ {id request p}, s.session id = some (.usage request p) → request.settings.Within rate)
    (hm : sub ∈ s.db.subscriptions) (hp : s.db.plan? sub.planId = some plan) :
    ((s.db.invoiced sub.tenantId sub.currentPeriodStart sub.currentPeriodEnd).map
      (·.costCents)).sum ≤ plan.tokenLimit * rate / microCentsPerCent := by
  let events := s.db.invoiced sub.tenantId sub.currentPeriodStart sub.currentPeriodEnd
  have ha : ∀ e ∈ events, ∃ settings : Settings, e.Accounts settings ∧ settings.Within rate := by
    intro e he
    obtain ⟨request, ho, ha⟩ := event_accounts ⟨rfl, rfl⟩ h.weaken <| List.mem_of_mem_filter he
    obtain ⟨_, _, ho, _⟩ := ho.told
    exact ⟨request.settings, ha, hs ho⟩
  have hw : Rows.total (·.totalQuantity) (·.eventType = .aiToken) events ≤ plan.tokenLimit :=
    Database.invoiced_metered _ ▸ within_limits h hm hp .aiToken
  refine Int.le_ediv_of_mul_le (by decide) ?_
  calc
    _ ≤ ((Rows.total (·.totalQuantity) (·.eventType = .aiToken) events : Nat) : Int) * rate :=
      UsageEvent.costs_le ha
    _ ≤ plan.tokenLimit * rate := by exact_mod_cast Nat.mul_le_mul_right rate hw

-- A tenant on the free plan has used up all of its tokens.
theorem bill_capped_free : ∃ s : State, (s.db.invoiced 1 0 10).map (·.costCents) = [300] ∧
    ((s.db.invoiced 1 0 StripeWebhookHandler.thirtyDays).map (·.costCents)).sum ≤ 1500 := by
  let as := .env (.createTenant 1 { name := "acme" } 0) ::
    checkLabels 10 (.aiToken 1 "a" 100000 (by decide)) (.stable _) 1 ++ commitLabels 10 2
  have hrun : (Transition.run engine.step (.boot <| .migrated Plan.seeds) as).map
      (fun s => ((s.db.invoiced 1 0 10).map (·.costCents), s.db.subscriptions, s.db.plan? 1)) =
      some ([300], [⟨1, 1, none, 1, .active, 0, StripeWebhookHandler.thirtyDays⟩],
        some ⟨1, "free", 1000, 100000⟩) := by decide +kernel
  obtain ⟨s, hs, heq⟩ := Option.map_eq_some_iff.mp hrun
  simp only [Prod.mk.injEq] at heq
  obtain ⟨hcosts, hsubs, hplan⟩ := heq
  have hr : NoWebhook.Reach (.boot <| .migrated Plan.seeds) s :=
    .of_run_all hs <| by simp [as, checkLabels, commitLabels, NoWebhook]
  have hpriced : Transition.Reach engine.step (Priced {}) (.boot <| .migrated Plan.seeds) s :=
    .of_run_all hs <| by simp [as, checkLabels, commitLabels, Priced, UsageRequest.aiToken]
  have hwithin {id request p} (hs : s.session id = some (.usage request p)) :
      request.settings.Within 150 :=
    Priced.settings_eq hpriced hs ▸ Settings.within_default
  have hcap := bill_capped hr hwithin (hsubs ▸ List.mem_singleton_self _) hplan
  exact ⟨s, hcosts, hcap⟩

end Execution
