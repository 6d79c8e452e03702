import BillingEngine.Properties.Quota

open Sessions QuotaEnforcer

namespace Execution

variable {db : Database} {s s' : State} {id : Uuid} {request : UsageRequest}
  {check : QuotaCheckResult} {event : UsageEvent} {record : IdempotencyRecord}

-- The commit from `s` to `s'` of an admitted request shows in the rollup that its check has used,
-- and in no other one.
structure State.Counts (s s' : State) (request : UsageRequest) (check : QuotaCheckResult) :
    Prop where
  window : s'.db.subscription? check.subscription.id = some check.subscription
  own    : ∀ type, usedQuantity s'.db.usageEvents request.payload.tenantId
    check.subscription.currentPeriodStart check.subscription.currentPeriodEnd type =
      check.used type + if type = request.payload.eventType then Usage.requested request else 0
  others : ∀ {tenantId}, tenantId ≠ request.payload.tenantId → ∀ periodStart periodEnd type,
    usedQuantity s'.db.usageEvents tenantId periodStart periodEnd type =
      usedQuantity s.db.usageEvents tenantId periodStart periodEnd type

theorem commit_db
    (hs : s.session id = some (.usage request <| .committing skipped check event record))
    (hst : engine.step s (.act id <| .usage .commit) = some s') :
    s'.db = (Write.usage event record).apply s.db := by
  have hst' := step_usage hs (Usage.Next.commit.to_next) trivial
  rw [Option.some.inj <| hst.symm.trans hst']
  rfl

-- An admitted request is counted if and only if its event falls into the period of the check.
theorem admitted_counted (hw : db.WellFormed) (h : Undisturbed.Reach (.boot db) s)
    (hs : s.session id = some (.usage request <| .committing skipped check event record))
    (hst : engine.step s (.act id <| .usage .commit) = some s') :
    s.Counts s' request check ↔ Usage.requested request = 0 ∨
      check.subscription.currentPeriodStart ≤ event.timestamp ∧
      event.timestamp < check.subscription.currentPeriodEnd := by
  have hd := commit_db hs hst
  obtain ⟨_, ho, _⟩ := locals h.weaken hs
  have hroll := rollups_current hw h hs rfl
  have hused type : usedQuantity s'.db.usageEvents request.payload.tenantId
      check.subscription.currentPeriodStart check.subscription.currentPeriodEnd type =
      check.used type + if Counted request.payload.tenantId check.subscription.currentPeriodStart
        check.subscription.currentPeriodEnd type event then Usage.requested request else 0 := by
    rw [hd, Write.apply, usedQuantity_append, hroll, ho.quantity]
  constructor
  case mp =>
    rintro ⟨_, hown, _⟩
    have hq := hown request.payload.eventType
    rw [hused, Nat.add_left_cancel_iff, if_pos rfl] at hq
    by_cases hc : Counted request.payload.tenantId check.subscription.currentPeriodStart
      check.subscription.currentPeriodEnd request.payload.eventType event
    case pos => exact .inr ⟨hc.right.left, hc.right.right.left⟩
    case neg => exact .inl <| by rw [← hq, if_neg hc]
  case mpr =>
    intro hc
    constructor
    case window =>
      rw [hd]
      exact locked_row h.weaken hs rfl
    case own =>
      intro type
      rw [hused]
      by_cases htype : type = request.payload.eventType
      case neg =>
        rw [if_neg fun hc => htype <| hc.right.right.right.symm.trans ho.type, if_neg htype]
      case pos =>
        cases hc
        case inl hc => simp [hc]
        case inr hc =>
          rw [if_pos htype, if_pos ⟨ho.tenant, hc.left, hc.right, ho.type.trans htype.symm⟩]
    case others =>
      intro tenantId ht periodStart periodEnd type
      rw [hd, Write.apply, usedQuantity_append, Nat.add_eq_left,
        if_neg fun hc => ht <| hc.left.symm.trans ho.tenant]

theorem admitted_counted_in_period : ∃ (s s' : State) (request : UsageRequest)
    (check : QuotaCheckResult), Usage.requested request = 1 ∧ s.Counts s' request check := by
  let as := .env (.createTenant 1 { name := "acme" } 0) ::
    checkLabels 10 (.apiCall 1 "a" (by decide)) (.stable _) 1 ++ (commitLabels 10 2).take 2
  have hs : Transition.run engine.step (.boot <| .migrated Plan.seeds) as |>.isSome := rfl
  have hr : NoWebhook.Reach _ _ := .of_run_all (Option.some_get hs).symm <| by
    simp [as, checkLabels, commitLabels, NoWebhook]
  let s : State := (Transition.run engine.step (.boot <| .migrated Plan.seeds) as).get hs
  have hp : s.session 10 = some (.usage (.apiCall 1 "a" (by decide)) <| .committing _ _ _ _) := rfl
  exact ⟨_, _, _, _, rfl, admitted_counted .migrated (NoWebhook.undisturbed hr) hp rfl
    |>.mpr <| .inr ⟨by decide, by decide⟩⟩

-- The period ends between the two clock readings.
theorem admitted_not_counted : ∃ (s s' : State) (request : UsageRequest)
    (skipped : List Nat) (check : QuotaCheckResult) (event : UsageEvent)
    (record : IdempotencyRecord), engine.Reach (.boot <| .migrated Plan.seeds) s ∧
    s.session 10 = some (.usage request <| .committing skipped check event record) ∧
    engine.step s (.act 10 <| .usage .commit) = some s' ∧ ¬s.Counts s' request check := by
  let as := .env (.createTenant 1 { name := "acme" } 0) ::
    checkLabels 10 (.apiCall 1 "a" (by decide)) (.stable _) (StripeWebhookHandler.thirtyDays - 1) ++
    (commitLabels 10 StripeWebhookHandler.thirtyDays).take 2
  have hs : Transition.run engine.step (.boot <| .migrated Plan.seeds) as |>.isSome := rfl
  refine ⟨_, _, _, _, _, _, _, .get_run hs, rfl, rfl, fun h => ?_⟩
  have := h.own .apiCall
  contradiction

end Execution
