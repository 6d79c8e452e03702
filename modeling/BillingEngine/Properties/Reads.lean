import BillingEngine.Properties.AppendOnly
import BillingEngine.Properties.Quota
import BillingEngine.Properties.QuotaStatus

open Sessions QuotaEnforcer

namespace Router

variable {db db' db₁ db₂ db₃ db₄ : Database} {o o' : OrderBy} {tenantId : Uuid}
  {status : QuotaStatus}

-- The statements of `GET /v1/tenants/{tenant_id}/quota` look at the subscriptions of the tenant, at
-- the plans and at the usage of the tenant.

theorem getQuotaStatusAcross_unknown (ht : db₁.tenant? tenantId = none) :
    getQuotaStatusAcross db₁ db₂ db₃ db₄ o tenantId = .error unknownTenant := by
  rw [getQuotaStatusAcross, ht]

theorem getQuotaStatusAcross_eq (h₁ : (db₁.tenant? tenantId).isSome)
    (h₄ : (db₄.tenant? tenantId).isSome)
    (hs : getLockedActiveSubscription db₂ o tenantId = getLockedActiveSubscription db₄ o' tenantId)
    (hp : db₃.plans = db₄.plans) :
    getQuotaStatusAcross db₁ db₂ db₃ db₄ o tenantId = getQuotaStatus db₄ o' tenantId := by
  obtain ⟨tenant, ht⟩   := Option.isSome_iff_exists.mp h₁
  obtain ⟨tenant', ht'⟩ := Option.isSome_iff_exists.mp h₄
  have hi : tenant.id = tenantId   := Rows.find?_key_mem ht |>.right
  have hi' : tenant'.id = tenantId := Rows.find?_key_mem ht' |>.right
  simp only [getQuotaStatusAcross, getQuotaStatus, ht, ht', currentSubscription_eq, periodUsage_eq,
    Database.plan?, hp, hi, hi', hs]

end Router

-- With one subscription for each tenant, it does not matter how ties are broken.
theorem Database.OneEach.selected {db : Database} {o o' : OrderBy} {tenantId : Uuid}
    (h : db.OneEach) :
    getLockedActiveSubscription db o tenantId = getLockedActiveSubscription db o' tenantId := by
  cases hl : getLockedActiveSubscription db o tenantId <;>
    cases hl' : getLockedActiveSubscription db o' tenantId
  case none.none => rfl
  case none.some =>
    have hm := Rows.Descending.head_mem hl'
    simp [Rows.Descending.head_none.mp hl] at hm
  case some.none =>
    have hm := Rows.Descending.head_mem hl
    simp [Rows.Descending.head_none.mp hl'] at hm
  case some.some =>
    obtain ⟨hm, he⟩   := mem_activeSubscriptions.mp <| Rows.Descending.head_mem hl
    obtain ⟨hm', he'⟩ := mem_activeSubscriptions.mp <| Rows.Descending.head_mem hl'
    rw [h.unique hm hm' (he.left.trans he'.left.symm)]

-- A later status of the same subscription in the same period.
structure QuotaStatus.Precedes (status status' : QuotaStatus) : Prop where
  tenant : status'.tenantId = status.tenantId
  plan   : status'.planName = status.planName
  start  : status'.periodStart = status.periodStart
  stop   : status'.periodEnd = status.periodEnd
  limit  : ∀ type, status'.limit type = status.limit type
  used   : ∀ type, status.used type ≤ status'.used type

-- The usage shown, for the subscription that is selected.
theorem Router.getQuotaStatus_precedes {db db' : Database} {o o' : OrderBy} {tenantId : Uuid}
    {status : QuotaStatus} (hd : db.Continues db') (ht : (db'.tenant? tenantId).isSome)
    (hs : getLockedActiveSubscription db' o' tenantId = getLockedActiveSubscription db o tenantId)
    (hl : ∀ {subscription plan}, getLockedActiveSubscription db' o' tenantId = some subscription →
      db'.plan? subscription.planId = some plan → ∀ type,
        usedQuantity db'.usageEvents tenantId subscription.currentPeriodStart
          subscription.currentPeriodEnd type ≤ plan.limit type)
    (h : getQuotaStatus db o tenantId = .ok status) :
    ∃ status', getQuotaStatus db' o' tenantId = .ok status' ∧ status.Precedes status' := by
  obtain ⟨tenant', ht'⟩ := Option.isSome_iff_exists.mp ht
  have hi' : tenant'.id = tenantId := Rows.find?_key_mem ht' |>.right
  unfold getQuotaStatus getQuotaStatusAcross at h
  split at h <;> try contradiction
  case h_2 tenant ht =>
    have hi : tenant.id = tenantId := Rows.find?_key_mem ht |>.right
    simp only [currentSubscription_eq, periodUsage_eq, hi] at h
    split at h <;> try contradiction
    case h_3 subscription hsub =>
      split at h <;> try contradiction
      case h_2 plan hp =>
        obtain ⟨rfl, hr⟩ := renderQuotaStatus_ok.mp h
        replace hsub := Except.ok.inj hsub
        have hp' : db'.plan? subscription.planId = some plan := by
          rw [Database.plan?, hd.plans]
          exact hp
        simp only [getQuotaStatus, getQuotaStatusAcross, ht', currentSubscription_eq,
          periodUsage_eq, hi', hs, hsub, hp']
        refine ⟨_, renderQuotaStatus_ok.mpr ⟨rfl, fun type => ?_⟩, rfl, rfl, rfl, rfl,
          fun type => by cases type <;> rfl, fun type => ?_⟩
        case refine_1 =>
          -- The usage is within the limit, which has been shown before.
          have hlimit := (hr type).right
          have hused := hl (hs.trans hsub) hp' type
          cases type <;> exact ⟨hlimit.of_le hused, hlimit⟩
        case refine_2 => cases type <;> exact hd.total_le

namespace Execution

variable {plans : List Plan} {s s' s₁ s₂ s₃ s₄ : State} {o o' : OrderBy} {tenantId : Uuid}

-- Without webhooks, the active subscriptions of a tenant never change.
theorem NoWebhook.activeSubscriptions {db : Database} (h₀ : NoWebhook.Reach (.boot db) s)
    (h : NoWebhook.Reach s s') (ht : (s.db.tenant? tenantId).isSome) :
    (s'.db.tenant? tenantId).isSome ∧
      QuotaEnforcer.activeSubscriptions s'.db tenantId =
        QuotaEnforcer.activeSubscriptions s.db tenantId := by
  induction h
  case refl => exact ⟨ht, rfl⟩
  case tail hr _ hst hi =>
    obtain ⟨ht, ha⟩ := hi
    replace hst := Step.of_step hst
    refine ⟨hst.tenant?_isSome ht, .trans ?_ ha⟩
    cases hst.commits
    case none hd      => rw [hd]
    case usage hd     => rw [hd]; rfl
    case webhook      => exact (no_webhook (h₀.trans hr) _ _ _ ‹_›).elim
    case operation ho => exact Operation.activeSubscriptions ho ht

-- What a tenant is shown while requests are going on.
structure QuotaShown (s₁ s₄ : State) (tenantId : Uuid) (o : OrderBy)
    (response : Except HttpResponse QuotaStatus) : Prop where
  -- The four reads add up to the state of a single moment.
  snapshot : response = Router.getQuotaStatus s₁.db o tenantId ∨
    response = Router.getQuotaStatus s₄.db o tenantId
  limited : ∀ status, response = .ok status → ∀ type, status.used type ≤ status.limit type
  -- Nobody is shown less afterwards.
  monotone : ∀ status, response = .ok status → ∀ {s' : State}, NoWebhook.Reach s₄ s' → ∀ o',
    ∃ status', Router.getQuotaStatus s'.db o' tenantId = .ok status' ∧ status.Precedes status'

theorem selected_limited (h : NoWebhook.Reach (.boot <| .migrated plans) s)
    {subscription : Subscription} {plan : Plan}
    (hs : getLockedActiveSubscription s.db o tenantId = some subscription)
    (hp : s.db.plan? subscription.planId = some plan) (type : EventType) :
    usedQuantity s.db.usageEvents tenantId subscription.currentPeriodStart
      subscription.currentPeriodEnd type ≤ plan.limit type := by
  obtain ⟨hm, he⟩ := mem_activeSubscriptions.mp <| Rows.Descending.head_mem hs
  rw [← he.left]
  exact within_limits h hm hp type

theorem shown_limited (h : NoWebhook.Reach (.boot <| .migrated plans) s) {status : QuotaStatus}
    (hs : Router.getQuotaStatus s.db o tenantId = .ok status) (type : EventType) :
    status.used type ≤ status.limit type := by
  obtain ⟨_, tenant, subscription, plan, _, hshows⟩ := Router.getQuotaStatus_ok hs
  rw [hshows.used, hshows.limit]
  exact selected_limited h hshows.selected hshows.found type

theorem shown_monotone (h : NoWebhook.Reach (.boot <| .migrated plans) s)
    (h' : NoWebhook.Reach s s') (ht : (s.db.tenant? tenantId).isSome) {status : QuotaStatus}
    (hs : Router.getQuotaStatus s.db o tenantId = .ok status) :
    ∃ status', Router.getQuotaStatus s'.db o' tenantId = .ok status' ∧
      status.Precedes status' := by
  obtain ⟨ht', ha⟩ := NoWebhook.activeSubscriptions h h' ht
  refine Router.getQuotaStatus_precedes (continues h') ht' ?_ (selected_limited <| h.trans h') hs
  have hl : getLockedActiveSubscription s'.db o tenantId =
      getLockedActiveSubscription s.db o tenantId := by
    rw [getLockedActiveSubscription, ha, ← getLockedActiveSubscription]
  exact (one_each (h.trans h')).selected.trans hl

-- The status of a quota is consistent, although its statements do not share a snapshot.
theorem quota_shown (h₁ : NoWebhook.Reach (.boot <| .migrated plans) s₁)
    (h₂ : NoWebhook.Reach s₁ s₂) (h₃ : NoWebhook.Reach s₂ s₃) (h₄ : NoWebhook.Reach s₃ s₄) :
    QuotaShown s₁ s₄ tenantId o <|
      Router.getQuotaStatusAcross s₁.db s₂.db s₃.db s₄.db o tenantId := by
  have h : NoWebhook.Reach s₁ s₄ := h₂.trans <| h₃.trans h₄
  by_cases ht : (s₁.db.tenant? tenantId).isSome
  case neg =>
    have hn := Option.not_isSome_iff_eq_none.mp ht
    rw [Router.getQuotaStatusAcross_unknown hn]
    refine ⟨.inl ?_, nofun, nofun⟩
    rw [Router.getQuotaStatus, Router.getQuotaStatusAcross_unknown hn]
  case pos =>
    obtain ⟨_, ha₂⟩  := NoWebhook.activeSubscriptions h₁ h₂ ht
    obtain ⟨ht₄, ha₄⟩ := NoWebhook.activeSubscriptions h₁ h ht
    have hl : getLockedActiveSubscription s₂.db o tenantId =
        getLockedActiveSubscription s₄.db o tenantId := by
      rw [getLockedActiveSubscription, ha₂, ← ha₄, ← getLockedActiveSubscription]
    have hp : s₃.db.plans = s₄.db.plans := (continues h₄).plans.symm
    rw [Router.getQuotaStatusAcross_eq ht ht₄ hl hp]
    refine ⟨.inr rfl, fun status hs => shown_limited (h₁.trans h) hs, fun status hs s' hr o' => ?_⟩
    exact shown_monotone (h₁.trans h) hr ht₄ hs

-- A call that is committed before the last statement is shown.
theorem quota_shown_call : ∃ (s₁ s₃ s₄ : State) (response : Except HttpResponse QuotaStatus),
    Router.getQuotaStatusAcross s₁.db s₁.db s₃.db s₄.db (.stable _) 1 = response ∧
    response.toOption.map (·.apiCallsUsed) = some 1 ∧
    response ≠ Router.getQuotaStatus s₁.db (.stable _) 1 ∧
    QuotaShown s₁ s₄ 1 (.stable _) response := by
  let request : UsageRequest := .apiCall 1 "a" (by decide)
  let as : List Label := [.env (.createTenant 1 { name := "acme" } 0)]
  have h₁ : Transition.run engine.step (.boot <| .migrated Plan.seeds) as |>.isSome := rfl
  let s₁ : State := (Transition.run engine.step (.boot <| .migrated Plan.seeds) as).get rfl
  have h₃ : Transition.run engine.step s₁ (checkLabels 10 request (.stable _) 1) |>.isSome := rfl
  let s₃ : State := (Transition.run engine.step s₁ (checkLabels 10 request (.stable _) 1)).get rfl
  have h₄ : Transition.run engine.step s₃ (commitLabels 10 2) |>.isSome := rfl
  let s₄ : State := (Transition.run engine.step s₃ (commitLabels 10 2)).get rfl
  have hr₁ : NoWebhook.Reach _ s₁ := .of_run_all (Option.some_get h₁).symm <| by
    simp [as, NoWebhook]
  have hr₃ : NoWebhook.Reach s₁ s₃ := .of_run_all (Option.some_get h₃).symm <| by
    simp [checkLabels, NoWebhook]
  have hr₄ : NoWebhook.Reach s₃ s₄ := .of_run_all (Option.some_get h₄).symm <| by
    simp [commitLabels, NoWebhook]
  let used (response : Except HttpResponse QuotaStatus) : Option Nat :=
    response.toOption.map (·.apiCallsUsed)
  have hu₁ : used (Router.getQuotaStatus s₁.db (.stable _) 1) = some 0 := by decide +kernel
  have hu₄ : used (Router.getQuotaStatusAcross s₁.db s₁.db s₃.db s₄.db (.stable _) 1) = some 1 := by
    decide +kernel
  refine ⟨s₁, s₃, s₄, _, rfl, hu₄, fun h => ?_, quota_shown hr₁ .refl hr₃ hr₄⟩
  simp [h, hu₁] at hu₄

end Execution
