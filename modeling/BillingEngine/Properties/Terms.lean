import BillingEngine.Properties.Answers
import BillingEngine.Properties.Reads

open Sessions QuotaEnforcer StripeWebhookHandler

-- The status of a tenant on the given plan whose period has begun at `start`.
def Database.termStatus (db : Database) (tenantId : Uuid) (start : Instant) (plan : Plan) :
    QuotaStatus where
  tenantId     := tenantId
  planName     := plan.name
  apiCallsUsed := usedQuantity db.usageEvents tenantId start (start + thirtyDays) .apiCall
  apiCallLimit := plan.apiCallLimit
  tokensUsed   := usedQuantity db.usageEvents tenantId start (start + thirtyDays) .aiToken
  tokenLimit   := plan.tokenLimit
  periodStart  := start
  periodEnd    := start + thirtyDays

-- The tenant has a single subscription, which `POST /v1/tenants` has inserted at the time `start`.
structure Database.Term (db : Database) (tenantId : Uuid) (start : Instant) (plan : Plan) :
    Prop where
  tenant : (db.tenant? tenantId).isSome
  found  : db.plan? plan.id = some plan
  row    : ∃ id,
    ⟨id, tenantId, none, plan.id, .active, start, start + thirtyDays⟩ ∈ db.subscriptions
  single : db.OneEach

namespace Database.Term

variable {db db' : Database} {tenantId : Uuid} {start : Instant} {plan : Plan}

theorem subscription (h : db.Term tenantId start plan) {s : Subscription}
    (hs : s ∈ db.subscriptions) (ht : s.tenantId = tenantId) : s.planId = plan.id ∧
      s.currentPeriodStart = start ∧ s.currentPeriodEnd = start + thirtyDays := by
  obtain ⟨sid, hm⟩ := h.row
  cases h.single.unique hs hm ht
  exact ⟨rfl, rfl, rfl⟩

theorem selected (h : db.Term tenantId start plan) (o : OrderBy) : ∃ s,
    getLockedActiveSubscription db o tenantId = some s ∧ s.planId = plan.id ∧
      s.currentPeriodStart = start ∧ s.currentPeriodEnd = start + thirtyDays := by
  obtain ⟨sid, hm⟩ := h.row
  cases hl : getLockedActiveSubscription db o tenantId
  case none =>
    have hn := Rows.Descending.head_none.mp hl
    have ha := mem_activeSubscriptions.mpr ⟨hm, rfl, rfl⟩
    simp [hn] at ha
  case some s =>
    obtain ⟨hs, he⟩ := mem_activeSubscriptions.mp <| Rows.Descending.head_mem hl
    exact ⟨s, rfl, h.subscription hs he.left⟩

-- This is what the tenant is shown.
theorem quotaStatus (h : db.Term tenantId start plan)
    (hv : (db.termStatus tenantId start plan).Renderable) (o : OrderBy) :
    Router.getQuotaStatus db o tenantId = .ok (db.termStatus tenantId start plan) := by
  obtain ⟨tenant, ht⟩ := Option.isSome_iff_exists.mp h.tenant
  have hi : tenant.id = tenantId := Rows.find?_key_mem ht |>.right
  obtain ⟨s, hs, hp, hstart, hstop⟩ := h.selected o
  simp only [Router.getQuotaStatus, Router.getQuotaStatusAcross, ht, Router.currentSubscription_eq,
    Router.periodUsage_eq, hi, hs, hp, h.found, hstart, hstop]
  exact Router.renderQuotaStatus_ok.mpr ⟨rfl, hv⟩

end Database.Term

namespace Execution

variable {plans : List Plan} {db : Database} {s s' s₀ s₁ : State} {tenantId : Uuid}
  {start : Instant} {payload : TenantCreate} {plan : Plan}

-- Without webhooks, no row of `subscriptions` is ever changed.
theorem Step.subscriptions_grow {l : Label} (h : Step s l s')
    (hn : ∀ id event p, s.session id ≠ some (.webhook event p)) :
    s.db.subscriptions <+: s'.db.subscriptions := by
  cases h.commits
  case none hd  => exact hd ▸ List.prefix_rfl
  case usage hd => exact hd ▸ List.prefix_rfl
  case webhook hs _ _ => exact (hn _ _ _ hs).elim
  case operation ho =>
    generalize s'.db = db' at ho ⊢
    cases Operation.Applies.of_apply ho
    case createTenant h =>
      obtain ⟨_, _, rfl⟩ := Router.createTenant_ok h
      exact List.prefix_append ..
    all_goals exact List.prefix_rfl

theorem subscriptions_grow (h : engine.Reach s s')
    (hn : ∀ id event p, s'.session id ≠ some (.webhook event p)) :
    s.db.subscriptions <+: s'.db.subscriptions := by
  induction h
  case refl => exact List.prefix_rfl
  case tail s₁ _ _ _ _ hst hi =>
    have hn' id event p : s₁.session id ≠ some (.webhook event p) := by
      intro hs
      have hr : engine.Reach s₁ _ := .single trivial hst
      obtain ⟨_, hs'⟩ := webhook_persists hr hs
      exact hn id _ _ hs'
    exact (hi hn').trans <| (Step.of_step hst).subscriptions_grow hn'

theorem term_created (hp : plans.map (·.id) |>.Nodup)
    (h₀ : NoWebhook.Reach (.boot <| .migrated plans) s₀)
    (hc : engine.step s₀ (.env <| .createTenant tenantId payload start) = some s₁) :
    ∃ plan ∈ plans, plan.name = payload.planType.value ∧ s₁.db.Term tenantId start plan := by
  have hok : NoWebhook s₀ (.env <| .createTenant tenantId payload start) := trivial
  have h₁ : NoWebhook.Reach (.boot <| .migrated plans) s₁ := h₀.tail hok hc
  have ho := one_each h₁
  have hplans : s₁.db.plans = plans := continues h₁ |>.plans
  cases Step.of_step hc
  case operation db ha =>
    cases Operation.Applies.of_apply ha
    case createTenant hf h =>
      obtain ⟨plan, hplan, rfl⟩ := Router.createTenant_ok h
      obtain ⟨hm, hn⟩ := Rows.of_filter_singleton hplan
      refine ⟨plan, hplans ▸ hm, hn, ?_, ?_, ?_, ho⟩
      case refine_1 => simp [Database.tenant?_isSome]
      case refine_2 => exact Rows.find?_key (hplans ▸ hp) hm
      case refine_3 => exact ⟨_, List.mem_append_right _ <| List.mem_singleton_self _⟩

theorem term_later (ht : s₁.db.Term tenantId start plan)
    (h₁ : NoWebhook.Reach (.boot <| .migrated plans) s₁) (h : NoWebhook.Reach s₁ s) :
    s.db.Term tenantId start plan where
  tenant := NoWebhook.activeSubscriptions h₁ h ht.tenant |>.left
  found  := by
    rw [Database.plan?, (continues h).plans]
    exact ht.found
  row :=
    have ⟨sid, hm⟩ := ht.row
    ⟨sid, (subscriptions_grow h.weaken <| no_webhook <| h₁.trans h).subset hm⟩
  single := one_each <| h₁.trans h

theorem term_renderable (hf : (Database.migrated plans).LimitsFit)
    (h : NoWebhook.Reach (.boot <| .migrated plans) s) (ht : s.db.Term tenantId start plan) :
    (s.db.termStatus tenantId start plan).Renderable := by
  obtain ⟨subscription, hs, hp, hstart, hstop⟩ := ht.selected <| .stable _
  intro type
  have hlimit : Printable (plan.limit type) := by
    have hl := limits_fit hf h.weaken plan (Rows.find?_key_mem ht.found).left type
    exact printable_of_lt <| hl.trans (by decide)
  have hused := selected_limited h hs (hp ▸ ht.found) type
  rw [hstart, hstop] at hused
  cases type <;> exact ⟨hlimit.of_le hused, hlimit⟩

-- What a tenant has got from `POST /v1/tenants`.
structure TermEnforced (plans : List Plan) (s : State) (tenantId : Uuid) (start : Instant)
    (plan : Plan) : Prop where
  shown : ∀ o, Router.getQuotaStatus s.db o tenantId = .ok (s.db.termStatus tenantId start plan)
  -- A request that runs alone, under a key that has not been used. Its quantity can be printed.
  served : ∀ {request : UsageRequest}, request.payload.tenantId = tenantId →
    request.settings.Bounded → Printable (Usage.requested request) →
    s.db.record? request.idempotencyKey = none → ¬s.db.HasKey request.idempotencyKey →
    ∃ tenant, s.db.tenant? tenantId = some tenant ∧
      ∀ {o id now timestamp}, (s.db.termStatus tenantId start plan).Enforced tenant request now
        (Router.recordUsage s.db o id request now timestamp).1
  -- The requests that have run so far, in whatever interleaving.
  created : ∀ {id request response}, s.Answered id request response →
    request.payload.tenantId = tenantId → request.settings.Bounded → response.statusCode = 201 →
    ∃ now db, Took engine (.boot <| .migrated plans) s id (.usage <| .check now) db ∧
      now < start + thirtyDays

theorem term_admits (ht : s.db.Term tenantId start plan)
    (hf : (Database.migrated plans).LimitsFit) (h : NoWebhook.Reach (.boot <| .migrated plans) s)
    {id request response} (ha : s.Answered id request response)
    (hi : request.payload.tenantId = tenantId) (hb : request.settings.Bounded)
    (hcode : response.statusCode = 201) :
    ∃ now db, Took engine (.boot <| .migrated plans) s id (.usage <| .check now) db ∧
      now < start + thirtyDays := by
  have hj := justified (.empty rfl rfl) hf hb .refl rfl h.weaken ha
  cases hj
  case created db sub _ now read hl hn _ _ _ =>
    refine ⟨now, db, read, ?_⟩
    obtain ⟨s₁, s₂, _, rfl, hst, hr⟩ := read
    have hr : engine.Reach s₁ s := .trans (.single trivial hst) hr
    have hm : sub ∈ s.db.subscriptions :=
      (subscriptions_grow hr <| no_webhook h).subset <| Rows.find?_key_mem hl.row |>.left
    exact (ht.subscription hm <| hl.eligible.left.trans hi).right.right ▸ hn
  case refused hr => cases hr <;> cases hcode
  all_goals cases hcode

theorem term_enforced (hp : plans.map (·.id) |>.Nodup) (hf : (Database.migrated plans).LimitsFit)
    (h₀ : NoWebhook.Reach (.boot <| .migrated plans) s₀)
    (hc : engine.step s₀ (.env <| .createTenant tenantId payload start) = some s₁)
    (h : NoWebhook.Reach s₁ s) : ∃ plan ∈ plans, plan.name = payload.planType.value ∧
      TermEnforced plans s tenantId start plan := by
  obtain ⟨plan, hm, hn, ht⟩ := term_created hp h₀ hc
  have hok : NoWebhook s₀ (.env <| .createTenant tenantId payload start) := trivial
  have h₁ : NoWebhook.Reach (.boot <| .migrated plans) s₁ := h₀.tail hok hc
  replace ht := term_later ht h₁ h
  have hv : (s.db.termStatus tenantId start plan).Renderable := term_renderable hf (h₁.trans h) ht
  refine ⟨plan, hm, hn, ht.quotaStatus hv, ?served, term_admits ht hf <| h₁.trans h⟩
  case served =>
    intro request hi hb hprint hr hk
    subst hi
    obtain ⟨tenant, htenant⟩ := Option.isSome_iff_exists.mp ht.tenant
    refine ⟨tenant, htenant, fun {o} _ _ _ => ?_⟩
    obtain ⟨_, tenant', _, _, htenant', hs⟩ := Router.getQuotaStatus_ok <| ht.quotaStatus hv o
    cases htenant.symm.trans htenant'
    exact hs.enforced hv htenant hr hk (limits_fit hf (h₁.trans h).weaken) hb fun _ => hprint

-- A call at the beginning of the period, and another one after its end.
theorem term_enforced_call : ∃ (s : State) (plan : Plan),
    s.db.usageEvents.map (·.id) = [10] ∧
    (Router.recordUsage s.db (.stable _) 11 (.apiCall 1 "b" (by decide)) thirtyDays
      thirtyDays).1.statusCode = 402 ∧
    plan.name = "free" ∧ TermEnforced Plan.seeds s 1 0 plan := by
  let request : UsageRequest := .apiCall 1 "a" (by decide)
  have h₁ : engine.step (.boot <| .migrated Plan.seeds)
    (.env <| .createTenant 1 { name := "acme" } 0) |>.isSome := rfl
  let s₁ : State := (engine.step (.boot <| .migrated Plan.seeds) <|
    .env <| .createTenant 1 { name := "acme" } 0).get h₁
  have h : Transition.run engine.step s₁
    (checkLabels 10 request (.stable _) 1 ++ commitLabels 10 2) |>.isSome := rfl
  have hr : NoWebhook.Reach s₁ _ := .of_run_all (Option.some_get h).symm <| by
    simp [checkLabels, commitLabels, NoWebhook]
  have hp : Plan.seeds.map (·.id) |>.Nodup := by simp [Plan.seeds]
  obtain ⟨plan, _, hn, ht⟩ :=
    term_enforced hp (.seeds rfl) .refl (Option.some_get h₁).symm hr
  exact ⟨_, plan, rfl, rfl, hn, ht⟩

end Execution
