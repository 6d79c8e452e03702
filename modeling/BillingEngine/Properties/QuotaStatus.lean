import BillingEngine.Properties.Overflow
import BillingEngine.Routers.Quota

open QuotaEnforcer MeteringEngine

-- The response is the one that follows from the quota shown to the tenant.
structure QuotaStatus.Enforced (status : QuotaStatus) (tenant : Tenant) (request : UsageRequest)
    (now : Instant) (response : HttpResponse) : Prop where
  created : response.statusCode = 201 ↔ tenant.status = .active ∧ now < status.periodEnd ∧
    status.used request.payload.eventType + Usage.requested request ≤
      status.limit request.payload.eventType
  exceeded : tenant.status = .active → now < status.periodEnd →
    status.used request.payload.eventType + Usage.requested request >
      status.limit request.payload.eventType →
    response.statusCode = 429 ∧ ∃ detail, response.body = .detail detail ∧
      detail.used = status.used request.payload.eventType ∧
      detail.limit = status.limit request.payload.eventType
  required : tenant.status ≠ .active ∨ status.periodEnd ≤ now → response.statusCode = 402

namespace Router

variable {db : Database} {o : OrderBy} {id : Uuid} {request : UsageRequest} {tenant : Tenant}
  {subscription : Subscription} {plan : Plan} {status : QuotaStatus} {now timestamp : Instant}

-- What is shown to a tenant is about the subscription that its requests will lock.
structure Shows (db : Database) (o : OrderBy) (tenant : Tenant) (subscription : Subscription)
    (plan : Plan) (status : QuotaStatus) : Prop where
  selected : getLockedActiveSubscription db o tenant.id = some subscription
  found    : db.plan? subscription.planId = some plan
  stop     : status.periodEnd = subscription.currentPeriodEnd
  limit    : ∀ type, status.limit type = plan.limit type
  used     : ∀ type, status.used type = usedQuantity db.usageEvents tenant.id
              subscription.currentPeriodStart subscription.currentPeriodEnd type

theorem getQuotaStatus_ok {tenantId : Uuid} (h : getQuotaStatus db o tenantId = .ok status) :
    status.Renderable ∧ ∃ tenant subscription plan, db.tenant? tenantId = some tenant ∧
      Shows db o tenant subscription plan status := by
  unfold getQuotaStatus getQuotaStatusAcross at h
  split at h <;> try contradiction
  case h_2 tenant ht =>
    simp only [currentSubscription_eq] at h
    split at h <;> try contradiction
    case h_3 subscription hs =>
      split at h <;> try contradiction
      case h_2 plan hp =>
        obtain ⟨rfl, hr⟩ := renderQuotaStatus_ok.mp h
        refine ⟨hr, tenant, subscription, plan, ht, Except.ok.inj hs, hp, rfl, ?_, ?_⟩
        case refine_1 => intro type; cases type <;> rfl
        case refine_2 => intro type; cases type <;> simp only [periodUsage_eq] <;> rfl

theorem getQuotaStatus_shows (ht : db.tenant? request.payload.tenantId = some tenant)
    (hs : getLockedActiveSubscription db o tenant.id = some subscription)
    (hp : db.plan? subscription.planId = some plan)
    (hprint : ∀ type, Printable (usedQuantity db.usageEvents tenant.id
      subscription.currentPeriodStart subscription.currentPeriodEnd type) ∧
        Printable (plan.limit type)) :
    ∃ status, getQuotaStatus db o request.payload.tenantId = .ok status := by
  simp only [getQuotaStatus, getQuotaStatusAcross, ht, currentSubscription_eq, hs, hp,
    periodUsage_eq]
  refine ⟨_, renderQuotaStatus_ok.mpr ⟨rfl, fun type => ?_⟩⟩
  cases type <;> exact hprint _

-- An existing tenant is not found only if it has no active subscription.
theorem getQuotaStatus_notFound {response : HttpResponse} (ht : db.tenant? tenantId = some tenant)
    (h : getQuotaStatus db o tenantId = .error response) (hs : response.statusCode = 404) :
    getLockedActiveSubscription db o tenant.id = none := by
  simp only [getQuotaStatus, getQuotaStatusAcross, ht, currentSubscription_eq] at h
  cases hl : getLockedActiveSubscription db o tenant.id
  case none => rfl
  case some subscription =>
    simp only [hl, renderQuotaStatus] at h
    split at h
    case h_1 => cases h; cases hs
    case h_2 => split at h <;> cases h; cases hs

theorem recordUsage_refused {error : QuotaError}
    (ht : db.tenant? request.payload.tenantId = some tenant)
    (hr : db.record? request.idempotencyKey = none)
    (hc : checkAndReserve db o tenant request.payload.eventType (Usage.requested request) now =
      .error error) : (recordUsage db o id request now timestamp).1 = quotaResponse error := by
  simp only [recordUsage, ht]
  rw [recordUsage_error hr hc]
  rfl

-- What is admitted under an unused key can also be stored.
theorem recordUsage_admitted {check : QuotaCheckResult}
    (ht : db.tenant? request.payload.tenantId = some tenant)
    (hr : db.record? request.idempotencyKey = none) (hk : ¬db.HasKey request.idempotencyKey)
    (hf : db.LimitsFit) (hb : request.settings.Bounded)
    (hc : checkAndReserve db o tenant request.payload.eventType (Usage.requested request) now =
      .ok check) : (recordUsage db o id request now timestamp).1.statusCode = 201 := by
  have hs : (Usage.event id request tenant timestamp).Storable := admitted_storable hf hb hc |>.left
  rw [Usage.event] at hs
  rw [Usage.requested] at hc
  simp only [recordUsage, ht, MeteringEngine.recordUsage, hr, hc, hs, hk, not_true_eq_false,
    if_false]
  rfl

-- A request that is refused for its quantity is told so, if the message can be built.
theorem Shows.enforced (h : Shows db o tenant subscription plan status) (hv : status.Renderable)
    (ht : db.tenant? request.payload.tenantId = some tenant)
    (hr : db.record? request.idempotencyKey = none) (hk : ¬db.HasKey request.idempotencyKey)
    (hf : db.LimitsFit) (hb : request.settings.Bounded)
    (hprint : Exceeds db o tenant request.payload.eventType (Usage.requested request) now
      subscription plan → Printable (Usage.requested request)) :
    status.Enforced tenant request now (recordUsage db o id request now timestamp).1 := by
  have blocked {error} (hc : checkAndReserve db o tenant request.payload.eventType
      (Usage.requested request) now = .error (.paymentRequired error)) :
      (recordUsage db o id request now timestamp).1.statusCode = 402 := by
    rw [recordUsage_refused ht hr hc]
    rfl
  by_cases ha : tenant.status = .active
  case neg =>
    have hc := blocked <| if_pos ha
    exact ⟨iff_of_false (by simp [hc]) (by simp [ha]), fun h => absurd h ha, fun _ => hc⟩
  case pos =>
    by_cases hn : now < status.periodEnd
    case neg =>
      have hn' : now ≥ subscription.currentPeriodEnd := h.stop ▸ not_lt.mp hn
      have hc := blocked (by simp [checkAndReserve, ha, h.selected, checkSubscription, hn']; rfl)
      exact ⟨iff_of_false (by simp [hc]) (by simp [hn]), fun _ h => absurd h hn, fun _ => hc⟩
    case pos =>
      have hn' : now < subscription.currentPeriodEnd := h.stop ▸ hn
      by_cases hq : status.used request.payload.eventType + Usage.requested request ≤
        status.limit request.payload.eventType
      case pos =>
        have hcompare := @checkAndReserve_compares db tenant subscription
          request.payload.eventType (Usage.requested request) now o plan ha h.selected hn' h.found
        obtain ⟨check, hc⟩ := hcompare.left (by rwa [← h.used, ← h.limit])
        have hcode : (recordUsage db o id request now timestamp).1.statusCode = 201 :=
          recordUsage_admitted ht hr hk hf hb hc
        refine ⟨iff_of_true hcode ⟨ha, hn, hq⟩, fun _ _ h => absurd hq (not_le.mpr h), ?_⟩
        exact fun h => h.elim (absurd ha) (absurd hn <| not_lt.mpr ·)
      case neg =>
        have hx : Exceeds db o tenant request.payload.eventType (Usage.requested request) now
          subscription plan := ⟨ha, h.selected, hn', h.found, by
            rw [← h.used, ← h.limit]
            exact not_le.mp hq⟩
        have hcheck := hx.checkAndReserve
        rw [← h.used, ← h.limit, quotaExceededError_eq (hv _).left (hprint hx) (hv _).right]
          at hcheck
        have hc : (recordUsage db o id request now timestamp).1 = _ :=
          recordUsage_refused ht hr hcheck
        refine ⟨iff_of_false (by simp [hc, quotaResponse]) (by simp [hq]), fun _ _ _ => ?_, ?_⟩
        · exact hc ▸ ⟨rfl, _, rfl, rfl, rfl⟩
        · exact fun h => h.elim (absurd ha) (absurd hn <| not_lt.mpr ·)

-- The quota shown to the tenant of a request is the quota enforced.
structure QuotaEnforced (db : Database) (o : OrderBy) (id : Uuid) (request : UsageRequest)
    (now timestamp : Instant) : Prop where
  shown : ∀ status, getQuotaStatus db o request.payload.tenantId = .ok status →
    ∃ tenant, db.tenant? request.payload.tenantId = some tenant ∧
      status.Enforced tenant request now (recordUsage db o id request now timestamp).1
  notFound : ∀ error, getQuotaStatus db o request.payload.tenantId = .error error →
    error.statusCode = 404 → (db.tenant? request.payload.tenantId).isSome →
      (recordUsage db o id request now timestamp).1.statusCode = 402

-- The request comes to the comparison and exceeds a quota which can be shown, but its own quantity
-- is too long for the message of the refusal.
def Overlong (db : Database) (o : OrderBy) (request : UsageRequest) (now : Instant) : Prop :=
  ∃ tenant subscription plan, db.tenant? request.payload.tenantId = some tenant ∧
    Exceeds db o tenant request.payload.eventType (Usage.requested request) now subscription plan ∧
    ¬Printable (Usage.requested request) ∧
    ∀ type, Printable (usedQuantity db.usageEvents tenant.id subscription.currentPeriodStart
      subscription.currentPeriodEnd type) ∧ Printable (plan.limit type)

theorem quotaEnforced_notFound {error : HttpResponse}
    (hr : db.record? request.idempotencyKey = none)
    (h : getQuotaStatus db o request.payload.tenantId = .error error)
    (hcode : error.statusCode = 404) (hsome : (db.tenant? request.payload.tenantId).isSome) :
    (recordUsage db o id request now timestamp).1.statusCode = 402 := by
  obtain ⟨tenant, ht⟩ := Option.isSome_iff_exists.mp hsome
  have hl := getQuotaStatus_notFound ht h hcode
  have hc : ∃ reason, checkAndReserve db o tenant request.payload.eventType
      (Usage.requested request) now = .error (.paymentRequired reason) := by
    by_cases ha : tenant.status = .active
    case neg => exact ⟨_, if_pos ha⟩
    case pos => exact ⟨_, by simp [checkAndReserve, ha, hl]; rfl⟩
  obtain ⟨reason, hc⟩ := hc
  rw [recordUsage_refused ht hr hc]
  rfl

theorem QuotaEnforced.not_overlong (h : QuotaEnforced db o id request now timestamp)
    (hr : db.record? request.idempotencyKey = none) : ¬Overlong db o request now := by
  rintro ⟨tenant, subscription, plan, ht, hx, hlong, hprint⟩
  obtain ⟨status, hs⟩ := getQuotaStatus_shows ht hx.selected hx.found hprint
  obtain ⟨tenant', ht', he⟩ := h.shown status hs
  obtain ⟨_, tenant'', subscription', plan', ht'', hshows⟩ := getQuotaStatus_ok hs
  cases ht.symm.trans ht'
  cases ht.symm.trans ht''
  cases hx.selected.symm.trans hshows.selected
  cases hx.found.symm.trans hshows.found
  have hc := hx.checkAndReserve
  rw [quotaExceededError_valueError fun hprint => hlong hprint.right.left] at hc
  have hcode := he.exceeded hx.active (hshows.stop ▸ hx.current) <| by
    rw [hshows.used, hshows.limit]
    exact hx.exceeds
  rw [recordUsage_refused ht hr hc] at hcode
  cases hcode.left

-- The quota shown is the quota enforced, unless the refusal itself fails.
theorem quota_enforced (hf : db.LimitsFit) (hb : request.settings.Bounded)
    (hr : db.record? request.idempotencyKey = none) (hk : ¬db.HasKey request.idempotencyKey) :
    QuotaEnforced db o id request now timestamp ↔ ¬Overlong db o request now := by
  constructor
  case mp => exact (·.not_overlong hr)
  case mpr =>
    refine fun hlong => ⟨fun status h => ?_, fun _ => quotaEnforced_notFound hr⟩
    obtain ⟨hv, tenant, subscription, plan, ht, hs⟩ := getQuotaStatus_ok h
    refine ⟨tenant, ht, hs.enforced hv ht hr hk hf hb fun hx => not_not.mp fun hprint => ?_⟩
    refine hlong ⟨tenant, subscription, plan, ht, hx, hprint, fun type => ?_⟩
    rw [← hs.used, ← hs.limit]
    exact hv type

theorem quota_enforced_call : ∃ (db : Database) (status : QuotaStatus) (tenant : Tenant),
    getQuotaStatus db (.stable _) 1 = .ok status ∧ status.apiCallsUsed = 1 ∧
    status.Enforced tenant (.apiCall 1 "a" (by decide)) 20
      (recordUsage db (.stable _) 11 (.apiCall 1 "a" (by decide)) 20 30).1 := by
  let db : Database := { Database.migrated Plan.seeds with
    tenants       := [⟨1, "acme", .free, none, .active⟩]
    subscriptions := [⟨1, 1, none, 1, .active, 0, 100⟩]
    usageEvents   := [newUsageEvent {} 10 1 .apiCall {} "b" 10] }
  let status : QuotaStatus := ⟨1, "free", 1, 1000, 0, 100000, 0, 100⟩
  have hs : getQuotaStatus db (.stable _) 1 = .ok status := by decide
  have hk : ¬db.HasKey "a" := by decide
  have hshort : ¬Overlong db (.stable _) (.apiCall 1 "a" (by decide)) 20 :=
    fun ⟨_, _, _, _, _, hlong, _⟩ => hlong (by decide)
  obtain ⟨tenant, _, he⟩ := @quota_enforced db (.stable _) 11 (.apiCall 1 "a" (by decide)) 20 30
    (.seeds rfl) Settings.bounded_default rfl hk |>.mpr hshort |>.shown status hs
  exact ⟨db, status, tenant, hs, rfl, he⟩

-- A request that exceeds the quota, which is answered `500`.
theorem quota_valueError : ∃ (db : Database) (request : UsageRequest),
    db.LimitsFit ∧ request.settings.Bounded ∧ db.record? request.idempotencyKey = none ∧
    ¬db.HasKey request.idempotencyKey ∧ Printable request.payload.inputTokens ∧
    Printable request.payload.cachedInputTokens ∧ Printable request.payload.outputTokens ∧
    Printable request.payload.reasoningTokens ∧
    (recordUsage db (.stable _) 11 request 20 30).1.statusCode = 500 ∧
    ¬QuotaEnforced db (.stable _) 11 request 20 30 := by
  obtain ⟨n, hp, hu, hn⟩ := exists_unprintable
  let db : Database := { Database.migrated Plan.seeds with
    tenants       := [⟨1, "acme", .free, none, .active⟩]
    subscriptions := [⟨1, 1, none, 1, .active, 0, 100⟩] }
  let request := UsageRequest.fourfold 1 "a" n (by decide)
  have hq : Usage.requested request = n + n + n + n := rfl
  have hx : Exceeds db (.stable _) ⟨1, "acme", .free, none, .active⟩ .aiToken
      (Usage.requested request) 20 ⟨1, 1, none, 1, .active, 0, 100⟩ ⟨1, "free", 1000, 100000⟩ := by
    refine ⟨rfl, rfl, by decide, rfl, ?_⟩
    rw [hq]
    simp only [Plan.limit]
    omega
  have hc := hx.checkAndReserve
  rw [quotaExceededError_valueError fun hprint => hu <| hq ▸ hprint.right.left] at hc
  refine ⟨db, request, .seeds rfl, Settings.bounded_default, rfl, by simp [db, Database.HasKey,
    Database.migrated], hp, hp, hp, hp, ?_, fun h => ?_⟩
  · rw [recordUsage_refused rfl rfl hc]
    rfl
  · refine h.not_overlong rfl ⟨_, _, _, rfl, hx, hu, fun type => ?_⟩
    cases type <;> decide

end Router
