import BillingEngine.Execution.Serial
import BillingEngine.Migrations.InitialSchema

open QuotaEnforcer MeteringEngine

-- What an `Enum` column binds for the members of each enumeration.
structure EnumBinding where
  planType           : PlanType → String
  tenantStatus       : TenantStatus → String
  subscriptionStatus : SubscriptionStatus → String
  eventType          : EventType → String

namespace EnumBinding

-- The columns of the models have no `values_callable`.
def names : EnumBinding where
  planType           := PlanType.name
  tenantStatus       := TenantStatus.name
  subscriptionStatus := SubscriptionStatus.name
  eventType          := EventType.name

def values : EnumBinding where
  planType           := PlanType.value
  tenantStatus       := TenantStatus.value
  subscriptionStatus := SubscriptionStatus.value
  eventType          := EventType.value

end EnumBinding

-- What the ORM binds for the columns for text.

def Tenant.params (b : EnumBinding) (tenant : Tenant) : Params := [
  ("name", tenant.name),
  ("plan_type", b.planType tenant.planType),
  ("stripe_customer_id", tenant.stripeCustomerId),
  ("status", b.tenantStatus tenant.status)
]

def Subscription.params (b : EnumBinding) (subscription : Subscription) : Params := [
  ("stripe_subscription_id", subscription.stripeSubscriptionId),
  ("status", b.subscriptionStatus subscription.status)
]

def UsageEvent.params (b : EnumBinding) (e : UsageEvent) : Params := [
  ("event_type", b.eventType e.eventType),
  ("idempotency_key", e.idempotencyKey)
]

def IdempotencyRecord.params (r : IdempotencyRecord) : Params := [
  ("idempotency_key", r.idempotencyKey)
]

namespace TenantCreate

-- The rows that `create_tenant` inserts.

def tenant (payload : TenantCreate) (id : Uuid) : Tenant where
  id               := id
  name             := payload.name
  planType         := payload.planType
  stripeCustomerId := none
  status           := .active

def subscription (id : Nat) (tenantId : Uuid) (planId : Nat) (now : Instant) : Subscription where
  id                   := id
  tenantId             := tenantId
  stripeSubscriptionId := none
  planId               := planId
  status               := .active
  currentPeriodStart   := now
  currentPeriodEnd     := now + StripeWebhookHandler.thirtyDays

theorem createTenant_rows {db db' : Database} {id : Uuid} {payload : TenantCreate} {now : Instant}
    (h : Router.createTenant db id payload now = .ok db') :
    db'.tenants = db.tenants ++ [payload.tenant id] ∧ ∃ planId, db'.subscriptions =
      db.subscriptions ++ [subscription db.nextSubscriptionId id planId now] := by
  obtain ⟨plan, _, rfl⟩ := Router.createTenant_ok h
  exact ⟨rfl, plan.id, rfl⟩

-- The rows fit the columns of the migrated schema.
structure Storable (b : EnumBinding) (payload : TenantCreate) (id : Uuid) (rowId planId : Nat)
    (now : Instant) : Prop where
  tenant       : (payload.tenant id).params b |>.Fits InitialSchema.tenants
  subscription : (subscription rowId id planId now).params b |>.Fits InitialSchema.subscriptions

end TenantCreate

-- The same for the rows that `record_usage` inserts for an admitted request.
structure UsageRequest.Storable (b : EnumBinding) (request : UsageRequest) (id : Uuid)
    (tenant : Tenant) (timestamp : Instant) (check : QuotaCheckResult) : Prop where
  event  : (Usage.event id request tenant timestamp).params b |>.Fits InitialSchema.usageEvents
  record : (newRecord (Usage.event id request tenant timestamp) check.plan.name).params.Fits
            InitialSchema.idempotencyRecords

-- No name of a member can be stored in a column for the values.
theorem InitialSchema.LabelledByValue.not_fits {ε : Type} {labels : List String}
    {name value : ε → String} (h : LabelledByValue labels name value) {x : ε} {params : Params}
    {columns : List Column} {c : Column} (hc : c ∈ columns) (ht : c.type = .enum labels)
    (hp : params.lookup c.name = some (some <| name x)) : ¬params.Fits columns := by
  intro hf
  have ha : c.type.Accepts (name x) := hf c hc _ hp
  rw [ht] at ha
  exact (h x).right ha

theorem Tenant.not_fits {tenant : Tenant} :
    ¬(tenant.params .names).Fits InitialSchema.tenants :=
  have hc : ⟨"plan_type", .enum InitialSchema.planTypeEnum, false⟩ ∈ InitialSchema.tenants :=
    .tail _ <| .head _
  InitialSchema.planType_labels.not_fits hc rfl rfl

theorem UsageEvent.not_fits {e : UsageEvent} :
    ¬(e.params .names).Fits InitialSchema.usageEvents :=
  have hc : ⟨"event_type", .enum InitialSchema.eventTypeEnum, false⟩ ∈ InitialSchema.usageEvents :=
    .head _
  InitialSchema.eventType_labels.not_fits hc rfl rfl

-- Nothing that is accepted can be stored in the migrated schema, whether or not it is admitted.
theorem never_storable (payload : TenantCreate) (request : UsageRequest) (id : Uuid)
    (rowId planId : Nat) (tenant : Tenant) (now timestamp : Instant) (check : QuotaCheckResult) :
    ¬payload.Storable .names id rowId planId now ∧
      ¬request.Storable .names id tenant timestamp check :=
  ⟨fun h => Tenant.not_fits h.tenant, fun h => UsageEvent.not_fits h.event⟩

-- A tenant on the free plan, and its first call.
theorem not_storable : ∃ (db : Database) (tenant : Tenant) (check : QuotaCheckResult),
    Router.createTenant (.migrated Plan.seeds) 1 { name := "acme" } 0 = .ok db ∧
    db.tenants = [tenant] ∧ (tenant.params .names).lookup "plan_type" = some (some "FREE") ∧
    ¬TenantCreate.Storable .names { name := "acme" } 1 1 1 0 ∧
    checkAndReserve db (.stable _) tenant .apiCall 1 5 = .ok check ∧
    ¬(UsageRequest.apiCall 1 "a" (by decide)).Storable .names 10 tenant 6 check :=
  ⟨_, _, _, rfl, rfl, rfl, fun h => Tenant.not_fits h.tenant, rfl,
    fun h => UsageEvent.not_fits h.event⟩

-- Apart from the names of members, only the length of a tenant's name keeps a row from being
-- stored.

theorem Params.fits_column {params : Params} {c : Column} {value : Option String}
    (hp : params.lookup c.name = some value) (ha : c.Accepts value) :
    ∀ value ∈ params.lookup c.name, c.Accepts value := by
  simpa [hp] using ha

theorem storable_by_value {payload : TenantCreate} {id : Uuid} {rowId planId : Nat}
    {now : Instant} :
    payload.Storable .values id rowId planId now ↔ payload.name.length ≤ 255 := by
  constructor
  case mp =>
    intro h
    exact h.tenant _ (.head _) _ rfl
  case mpr =>
    intro hn
    constructor
    case tenant =>
      refine List.forall_mem_cons.mpr ⟨Params.fits_column rfl hn, ?_⟩
      refine List.forall_mem_cons.mpr ⟨Params.fits_column rfl ?_, ?_⟩
      · exact InitialSchema.planType_labels payload.planType |>.left
      refine List.forall_mem_cons.mpr ⟨Params.fits_column rfl rfl, ?_⟩
      refine List.forall_mem_singleton.mpr <| Params.fits_column rfl ?_
      exact InitialSchema.tenantStatus_labels .active |>.left
    case subscription =>
      refine List.forall_mem_cons.mpr ⟨Params.fits_column rfl rfl, ?_⟩
      refine List.forall_mem_singleton.mpr <| Params.fits_column rfl ?_
      exact InitialSchema.subscriptionStatus_labels .active |>.left

theorem request_storable_by_value {request : UsageRequest} {id : Uuid} {tenant : Tenant}
    {timestamp : Instant} {check : QuotaCheckResult} :
    request.Storable .values id tenant timestamp check := by
  have hk := request.keyLength.right
  constructor
  case event =>
    refine List.forall_mem_cons.mpr ⟨Params.fits_column rfl ?_, ?_⟩
    · exact InitialSchema.eventType_labels request.payload.eventType |>.left
    · exact List.forall_mem_singleton.mpr <| Params.fits_column rfl hk
  case record => exact List.forall_mem_singleton.mpr <| Params.fits_column rfl hk
