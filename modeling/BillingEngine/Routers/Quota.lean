import BillingEngine.Routers.Usage

structure QuotaStatus where
  tenantId     : Uuid
  planName     : String
  apiCallsUsed : Nat
  apiCallLimit : Nat
  tokensUsed   : Nat
  tokenLimit   : Nat
  periodStart  : Instant
  periodEnd    : Instant
  deriving DecidableEq, Repr

namespace QuotaStatus

def limit (status : QuotaStatus) : EventType → Nat
  | .apiCall => status.apiCallLimit
  | .aiToken => status.tokenLimit

def used (status : QuotaStatus) : EventType → Nat
  | .apiCall => status.apiCallsUsed
  | .aiToken => status.tokensUsed

def Renderable (status : QuotaStatus) : Prop :=
  ∀ type, Printable (status.used type) ∧ Printable (status.limit type)

instance : DecidablePred Renderable :=
  fun _ => decidable_of_iff _ EventType.forall_iff.symm

end QuotaStatus

namespace Router

def unknownTenant : HttpResponse where
  statusCode := 404
  body       := .detail { code := .notFound, message := "Tenant not found." }

def noActiveSubscription : HttpResponse where
  statusCode := 404
  body       := .detail {
    code    := .notFound
    message := "No active subscription for this tenant."
  }

-- `SELECT ... ORDER BY current_period_end DESC LIMIT 1`
def currentSubscription (db : Database) (o : QuotaEnforcer.OrderBy) (tenant : Tenant) :
    Except PyError (Option Subscription) :=
  let rows := db.subscriptions.filter fun s => s.tenantId = tenant.id ∧ s.status = .active
  scalarOneOrNone <| o.sort rows |>.take 1

-- The two sums over the usage of the tenant in the period of the subscription.
def periodUsage (db : Database) (tenant : Tenant) (subscription : Subscription) : Nat × Nat :=
  let rows := db.usageEvents.filter fun e => e.tenantId = tenant.id ∧
    e.timestamp ≥ subscription.currentPeriodStart ∧ e.timestamp < subscription.currentPeriodEnd
  (Rows.total (·.totalQuantity) (·.eventType = .apiCall) rows,
   Rows.total (·.totalQuantity) (·.eventType = .aiToken) rows)

-- `json.dumps` prints no longer numbers than `str` does.
def renderQuotaStatus (status : QuotaStatus) : Except HttpResponse QuotaStatus :=
  if status.Renderable then .ok status else .error internalError

-- `GET /v1/tenants/{tenant_id}/quota`, where other transactions commit between its four statements,
-- so that each of them reads another version of the database.
def getQuotaStatusAcross (db₁ db₂ db₃ db₄ : Database) (o : QuotaEnforcer.OrderBy)
    (tenantId : Uuid) : Except HttpResponse QuotaStatus :=
  match db₁.tenant? tenantId with
  | none        => .error unknownTenant
  | some tenant =>
    match currentSubscription db₂ o tenant with
    | .error _                => .error internalError
    | .ok none                => .error noActiveSubscription
    | .ok (some subscription) =>
      match db₃.plan? subscription.planId with
      -- `None` has no attribute `name`.
      | none      => .error internalError
      | some plan =>
        let (apiCallsUsed, tokensUsed) := periodUsage db₄ tenant subscription
        renderQuotaStatus {
          tenantId     := tenant.id
          planName     := plan.name
          apiCallsUsed := apiCallsUsed
          apiCallLimit := plan.apiCallLimit
          tokensUsed   := tokensUsed
          tokenLimit   := plan.tokenLimit
          periodStart  := subscription.currentPeriodStart
          periodEnd    := subscription.currentPeriodEnd
        }

-- The case in which nothing is committed in between.
def getQuotaStatus (db : Database) (o : QuotaEnforcer.OrderBy) (tenantId : Uuid) :
    Except HttpResponse QuotaStatus :=
  getQuotaStatusAcross db db db db o tenantId

theorem renderQuotaStatus_ok {status status' : QuotaStatus} :
    renderQuotaStatus status = .ok status' ↔ status = status' ∧ status.Renderable := by
  unfold renderQuotaStatus
  split
  case isTrue h  => simp [h]
  case isFalse h => simp [h]

variable {db : Database} {o : QuotaEnforcer.OrderBy} {tenant : Tenant} {subscription : Subscription}

-- Both queries select the same row.
theorem currentSubscription_eq : currentSubscription db o tenant =
    .ok (QuotaEnforcer.getLockedActiveSubscription db o tenant.id) := by
  have hrows : (db.subscriptions.filter fun s => s.tenantId = tenant.id ∧ s.status = .active) =
      QuotaEnforcer.activeSubscriptions db tenant.id := rfl
  rw [currentSubscription, QuotaEnforcer.getLockedActiveSubscription, hrows]
  rcases o.sort (QuotaEnforcer.activeSubscriptions db tenant.id) with _ | ⟨s, _⟩ <;> rfl

-- Both queries count the same events.
theorem periodUsage_eq : periodUsage db tenant subscription =
    QuotaEnforcer.sumPeriodUsage db tenant.id subscription.currentPeriodStart
      subscription.currentPeriodEnd := by
  refine Prod.ext (Rows.total_of_filter fun e _ => ?_) (Rows.total_of_filter fun e _ => ?_)
  all_goals
    unfold QuotaEnforcer.Counted
    tauto

end Router
