import BillingEngine.Routers.Quota
import BillingEngine.Services.StripeWebhooks

structure TenantCreate where
  name     : String
  planType : PlanType := .free
  deriving DecidableEq, Repr

namespace Router

def unknownPlanType (planType : PlanType) : HttpResponse where
  statusCode := 422
  body       := .detail {
    code    := .validationError
    message := s!"Unknown plan_type '{planType.value}'."
  }

-- `POST /v1/tenants`. The `id` is the new tenant's `uuid4`, and the transaction commits both rows.
def createTenant (db : Database) (id : Uuid) (payload : TenantCreate) (now : Instant) :
    Except HttpResponse Database :=
  match scalarOneOrNone <| db.plans.filter (·.name = payload.planType.value) with
  | .error _        => .error internalError
  | .ok none        => .error <| unknownPlanType payload.planType
  | .ok (some plan) =>
    -- The name has to fit its column.
    if payload.name.length > 255 then .error internalError else .ok { db with
      tenants := db.tenants ++ [{
        id               := id
        name             := payload.name
        planType         := payload.planType
        stripeCustomerId := none
        status           := .active
      }]
      subscriptions := db.subscriptions ++ [{
        id                   := db.nextSubscriptionId
        tenantId             := id
        stripeSubscriptionId := none
        planId               := plan.id
        status               := .active
        currentPeriodStart   := now
        currentPeriodEnd     := now + StripeWebhookHandler.thirtyDays
      }]
      nextSubscriptionId := db.nextSubscriptionId + 1
    }

-- `GET /v1/tenants/{tenant_id}`
def getTenant (db : Database) (tenantId : Uuid) : Except HttpResponse Tenant :=
  match db.tenant? tenantId with
  | none        => .error unknownTenant
  | some tenant => .ok tenant

end Router
