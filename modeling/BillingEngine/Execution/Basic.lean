import BillingEngine.Library.Sessions
import BillingEngine.Routers.Tenants

open Sessions

-- What a transaction can hold against others: rows it has locked or updated, and unique keys it has
-- inserted but not yet committed.
inductive Resource
  | tenant (id : Uuid)
  | subscription (id : Nat)
  | usageKey (key : String)
  | recordKey (key : String)
  | webhookId (id : String)
  | stripeSubscriptionId (id : String)
  deriving DecidableEq, Repr

-- The writes that a commit makes visible.
inductive Write
  | usage (event : UsageEvent) (record : IdempotencyRecord)
  | webhook (marker : ProcessedWebhook) (planType : Option (Uuid × PlanType))
      (row : Option SubscriptionWrite)

def Write.apply : Write → Database → Database
  | usage event record, db => { db with
      usageEvents        := db.usageEvents ++ [event]
      idempotencyRecords := db.idempotencyRecords ++ [record] }
  | webhook marker planType row, db => db.applyWebhook marker planType row

-- Changes made by single statements outside of usage requests and webhooks: tenants are created by
-- their endpoint, while nothing in the application links Stripe customers or suspends tenants.
inductive Operation
  | createTenant (id : Uuid) (payload : TenantCreate) (now : Instant)
  | linkCustomer (tenantId : Uuid) (stripeCustomerId : String)
  | setTenantStatus (tenantId : Uuid) (status : TenantStatus)

def Operation.apply : Operation → Database → Option Database
  | createTenant id payload now, db =>
    if id ∈ db.tenants.map (·.id) then none else Router.createTenant db id payload now |>.toOption
  | linkCustomer tenantId stripeCustomerId, db =>
    if ∃ t ∈ db.tenants, t.stripeCustomerId = some stripeCustomerId then
      none
    else
      some { db with
        tenants := Rows.modify Tenant.id tenantId ({ · with stripeCustomerId }) db.tenants }
  | setTenantStatus tenantId status, db =>
    some { db with tenants := Rows.modify Tenant.id tenantId ({ · with status }) db.tenants }
