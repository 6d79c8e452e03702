import BillingEngine.Routers.Tenants
import BillingEngine.Routers.Webhooks

-- The endpoints of the application, for calls which are served one after another.
namespace Api

inductive Call
  | createTenant (id : Uuid) (payload : TenantCreate) (now : Instant)
  | getTenant (tenantId : Uuid)
  | recordUsage (o : QuotaEnforcer.OrderBy) (id : Uuid) (request : UsageRequest)
      (now timestamp : Instant)
  | getQuotaStatus (o : QuotaEnforcer.OrderBy) (tenantId : Uuid)
  | stripeWebhook (rawBody : List UInt8) (stripeSignature : String) (now : Instant)

inductive Answer
  | tenantCreated (tenant : Tenant)
  | tenant (tenant : Tenant)
  | usage (response : HttpResponse)
  | quota (status : QuotaStatus)
  | webhook (response : Router.WebhookResponse)
  | error (response : HttpResponse)

def Answer.statusCode : Answer → Nat
  | tenantCreated _    => 201
  | tenant _ | quota _ => 200
  | usage response     => response.statusCode
  | webhook response   => response.statusCode
  | error response     => response.statusCode

def serve (constructEvent : Router.ConstructEvent) (secret : String) (db : Database) :
    Call → Answer × Database
  | .createTenant id payload now =>
    -- The primary key of `tenants`.
    if id ∈ db.tenants.map (·.id) then
      (.error Router.internalError, db)
    else
      match Router.createTenant db id payload now with
      | .error response => (.error response, db)
      | .ok db'         =>
        -- `await db.refresh(tenant)`
        match db'.tenant? id with
        | some tenant => (.tenantCreated tenant, db')
        | none        => (.error Router.internalError, db')
  | .getTenant tenantId =>
    match Router.getTenant db tenantId with
    | .error response => (.error response, db)
    | .ok tenant      => (.tenant tenant, db)
  | .recordUsage o id request now timestamp =>
    let (response, db') := Router.recordUsage db o id request now timestamp
    (.usage response, db')
  | .getQuotaStatus o tenantId =>
    match Router.getQuotaStatus db o tenantId with
    | .error response => (.error response, db)
    | .ok status      => (.quota status, db)
  | .stripeWebhook rawBody stripeSignature now =>
    let (response, db') :=
      Router.stripeWebhook constructEvent secret db rawBody stripeSignature now
    (.webhook response, db')

end Api
