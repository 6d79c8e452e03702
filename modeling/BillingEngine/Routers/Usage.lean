import BillingEngine.Services.Metering

namespace Router

def tenantNotFound (tenantId : Uuid) : HttpResponse where
  statusCode := 404
  body       := .detail { code := .notFound, message := s!"Tenant {tenantId} not found." }

-- The answer for an unhandled exception.
def internalError : HttpResponse where
  statusCode := 500
  body       := .error { code := .internalError, message := "An unexpected error occurred." }

def quotaResponse : QuotaError → HttpResponse
  | e@(.quotaExceeded limit used requested retryAfterSeconds) => {
      statusCode := 429
      body       := .detail {
        code              := .quotaExceeded
        message           := e.message
        limit             := limit
        used              := used
        requested         := requested
        retryAfterSeconds := retryAfterSeconds
      }
      retryAfter := retryAfterSeconds
    }
  | e@(.paymentRequired _) => {
      statusCode := 402
      body       := .detail { code := .paymentRequired, message := e.message }
    }
  | .valueError => internalError

def raisedResponse : Raised → HttpResponse
  | .quota error => quotaResponse error
  | .database _  => internalError

-- A replayed `201` is answered with `200`.
def resultResponse (result : MeteringResult) : HttpResponse where
  statusCode := if result.replayed ∧ result.statusCode = 201 then 200 else result.statusCode
  body       := result.body

def usageResponse : Except Raised MeteringResult → HttpResponse
  | .ok result    => resultResponse result
  | .error raised => raisedResponse raised

-- `POST /v1/usage`, when no other transaction runs meanwhile.
def recordUsage (db : Database) (o : QuotaEnforcer.OrderBy) (id : Uuid) (request : UsageRequest)
    (now timestamp : Instant) : HttpResponse × Database :=
  match db.tenant? request.payload.tenantId with
  | none        => (tenantNotFound request.payload.tenantId, db)
  | some tenant =>
    let (result, db') := MeteringEngine.recordUsage db request.settings o id tenant
      request.idempotencyKey request.payload.eventType request.payload.toTokenUsage now timestamp
    (usageResponse result, db')

end Router
