import BillingEngine.Objects.Models
import BillingEngine.Services.Pricing

-- The payload of `POST /v1/usage`, with what `validate_token_fields` checks.
structure UsageEventCreate extends TokenUsage where
  tenantId  : Uuid
  eventType : EventType
  valid     : eventType = .apiCall → toTokenUsage = {}
  deriving DecidableEq, Repr

-- A request as it reaches the router, with the settings in force. The bounds on the key are those
-- of the `Idempotency-Key` header.
structure UsageRequest where
  payload        : UsageEventCreate
  idempotencyKey : String
  settings       : Settings := {}
  keyLength      : 1 ≤ idempotencyKey.length ∧ idempotencyKey.length ≤ 255
  deriving DecidableEq, Repr

inductive ErrorCode
  | quotaExceeded
  | paymentRequired
  | validationError
  | idempotencyConflict
  | notFound
  | internalError
  deriving DecidableEq, Repr

structure ErrorDetail where
  code              : ErrorCode
  message           : String
  limit             : Option Nat := none
  used              : Option Nat := none
  requested         : Option Nat := none
  retryAfterSeconds : Option Nat := none
  deriving DecidableEq, Repr

inductive Body
  | usage (body : UsageBody)
  | error (error : ErrorDetail)   -- `{"error": ...}`
  | detail (detail : ErrorDetail) -- `{"detail": ...}`
  deriving DecidableEq, Repr

structure HttpResponse where
  statusCode : Nat
  body       : Body
  retryAfter : Option Nat := none
  deriving DecidableEq, Repr
