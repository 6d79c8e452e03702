import Mathlib.Algebra.Ring.Int.Defs
import BillingEngine.Objects.Python
import BillingEngine.Objects.Schemas
import BillingEngine.Services.Quota

structure MeteringResult where
  statusCode : Nat
  body       : Body
  replayed   : Bool
  deriving DecidableEq, Repr

-- The exceptions that leave `record_usage`.
inductive Raised
  | quota (error : QuotaError)
  | database (error : PyError)
  deriving DecidableEq, Repr

-- The ranges of the columns of type `BigInteger` and `Integer`.
def UsageEvent.Storable (e : UsageEvent) : Prop :=
  e.inputTokens < 2 ^ 63 ∧ e.cachedInputTokens < 2 ^ 63 ∧ e.outputTokens < 2 ^ 63 ∧
  e.reasoningTokens < 2 ^ 63 ∧ e.totalQuantity < 2 ^ 63 ∧
  -2 ^ 31 ≤ e.costCents ∧ e.costCents < 2 ^ 31

instance {e : UsageEvent} : Decidable e.Storable :=
  inferInstanceAs <| Decidable (_ ∧ _)

namespace MeteringEngine

open QuotaEnforcer

def requestedQuantity (eventType : EventType) (usage : TokenUsage) : Nat :=
  if eventType = .apiCall then 1 else usage.totalTokens

def costCents (settings : Settings) (eventType : EventType) (usage : TokenUsage) : Int :=
  if eventType = .apiCall then
    PricingCalculator.calculateApiCallCostCents
  else
    PricingCalculator.calculateCostCents settings usage

-- The row that a request inserts. The `id` and the `timestamp` are the defaults of their columns,
-- which are evaluated at the flush.
def newUsageEvent (settings : Settings) (id tenantId : Uuid) (eventType : EventType)
    (usage : TokenUsage) (key : String) (timestamp : Instant) : UsageEvent where
  id                := id
  tenantId          := tenantId
  eventType         := eventType
  inputTokens       := usage.inputTokens
  cachedInputTokens := usage.cachedInputTokens
  outputTokens      := usage.outputTokens
  reasoningTokens   := usage.reasoningTokens
  totalQuantity     := requestedQuantity eventType usage
  costCents         := costCents settings eventType usage
  idempotencyKey    := key
  timestamp         := timestamp

def responseBody (e : UsageEvent) (planName : String) : UsageBody where
  id             := e.id
  tenantId       := e.tenantId
  eventType      := e.eventType.value
  totalQuantity  := e.totalQuantity
  costCents      := e.costCents
  planName       := planName
  idempotencyKey := e.idempotencyKey

def newRecord (e : UsageEvent) (planName : String) : IdempotencyRecord where
  idempotencyKey := e.idempotencyKey
  tenantId       := e.tenantId
  statusCode     := 201
  responseBody   := responseBody e planName

def replay (stored : IdempotencyRecord) : MeteringResult where
  statusCode := stored.statusCode
  body       := .usage stored.responseBody
  replayed   := true

def created (body : UsageBody) : MeteringResult where
  statusCode := 201
  body       := .usage body
  replayed   := false

def conflict : MeteringResult where
  statusCode := 409
  body       := .error {
    code    := .idempotencyConflict
    message := "A concurrent request with this Idempotency-Key is " ++
               "still being processed. Please retry."
  }
  replayed   := false

-- The answer once the `IntegrityError` has been rolled back.
def reread (db : Database) (key : String) : MeteringResult :=
  match db.record? key with
  | some winner => replay winner
  | none        => conflict

-- `record_usage`, when no other transaction runs meanwhile. The check reads the clock at `now`, and
-- the flush at `timestamp`. All exceptions leave the database as it was.
def recordUsage (db : Database) (settings : Settings) (o : OrderBy) (id : Uuid) (tenant : Tenant)
    (key : String) (eventType : EventType) (usage : TokenUsage) (now timestamp : Instant) :
    Except Raised MeteringResult × Database :=
  match db.record? key with
  | some existing => (.ok <| replay existing, db)
  | none =>
    match checkAndReserve db o tenant eventType (requestedQuantity eventType usage) now with
    | .error error => (.error <| .quota error, db)
    | .ok check =>
      let e := newUsageEvent settings id tenant.id eventType usage key timestamp
      if ¬e.Storable then
        (.error <| .database .dataError, db)
      else if db.HasKey key then
        (.ok <| reread db key, db)
      else
        (.ok <| created <| responseBody e check.plan.name,
          { db with
            usageEvents        := db.usageEvents ++ [e]
            idempotencyRecords := db.idempotencyRecords ++ [newRecord e check.plan.name] })

-- A request under an unused key that fails its check.
theorem recordUsage_error {db : Database} {settings : Settings} {o : OrderBy} {id : Uuid}
    {tenant : Tenant} {key : String} {eventType : EventType} {usage : TokenUsage}
    {now timestamp : Instant} {error : QuotaError} (hr : db.record? key = none)
    (hc : checkAndReserve db o tenant eventType (requestedQuantity eventType usage) now =
      .error error) :
    recordUsage db settings o id tenant key eventType usage now timestamp =
      (.error <| .quota error, db) := by
  simp only [recordUsage, hr, hc]

-- What fits a limit also fits the columns of `usage_events`, and a cost is never negative.
theorem newUsageEvent_storable {settings : Settings} {id tenantId : Uuid} {eventType : EventType}
    {usage : TokenUsage} {key : String} {timestamp : Instant} (hs : settings.Bounded)
    (hv : eventType = .apiCall → usage = {})
    (hq : requestedQuantity eventType usage < 2 ^ 31) :
    (newUsageEvent settings id tenantId eventType usage key timestamp).Storable ∧
      0 ≤ costCents settings eventType usage := by
  cases eventType
  case apiCall =>
    obtain rfl := hv rfl
    simp [UsageEvent.Storable, newUsageEvent, requestedQuantity, costCents,
      PricingCalculator.calculateApiCallCostCents]
  case aiToken =>
    have hb : _ ∧ PricingCalculator.calculateCostCents settings usage ≤ _ :=
      PricingCalculator.calculateCostCents_bounds hs
    have hq : usage.totalTokens < 2 ^ 31 := hq
    simp only [TokenUsage.totalTokens] at hb hq
    simp only [UsageEvent.Storable, newUsageEvent, requestedQuantity, costCents,
      TokenUsage.totalTokens, reduceCtorEq, if_false]
    omega

end MeteringEngine
