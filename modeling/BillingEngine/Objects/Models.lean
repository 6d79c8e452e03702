import BillingEngine.Library.Rows

-- A `uuid.UUID`. Only the equality of identifiers matters.
abbrev Uuid := Nat

-- An instant in UTC, in microseconds since the epoch.
abbrev Instant := Int

-- What a `datetime` holds, from the year 1 to the year 9999.
def Instant.InRange (t : Instant) : Prop :=
  -62135596800 * 1000000 ≤ t ∧ t < 253402300800 * 1000000

instance : DecidablePred Instant.InRange :=
  fun _ => inferInstanceAs <| Decidable (_ ∧ _)

inductive PlanType
  | free
  | pro
  deriving DecidableEq, Repr

-- The name and the value of a member of an enumeration, and so on.

def PlanType.name : PlanType → String
  | free => "FREE"
  | pro  => "PRO"

def PlanType.value : PlanType → String
  | free => "free"
  | pro  => "pro"

inductive TenantStatus
  | active
  | suspended
  | canceled
  deriving DecidableEq, Repr

def TenantStatus.name : TenantStatus → String
  | active    => "ACTIVE"
  | suspended => "SUSPENDED"
  | canceled  => "CANCELED"

def TenantStatus.value : TenantStatus → String
  | active    => "active"
  | suspended => "suspended"
  | canceled  => "canceled"

inductive SubscriptionStatus
  | active
  | pastDue
  | canceled
  | incomplete
  deriving DecidableEq, Repr

def SubscriptionStatus.name : SubscriptionStatus → String
  | active     => "ACTIVE"
  | pastDue    => "PAST_DUE"
  | canceled   => "CANCELED"
  | incomplete => "INCOMPLETE"

def SubscriptionStatus.value : SubscriptionStatus → String
  | active     => "active"
  | pastDue    => "past_due"
  | canceled   => "canceled"
  | incomplete => "incomplete"

inductive EventType
  | apiCall
  | aiToken
  deriving DecidableEq, Repr

theorem EventType.forall_iff {P : EventType → Prop} : (∀ type, P type) ↔ P apiCall ∧ P aiToken where
  mp h         := ⟨h _, h _⟩
  mpr h | apiCall => h.left | aiToken => h.right

def EventType.name : EventType → String
  | apiCall => "API_CALL"
  | aiToken => "AI_TOKEN"

def EventType.value : EventType → String
  | apiCall => "api_call"
  | aiToken => "ai_token"

structure Tenant where
  id               : Uuid
  name             : String
  planType         : PlanType
  stripeCustomerId : Option String
  status           : TenantStatus
  deriving DecidableEq, Repr

-- The limits are natural numbers by the `CHECK` constraints of the table.
structure Plan where
  id           : Nat
  name         : String
  apiCallLimit : Nat
  tokenLimit   : Nat
  deriving DecidableEq, Repr

structure Subscription where
  id                   : Nat
  tenantId             : Uuid
  stripeSubscriptionId : Option String
  planId               : Nat
  status               : SubscriptionStatus
  currentPeriodStart   : Instant
  currentPeriodEnd     : Instant
  deriving DecidableEq, Repr

structure UsageEvent where
  id                : Uuid
  tenantId          : Uuid
  eventType         : EventType
  inputTokens       : Nat
  cachedInputTokens : Nat
  outputTokens      : Nat
  reasoningTokens   : Nat
  totalQuantity     : Nat
  costCents         : Int
  idempotencyKey    : String
  timestamp         : Instant
  deriving DecidableEq, Repr

-- The body of a successful answer, which is also what `IdempotencyRecord` stores.
structure UsageBody where
  id             : Uuid
  tenantId       : Uuid
  eventType      : String
  totalQuantity  : Nat
  costCents      : Int
  planName       : String
  idempotencyKey : String
  deriving DecidableEq, Repr

structure IdempotencyRecord where
  idempotencyKey : String
  tenantId       : Uuid
  statusCode     : Nat
  responseBody   : UsageBody
  deriving DecidableEq, Repr

structure ProcessedWebhook where
  eventId   : String
  eventType : String
  deriving DecidableEq, Repr

structure Database where
  tenants             : List Tenant
  plans               : List Plan
  subscriptions       : List Subscription
  usageEvents         : List UsageEvent
  idempotencyRecords  : List IdempotencyRecord
  processedWebhooks   : List ProcessedWebhook
  -- The sequence behind the autoincremented primary key of `subscriptions`.
  nextSubscriptionId  : Nat
  deriving DecidableEq, Repr

-- The rows of `plans` after the migration.
def Plan.seeds : List Plan := [
  { id := 1, name := "free", apiCallLimit := 1000, tokenLimit := 100000 },
  { id := 2, name := "pro", apiCallLimit := 100000, tokenLimit := 10000000 }
]

namespace Database

def migrated (plans : List Plan) : Database where
  tenants            := []
  plans              := plans
  subscriptions      := []
  usageEvents        := []
  idempotencyRecords := []
  processedWebhooks  := []
  nextSubscriptionId := 1

-- `db.get(Tenant, id)`, and so on: lookups by primary key.

def tenant? (db : Database) (id : Uuid) : Option Tenant :=
  db.tenants.find? (·.id = id)

def plan? (db : Database) (id : Nat) : Option Plan :=
  db.plans.find? (·.id = id)

def subscription? (db : Database) (id : Nat) : Option Subscription :=
  db.subscriptions.find? (·.id = id)

def record? (db : Database) (key : String) : Option IdempotencyRecord :=
  db.idempotencyRecords.find? (·.idempotencyKey = key)

-- The lookups behind the unique keys of the other tables.

def HasKey (db : Database) (key : String) : Prop :=
  ∃ e ∈ db.usageEvents, e.idempotencyKey = key

instance {db : Database} {key : String} : Decidable (db.HasKey key) :=
  inferInstanceAs <| Decidable (∃ e ∈ db.usageEvents, e.idempotencyKey = key)

def Processed (db : Database) (eventId : String) : Prop :=
  ∃ w ∈ db.processedWebhooks, w.eventId = eventId

instance {db : Database} {eventId : String} : Decidable (db.Processed eventId) :=
  inferInstanceAs <| Decidable (∃ w ∈ db.processedWebhooks, w.eventId = eventId)

end Database
