import BillingEngine.Objects.Models

-- The columns for text of the tables that revision 0001 creates.

inductive ColumnType
  | enum (labels : List String)
  | varchar (length : Nat)
  deriving DecidableEq, Repr

structure Column where
  name     : String
  type     : ColumnType
  nullable : Bool := false
  deriving DecidableEq, Repr

-- The parameters of an `INSERT` by their columns, where `none` is `NULL`.
abbrev Params :=
  List (String × Option String)

-- PostgreSQL refuses unknown labels and values that are too long.
def ColumnType.Accepts : ColumnType → String → Prop
  | enum labels, s    => s ∈ labels
  | varchar length, s => s.length ≤ length

instance {type : ColumnType} {s : String} : Decidable (type.Accepts s) :=
  match type with
  | .enum _    => inferInstanceAs <| Decidable (_ ∈ _)
  | .varchar _ => inferInstanceAs <| Decidable (_ ≤ _)

def Column.Accepts (c : Column) : Option String → Prop
  | none   => c.nullable
  | some s => c.type.Accepts s

instance {c : Column} : (value : Option String) → Decidable (c.Accepts value)
  | none   => inferInstanceAs <| Decidable (c.nullable = true)
  | some _ => inferInstanceAs <| Decidable (c.type.Accepts _)

def Params.Fits (params : Params) (columns : List Column) : Prop :=
  ∀ c ∈ columns, ∀ value ∈ params.lookup c.name, c.Accepts value

namespace InitialSchema

def planTypeEnum : List String :=
  ["free", "pro"]

def tenantStatusEnum : List String :=
  ["active", "suspended", "canceled"]

def subscriptionStatusEnum : List String :=
  ["active", "past_due", "canceled", "incomplete"]

def eventTypeEnum : List String :=
  ["api_call", "ai_token"]

def tenants : List Column := [
  { name := "name", type := .varchar 255 },
  { name := "plan_type", type := .enum planTypeEnum },
  { name := "stripe_customer_id", type := .varchar 255, nullable := true },
  { name := "status", type := .enum tenantStatusEnum }
]

def subscriptions : List Column := [
  { name := "stripe_subscription_id", type := .varchar 255, nullable := true },
  { name := "status", type := .enum subscriptionStatusEnum }
]

def usageEvents : List Column := [
  { name := "event_type", type := .enum eventTypeEnum },
  { name := "idempotency_key", type := .varchar 255 }
]

def idempotencyRecords : List Column := [
  { name := "idempotency_key", type := .varchar 255 }
]

-- The labels are the values of the members of the enumerations, and not their names.

def LabelledByValue {ε : Type} (labels : List String) (name value : ε → String) : Prop :=
  ∀ x, value x ∈ labels ∧ name x ∉ labels

theorem planType_labels : LabelledByValue planTypeEnum PlanType.name PlanType.value := by
  intro planType
  cases planType <;> decide

theorem tenantStatus_labels :
    LabelledByValue tenantStatusEnum TenantStatus.name TenantStatus.value := by
  intro status
  cases status <;> decide

theorem subscriptionStatus_labels :
    LabelledByValue subscriptionStatusEnum SubscriptionStatus.name SubscriptionStatus.value := by
  intro status
  cases status <;> decide

theorem eventType_labels : LabelledByValue eventTypeEnum EventType.name EventType.value := by
  intro eventType
  cases eventType <;> decide

end InitialSchema
