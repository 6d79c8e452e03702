import BillingEngine.Objects.Models
import BillingEngine.Objects.Python

-- The exceptions that leave `check_and_reserve`.
inductive QuotaError
  | quotaExceeded (limit used requested retryAfterSeconds : Nat)
  | paymentRequired (reason : String)
  -- `QuotaExceededError.__init__` has failed to format its message.
  | valueError
  deriving DecidableEq, Repr

-- `str(exc)`
def QuotaError.message : QuotaError → String
  | quotaExceeded limit used requested _ =>
    s!"Quota exceeded: used={used} requested={requested} limit={limit}"
  | paymentRequired reason => reason
  | valueError =>
    "Exceeds the limit (4300 digits) for integer string conversion; " ++
    "use sys.set_int_max_str_digits() to increase the limit"

-- What `raise QuotaExceededError(...)` raises: the message is an f-string of the numbers.
def quotaExceededError (limit used requested retryAfterSeconds : Nat) : QuotaError :=
  if Printable used ∧ Printable requested ∧ Printable limit then
    .quotaExceeded limit used requested retryAfterSeconds
  else
    .valueError

section QuotaExceeded

variable {limit used requested retryAfterSeconds : Nat}

theorem quotaExceededError_eq (hu : Printable used) (hq : Printable requested)
    (hl : Printable limit) : quotaExceededError limit used requested retryAfterSeconds =
      .quotaExceeded limit used requested retryAfterSeconds :=
  if_pos ⟨hu, hq, hl⟩

theorem quotaExceededError_valueError (h : ¬(Printable used ∧ Printable requested ∧
    Printable limit)) : quotaExceededError limit used requested retryAfterSeconds = .valueError :=
  if_neg h

theorem quotaExceededError_inj {limit' used' requested' retryAfterSeconds' : Nat}
    (h : quotaExceededError limit used requested retryAfterSeconds =
      .quotaExceeded limit' used' requested' retryAfterSeconds') :
    limit = limit' ∧ used = used' ∧ requested = requested' ∧
      retryAfterSeconds = retryAfterSeconds' := by
  unfold quotaExceededError at h
  split at h
  case isTrue  => exact QuotaError.quotaExceeded.inj h
  case isFalse => nomatch h

end QuotaExceeded

structure QuotaCheckResult where
  plan         : Plan
  subscription : Subscription
  apiCallsUsed : Nat
  tokensUsed   : Nat
  deriving DecidableEq, Repr

def Plan.limit (plan : Plan) : EventType → Nat
  | .apiCall => plan.apiCallLimit
  | .aiToken => plan.tokenLimit

-- The limits fit their columns of type `Integer`.
def Database.LimitsFit (db : Database) : Prop :=
  ∀ plan ∈ db.plans, ∀ eventType, plan.limit eventType < 2 ^ 31

theorem Database.LimitsFit.seeds {db : Database} (h : db.plans = Plan.seeds) : db.LimitsFit := by
  intro plan hp eventType
  simp only [h, Plan.seeds, List.mem_cons, List.not_mem_nil, or_false] at hp
  rcases hp with rfl | rfl <;> cases eventType <;> decide

def QuotaCheckResult.used (check : QuotaCheckResult) : EventType → Nat
  | .apiCall => check.apiCallsUsed
  | .aiToken => check.tokensUsed

namespace QuotaEnforcer

-- How a statement breaks the ties of `ORDER BY current_period_end DESC`.
abbrev OrderBy :=
  Rows.Descending Subscription.currentPeriodEnd

-- The `WHERE` clause of `_get_locked_active_subscription`.
def Eligible (tenantId : Uuid) (s : Subscription) : Prop :=
  s.tenantId = tenantId ∧ s.status = .active

instance : DecidablePred (Eligible tenantId) :=
  fun _ => inferInstanceAs <| Decidable (_ ∧ _)

def activeSubscriptions (db : Database) (tenantId : Uuid) : List Subscription :=
  db.subscriptions.filter (Eligible tenantId ·)

theorem mem_activeSubscriptions {db : Database} {tenantId : Uuid} {s : Subscription} :
    s ∈ activeSubscriptions db tenantId ↔ s ∈ db.subscriptions ∧ Eligible tenantId s := by
  simp [activeSubscriptions]

-- What the query of `_get_locked_active_subscription` selects, when it does not have to wait.
def getLockedActiveSubscription (db : Database) (o : OrderBy) (tenantId : Uuid) :
    Option Subscription :=
  o.sort (activeSubscriptions db tenantId) |>.head?

-- An event counted by `_sum_period_usage` for the type `type`.
def Counted (tenantId : Uuid) (periodStart periodEnd : Instant) (type : EventType)
    (e : UsageEvent) : Prop :=
  e.tenantId = tenantId ∧ periodStart ≤ e.timestamp ∧ e.timestamp < periodEnd ∧ e.eventType = type

instance : DecidablePred (Counted tenantId periodStart periodEnd type) :=
  fun _ => inferInstanceAs <| Decidable (_ ∧ _)

def usedQuantity (events : List UsageEvent) (tenantId : Uuid) (periodStart periodEnd : Instant)
    (type : EventType) : Nat :=
  Rows.total (·.totalQuantity) (Counted tenantId periodStart periodEnd type) events

theorem usedQuantity_append {es : List UsageEvent} {e : UsageEvent} {tenantId : Uuid}
    {periodStart periodEnd : Instant} {type : EventType} :
    usedQuantity (es ++ [e]) tenantId periodStart periodEnd type =
      usedQuantity es tenantId periodStart periodEnd type +
        if Counted tenantId periodStart periodEnd type e then e.totalQuantity else 0 := by
  rw [usedQuantity, Rows.total_append, Rows.total_singleton, usedQuantity]

-- The sums over the calls and over the tokens.
def sumPeriodUsage (db : Database) (tenantId : Uuid) (periodStart periodEnd : Instant) :
    Nat × Nat :=
  (usedQuantity db.usageEvents tenantId periodStart periodEnd .apiCall,
   usedQuantity db.usageEvents tenantId periodStart periodEnd .aiToken)

theorem used_sumPeriodUsage {db : Database} {tenantId : Uuid} {periodStart periodEnd : Instant}
    {plan : Plan} {subscription : Subscription} {type : EventType} :
    QuotaCheckResult.used {
      plan         := plan
      subscription := subscription
      apiCallsUsed := (sumPeriodUsage db tenantId periodStart periodEnd).1
      tokensUsed   := (sumPeriodUsage db tenantId periodStart periodEnd).2
    } type = usedQuantity db.usageEvents tenantId periodStart periodEnd type := by
  cases type <;> rfl

def inactiveTenant (tenant : Tenant) : QuotaError :=
  .paymentRequired <|
    s!"Tenant account status is '{tenant.status.value}'; usage is blocked " ++
    "until the account is reactivated."

def noActiveSubscription : QuotaError :=
  .paymentRequired <|
    "No active subscription found for tenant. A valid subscription " ++
    "(including the free plan) is required before usage can be recorded."

def periodEnded : QuotaError :=
  .paymentRequired <|
    "Subscription billing period has ended and has not yet been " ++
    "renewed. Please retry shortly or contact billing support."

def unknownPlan : QuotaError :=
  .paymentRequired "Subscription references an unknown plan."

-- `max(1, int((period_end - now).total_seconds()))`, where `now` is before `period_end`.
def retryAfterSeconds (periodEnd now : Instant) : Nat :=
  max 1 ⌊totalSeconds (periodEnd - now)⌋.toNat

-- The comparison at the end of `check_and_reserve`.
def reserve (check : QuotaCheckResult) (eventType : EventType) (requested : Nat) (now : Instant) :
    Except QuotaError QuotaCheckResult :=
  let limit := check.plan.limit eventType
  let used  := check.used eventType
  if used + requested > limit then
    .error <| quotaExceededError limit used requested <|
      retryAfterSeconds check.subscription.currentPeriodEnd now
  else
    .ok check

-- `check_and_reserve` from the point where the query has returned `subscription`.
def checkSubscription (db : Database) (tenant : Tenant) (subscription : Subscription)
    (eventType : EventType) (requested : Nat) (now : Instant) :
    Except QuotaError QuotaCheckResult :=
  if now ≥ subscription.currentPeriodEnd then
    .error periodEnded
  else
    match db.plan? subscription.planId with
    | none      => .error unknownPlan
    | some plan =>
      let (apiCallsUsed, tokensUsed) := sumPeriodUsage db tenant.id
        subscription.currentPeriodStart subscription.currentPeriodEnd
      reserve { plan, subscription, apiCallsUsed, tokensUsed } eventType requested now

def checkAndReserve (db : Database) (o : OrderBy) (tenant : Tenant) (eventType : EventType)
    (requested : Nat) (now : Instant) : Except QuotaError QuotaCheckResult :=
  if tenant.status ≠ .active then
    .error <| inactiveTenant tenant
  else
    match getLockedActiveSubscription db o tenant.id with
    | none              => .error noActiveSubscription
    | some subscription => checkSubscription db tenant subscription eventType requested now

-- What `check_and_reserve` has established when it admits a request.
structure Admits (db : Database) (tenant : Tenant) (subscription : Subscription)
    (eventType : EventType) (requested : Nat) (now : Instant) (check : QuotaCheckResult) :
    Prop where
  current  : now < subscription.currentPeriodEnd
  plan     : db.plan? subscription.planId = some check.plan
  used     : ∀ type, check.used type = usedQuantity db.usageEvents tenant.id
              subscription.currentPeriodStart subscription.currentPeriodEnd type
  selected : check.subscription = subscription
  headroom : check.used eventType + requested ≤ check.plan.limit eventType

variable {db : Database} {tenant : Tenant} {subscription : Subscription} {eventType : EventType}
  {requested : Nat} {now : Instant} {check : QuotaCheckResult}

theorem reserve_ok {check' : QuotaCheckResult} :
    reserve check eventType requested now = .ok check' ↔
      check' = check ∧ check.used eventType + requested ≤ check.plan.limit eventType := by
  dsimp only [reserve]
  split
  case isTrue h  => simp [not_le.mpr h]
  case isFalse h => simp [not_lt.mp h, eq_comm]

theorem checkSubscription_ok
    (h : checkSubscription db tenant subscription eventType requested now = .ok check) :
    Admits db tenant subscription eventType requested now check := by
  unfold checkSubscription at h
  split at h <;> try contradiction
  split at h <;> try contradiction
  have ⟨hc, hr⟩ := reserve_ok.mp h
  subst hc
  constructor
  case current  => exact not_le.mp ‹_›
  case plan     => assumption
  case used     => intro type; cases type <;> rfl
  case selected => rfl
  case headroom => exact hr

theorem checkSubscription_ok_iff {plan : Plan} (hp : db.plan? subscription.planId = some plan) :
    (∃ check, checkSubscription db tenant subscription eventType requested now = .ok check) ↔
    now < subscription.currentPeriodEnd ∧
    usedQuantity db.usageEvents tenant.id subscription.currentPeriodStart
      subscription.currentPeriodEnd eventType + requested ≤ plan.limit eventType := by
  unfold checkSubscription
  by_cases hn : now ≥ subscription.currentPeriodEnd
  case pos => simp [hn, not_lt.mpr hn]
  case neg =>
    simp only [hn, if_false, hp, reserve_ok, not_le.mp hn, true_and, exists_eq_left]
    cases eventType <;> rfl

-- The request comes to the comparison at the end, which it fails.
structure Exceeds (db : Database) (o : OrderBy) (tenant : Tenant) (eventType : EventType)
    (requested : Nat) (now : Instant) (subscription : Subscription) (plan : Plan) : Prop where
  active   : tenant.status = .active
  selected : getLockedActiveSubscription db o tenant.id = some subscription
  current  : now < subscription.currentPeriodEnd
  found    : db.plan? subscription.planId = some plan
  exceeds  : plan.limit eventType < usedQuantity db.usageEvents tenant.id
              subscription.currentPeriodStart subscription.currentPeriodEnd eventType + requested

-- What the comparison at the end says, once the other guards have passed.
theorem checkAndReserve_compares {o : OrderBy} {plan : Plan} (ht : tenant.status = .active)
    (hs : getLockedActiveSubscription db o tenant.id = some subscription)
    (hn : now < subscription.currentPeriodEnd) (hp : db.plan? subscription.planId = some plan) :
    let used := usedQuantity db.usageEvents tenant.id subscription.currentPeriodStart
      subscription.currentPeriodEnd eventType
    (used + requested ≤ plan.limit eventType →
      ∃ check, checkAndReserve db o tenant eventType requested now = .ok check) ∧
    (used + requested > plan.limit eventType →
      checkAndReserve db o tenant eventType requested now =
        .error (quotaExceededError (plan.limit eventType) used requested <|
          retryAfterSeconds subscription.currentPeriodEnd now)) := by
  simp only [checkAndReserve, ht, hs, checkSubscription, not_le.mpr hn, hp, ne_eq,
    not_true_eq_false, if_false]
  cases eventType <;> exact ⟨fun h => ⟨_, if_neg <| not_lt.mpr h⟩, fun h => if_pos h⟩

theorem Exceeds.checkAndReserve {o : OrderBy} {plan : Plan}
    (h : Exceeds db o tenant eventType requested now subscription plan) :
    checkAndReserve db o tenant eventType requested now =
      .error (quotaExceededError (plan.limit eventType) (usedQuantity db.usageEvents tenant.id
        subscription.currentPeriodStart subscription.currentPeriodEnd eventType) requested <|
          retryAfterSeconds subscription.currentPeriodEnd now) :=
  checkAndReserve_compares h.active h.selected h.current h.found |>.right h.exceeds

-- What `check_and_reserve` has established when it raises `QuotaExceededError`.
theorem checkAndReserve_exceeded {o : OrderBy} {limit used quantity retryAfter : Nat}
    (hs : getLockedActiveSubscription db o tenant.id = some subscription)
    (h : checkAndReserve db o tenant eventType requested now =
      .error (.quotaExceeded limit used quantity retryAfter)) :
    tenant.status = .active ∧ now < subscription.currentPeriodEnd ∧
      retryAfter = retryAfterSeconds subscription.currentPeriodEnd now := by
  unfold checkAndReserve at h
  split at h
  case isTrue => cases h
  case isFalse ha =>
    simp only [hs, checkSubscription, reserve] at h
    split at h
    case isTrue => cases h
    case isFalse hn =>
      split at h
      case h_1 => cases h
      case h_2 =>
        split at h <;> try contradiction
        obtain ⟨_, _, _, hr⟩ := quotaExceededError_inj <| Except.error.inj h
        exact ⟨not_not.mp ha, not_le.mp hn, hr.symm⟩

-- A request that is admitted fits the limit of a plan.
theorem checkAndReserve_limit {o : OrderBy}
    (h : checkAndReserve db o tenant eventType requested now = .ok check) :
    ∃ plan ∈ db.plans, requested ≤ plan.limit eventType := by
  unfold checkAndReserve at h
  split at h <;> try contradiction
  split at h <;> try contradiction
  have ha := checkSubscription_ok h
  exact ⟨check.plan, Rows.find?_key_mem ha.plan |>.left, le_trans (Nat.le_add_left ..) ha.headroom⟩

end QuotaEnforcer
