import BillingEngine.Objects.Models
import BillingEngine.Objects.Python

-- A verified event. The object is `event["data"]["object"]`.
structure WebhookEvent where
  id     : String
  type   : String
  object : Json

inductive WebhookResult
  | duplicateIgnored (eventId : String)
  | ignoredUnhandledType (eventType : String)
  | noMatchingTenant (stripeCustomerId : Option String)
  | noMatchingPlan
  | subscriptionCreated (tenantId : Uuid)
  | noMatchingSubscription (stripeSubscriptionId : Option String)
  | subscriptionUpdated (subscriptionId : Nat)
  | subscriptionCanceled (subscriptionId : Nat)
  deriving DecidableEq, Repr

-- The row that a checkout adds to the session. Its Stripe id is encoded at the flush only.
structure NewSubscription where
  tenantId             : Uuid
  stripeSubscriptionId : Json
  planId               : Nat
  currentPeriodStart   : Instant
  currentPeriodEnd     : Instant

def NewSubscription.inserted (row : NewSubscription) (id : Nat)
    (stripeSubscriptionId : Option String) : Subscription where
  id                   := id
  tenantId             := row.tenantId
  stripeSubscriptionId := stripeSubscriptionId
  planId               := row.planId
  status               := .active
  currentPeriodStart   := row.currentPeriodStart
  currentPeriodEnd     := row.currentPeriodEnd

-- The columns of a loaded row which an `UPDATE` sets.
structure SubscriptionChanges where
  status             : Option SubscriptionStatus
  currentPeriodStart : Option Instant
  currentPeriodEnd   : Option Instant
  deriving DecidableEq, Repr

-- What a handler leaves in the session for the flush at the commit.
structure UnitOfWork where
  planType : Option (Uuid × PlanType)            := none
  insert   : Option NewSubscription              := none
  update   : Option (Nat × SubscriptionChanges)  := none

-- The flushed form of a new or a changed row of `subscriptions`.
inductive SubscriptionWrite
  | insert (row : NewSubscription) (stripeSubscriptionId : Option String)
  | update (id : Nat) (changes : SubscriptionChanges)

namespace SubscriptionChanges

def changed [DecidableEq β] (loaded assigned : β) : Option β :=
  if assigned = loaded then none else assigned

-- Only the columns whose assigned value differs from the loaded one are written.
def diff (loaded assigned : Subscription) : SubscriptionChanges where
  status             := changed loaded.status assigned.status
  currentPeriodStart := changed loaded.currentPeriodStart assigned.currentPeriodStart
  currentPeriodEnd   := changed loaded.currentPeriodEnd assigned.currentPeriodEnd

def apply (c : SubscriptionChanges) (s : Subscription) : Subscription :=
  { s with
    status             := c.status.getD s.status
    currentPeriodStart := c.currentPeriodStart.getD s.currentPeriodStart
    currentPeriodEnd   := c.currentPeriodEnd.getD s.currentPeriodEnd }

theorem diff_apply {loaded assigned : Subscription} (h : ∃ status periodStart periodEnd,
    assigned = { loaded with
      status, currentPeriodStart := periodStart, currentPeriodEnd := periodEnd }) :
    (diff loaded assigned).apply loaded = assigned := by
  obtain ⟨_, _, _, rfl⟩ := h
  simp only [diff, apply, changed, Subscription.mk.injEq, true_and]
  refine ⟨?_, ?_, ?_⟩ <;> split <;> simp_all

end SubscriptionChanges

namespace UnitOfWork

-- `tenant.plan_type = planType` on a loaded tenant.
def setPlanType (tenant : Tenant) (planType : PlanType) : Option (Uuid × PlanType) :=
  if planType = tenant.planType then none else some (tenant.id, planType)

-- The assignments to a loaded subscription, which lead to no `UPDATE` if they change nothing.
def setSubscription (loaded assigned : Subscription) : Option (Nat × SubscriptionChanges) :=
  if assigned = loaded then none else some (loaded.id, .diff loaded assigned)

end UnitOfWork

theorem UnitOfWork.setSubscription_some {loaded assigned : Subscription} {id changes}
    (h : setSubscription loaded assigned = some (id, changes)) :
    id = loaded.id ∧ changes = .diff loaded assigned := by
  unfold setSubscription at h
  split at h <;> cases h
  exact ⟨rfl, rfl⟩

namespace StripeWebhookHandler

-- `tenants.stripe_customer_id = c` for a string, and `IS NULL` for `None`.
def getTenantByCustomerId (db : Database) (stripeCustomerId : Option String) :
    Except PyError (Option Tenant) :=
  scalarOneOrNone <| db.tenants.filter (·.stripeCustomerId = stripeCustomerId)

theorem mem_of_getTenant {db customer tenant}
    (h : getTenantByCustomerId db customer = .ok (some tenant)) : tenant ∈ db.tenants :=
  Rows.of_filter_singleton (scalarOneOrNone_mem h) |>.left

def getPlanByStripePrice (db : Database) (_priceId : Json) : Except PyError (Option Plan) :=
  scalarOneOrNone <| db.plans.filter (·.name = "pro")

def getSubscription (db : Database) (stripeSubscriptionId : Option String) :
    Except PyError (Option Subscription) :=
  scalarOneOrNone <| db.subscriptions.filter (·.stripeSubscriptionId = stripeSubscriptionId)

theorem mem_of_getSubscription {db id sub} (h : getSubscription db id = .ok (some sub)) :
    sub ∈ db.subscriptions :=
  Rows.of_filter_singleton (scalarOneOrNone_mem h) |>.left

-- `obj.get("line_items", {}).get("data", [{}])[0].get("price", {}).get("id", "")`
def priceId (obj : Json) : Except PyError Json := do
  let lineItems ← obj.get "line_items" (.obj [])
  let data      ← lineItems.get "data" (.arr [.obj []])
  let price     ← (← data.first).get "price" (.obj [])
  price.get "id" (.str "")

def thirtyDays : Int :=
  30 * 24 * 60 * 60 * 1000000

def handleCheckoutCompleted (db : Database) (event : WebhookEvent) (now : Instant) :
    Except PyError (UnitOfWork × WebhookResult) := do
  let obj                  ← Json.obj <$> event.object.toDict
  let stripeCustomerId     ← (← obj.get "customer" .null).text
  let stripeSubscriptionId ← obj.get "subscription" .null
  match ← getTenantByCustomerId db stripeCustomerId with
  | none        => return ({}, .noMatchingTenant stripeCustomerId)
  | some tenant =>
    match ← getPlanByStripePrice db (← priceId obj) with
    | none      => return ({}, .noMatchingPlan)
    | some plan =>
      -- The plan has been found under the name of `PlanType.pro`.
      return ({
        planType := UnitOfWork.setPlanType tenant .pro
        insert   := some {
          tenantId             := tenant.id
          stripeSubscriptionId := stripeSubscriptionId
          planId               := plan.id
          currentPeriodStart   := now
          currentPeriodEnd     := now + thirtyDays
        }
      }, .subscriptionCreated tenant.id)

def activeStripeStatuses : List String :=
  ["active", "trialing"]

def terminalStripeStatuses : List String :=
  ["canceled", "unpaid", "incomplete_expired"]

-- The status assigned to a subscription, where `none` is none of the branches. Looking up a list or
-- a dictionary in a set fails, as these are not hashable.
def assignedStatus : Json → Except PyError (Option SubscriptionStatus)
  | .str s =>
    if s ∈ activeStripeStatuses then .ok <| some .active
    else if s = "past_due" then .ok <| some .pastDue
    else if s ∈ terminalStripeStatuses then .ok <| some .canceled
    else .ok none
  | .arr _ | .obj _ => .error .typeError
  | _               => .ok none

theorem assignedStatus_active {j : Json} :
    assignedStatus j = .ok (some .active) ↔ ∃ s ∈ activeStripeStatuses, j = .str s := by
  cases j <;> simp only [assignedStatus]
  case str s =>
    split
    case isTrue h  => simp [h]
    case isFalse h =>
      refine iff_of_false ?_ (by simpa using h)
      split <;> try split
      all_goals simp
  all_goals simp

-- `datetime.fromtimestamp(n, tz=timezone.utc)`, for the years 1 to 9999.
def fromTimestamp (n : Int) : Except PyError Instant :=
  if -62135596800 ≤ n ∧ n ≤ 253402300799 then .ok (n * 1000000) else .error .valueError

-- The end of a period, where `none` is an absent one.
def assignedInstant : Json → Except PyError (Option Instant)
  | .null   => .ok none
  | .num n  => some <$> fromTimestamp n
  | .bool b => some <$> fromTimestamp (if b then 1 else 0)
  | _       => .error .typeError

-- The id that a subscription event carries.
def subscriptionId (event : WebhookEvent) : Except PyError (Option String) := do
  let obj ← event.object.toDict
  match obj.lookup "id" with
  | none   => throw .keyError
  | some j => j.text

-- The assignments of `_handle_subscription_updated`.
def updateSubscription (event : WebhookEvent) (s : Subscription) : Except PyError Subscription := do
  let obj         ← Json.obj <$> event.object.toDict
  let status      ← assignedStatus (← obj.get "status" (.str ""))
  let periodStart ← assignedInstant (← obj.get "current_period_start" .null)
  let periodEnd   ← assignedInstant (← obj.get "current_period_end" .null)
  return { s with
    status             := status.getD s.status
    currentPeriodStart := periodStart.getD s.currentPeriodStart
    currentPeriodEnd   := periodEnd.getD s.currentPeriodEnd }

def handleSubscriptionUpdated (db : Database) (event : WebhookEvent) :
    Except PyError (UnitOfWork × WebhookResult) := do
  let stripeSubscriptionId ← subscriptionId event
  match ← getSubscription db stripeSubscriptionId with
  | none              => return ({}, .noMatchingSubscription stripeSubscriptionId)
  | some subscription =>
    let assigned ← updateSubscription event subscription
    return ({ update := UnitOfWork.setSubscription subscription assigned },
      .subscriptionUpdated subscription.id)

-- The end of `_handle_subscription_deleted`, after `db.get(Tenant, subscription.tenant_id)`.
def cancelSubscription (subscription : Subscription) (tenant : Option Tenant) :
    UnitOfWork × WebhookResult :=
  ({
    planType := tenant.bind (UnitOfWork.setPlanType · .free)
    update   := UnitOfWork.setSubscription subscription { subscription with status := .canceled }
  }, .subscriptionCanceled subscription.id)

def handleSubscriptionDeleted (db : Database) (event : WebhookEvent) :
    Except PyError (UnitOfWork × WebhookResult) := do
  let stripeSubscriptionId ← subscriptionId event
  match ← getSubscription db stripeSubscriptionId with
  | none              => return ({}, .noMatchingSubscription stripeSubscriptionId)
  | some subscription =>
    return cancelSubscription subscription (db.tenant? subscription.tenantId)

-- The keys of `_DISPATCH`.
inductive Dispatch
  | checkoutCompleted
  | subscriptionUpdated
  | subscriptionDeleted
  deriving DecidableEq, Repr

def dispatch (eventType : String) : Option Dispatch :=
  if eventType = "checkout.session.completed" then some .checkoutCompleted
  else if eventType = "customer.subscription.updated" then some .subscriptionUpdated
  else if eventType = "customer.subscription.deleted" then some .subscriptionDeleted
  else none

-- What the dispatched handler does. Without a handler there is nothing to flush but the marker.
def handle (db : Database) (event : WebhookEvent) (now : Instant) :
    Except PyError (UnitOfWork × WebhookResult) :=
  match dispatch event.type with
  | none                      => .ok ({}, .ignoredUnhandledType event.type)
  | some .checkoutCompleted   => handleCheckoutCompleted db event now
  | some .subscriptionUpdated => handleSubscriptionUpdated db event
  | some .subscriptionDeleted => handleSubscriptionDeleted db event

-- The status that a subscription event carries.
def subscriptionStatus (event : WebhookEvent) : Json :=
  match event.object with
  | .obj d => d.lookup "status" |>.getD (.str "")
  | _      => .null

-- The ids of the customer and of the subscription that a checkout event carries.

def checkoutCustomer (event : WebhookEvent) : Json :=
  match event.object with
  | .obj d => d.lookup "customer" |>.getD .null
  | _      => .null

def checkoutSubscription (event : WebhookEvent) : Json :=
  match event.object with
  | .obj d => d.lookup "subscription" |>.getD .null
  | _      => .null

-- The status that an event assigns to its subscription.
def newStatus (event : WebhookEvent) : Except PyError (Option SubscriptionStatus) :=
  match dispatch event.type with
  | some .subscriptionUpdated => assignedStatus (subscriptionStatus event)
  | some .subscriptionDeleted => .ok <| some .canceled
  | _                         => .ok none

-- The columns that an event assigns in the row of its subscription.
def assignments (event : WebhookEvent) : Except PyError SubscriptionChanges :=
  match dispatch event.type with
  | some .subscriptionUpdated => do
    let obj                ← Json.obj <$> event.object.toDict
    let status             ← assignedStatus (← obj.get "status" (.str ""))
    let currentPeriodStart ← assignedInstant (← obj.get "current_period_start" .null)
    let currentPeriodEnd   ← assignedInstant (← obj.get "current_period_end" .null)
    return { status, currentPeriodStart, currentPeriodEnd }
  | some .subscriptionDeleted =>
    return { status := some .canceled, currentPeriodStart := none, currentPeriodEnd := none }
  | _ => return { status := none, currentPeriodStart := none, currentPeriodEnd := none }

theorem updateSubscription_eq {event : WebhookEvent} {s : Subscription}
    (ht : dispatch event.type = some .subscriptionUpdated) :
    updateSubscription event s = (·.apply s) <$> assignments event := by
  simp [updateSubscription, assignments, ht, SubscriptionChanges.apply]

theorem updateSubscription_ok {event s assigned} (h : updateSubscription event s = .ok assigned) :
    ∃ status periodStart periodEnd, assignedStatus (subscriptionStatus event) = .ok status ∧
      assigned = { s with
        status             := status.getD s.status
        currentPeriodStart := periodStart
        currentPeriodEnd   := periodEnd } := by
  simp only [updateSubscription, Except.bind_eq_ok, Except.map_eq_ok, Json.toDict_ok] at h
  obtain ⟨_, ⟨d, ho, rfl⟩, _, hg, status, hs, _, _, start, _, _, _, stop, _, h⟩ := h
  cases hg
  cases h
  exact ⟨status, _, _, by simpa [subscriptionStatus, ho] using hs, rfl⟩

-- What the handlers do, case by case.
inductive Handles (db : Database) (event : WebhookEvent) (now : Instant) :
    UnitOfWork → WebhookResult → Prop
  | unhandled (ht : dispatch event.type = none) :
    Handles db event now {} (.ignoredUnhandledType event.type)
  | noTenant {customer} (ht : dispatch event.type = some .checkoutCompleted)
    (hc : getTenantByCustomerId db customer = .ok none) :
    Handles db event now {} (.noMatchingTenant customer)
  | noPlan (ht : dispatch event.type = some .checkoutCompleted)
    (hp : scalarOneOrNone (db.plans.filter (·.name = "pro")) = .ok none) :
    Handles db event now {} .noMatchingPlan
  | checkout {customer tenant plan} (ht : dispatch event.type = some .checkoutCompleted)
    (hj : (checkoutCustomer event).text = .ok customer)
    (hc : getTenantByCustomerId db customer = .ok (some tenant))
    (hp : scalarOneOrNone (db.plans.filter (·.name = "pro")) = .ok (some plan)) :
    Handles db event now {
      planType := UnitOfWork.setPlanType tenant .pro
      insert   := some {
        tenantId             := tenant.id
        stripeSubscriptionId := checkoutSubscription event
        planId               := plan.id
        currentPeriodStart   := now
        currentPeriodEnd     := now + thirtyDays
      }
    } (.subscriptionCreated tenant.id)
  | noSubscription {id}
    (ht : dispatch event.type = some .subscriptionUpdated ∨
      dispatch event.type = some .subscriptionDeleted)
    (hi : subscriptionId event = .ok id) (hs : getSubscription db id = .ok none) :
    Handles db event now {} (.noMatchingSubscription id)
  | updated {id s assigned} (ht : dispatch event.type = some .subscriptionUpdated)
    (hi : subscriptionId event = .ok id) (hs : getSubscription db id = .ok (some s))
    (ha : updateSubscription event s = .ok assigned) :
    Handles db event now { update := UnitOfWork.setSubscription s assigned }
      (.subscriptionUpdated s.id)
  | deleted {id s} (ht : dispatch event.type = some .subscriptionDeleted)
    (hi : subscriptionId event = .ok id) (hs : getSubscription db id = .ok (some s)) :
    Handles db event now (cancelSubscription s <| db.tenant? s.tenantId).1
      (cancelSubscription s <| db.tenant? s.tenantId).2

theorem Handles.of_handle {db event now work result}
    (h : handle db event now = .ok (work, result)) : Handles db event now work result := by
  unfold handle at h
  split at h
  case h_1 ht => cases h; exact .unhandled ht
  case h_2 ht =>
    simp only [handleCheckoutCompleted, Except.bind_eq_ok, Except.map_eq_ok, Json.toDict_ok] at h
    obtain ⟨_, ⟨d, ho, rfl⟩, j, hj, customer, ht', sub, hsub, tenant?, hc, h⟩ := h
    cases tenant?
    case none => cases h; exact .noTenant ht hc
    case some tenant =>
      simp only [Except.bind_eq_ok] at h
      obtain ⟨_, _, plan?, hp, h⟩ := h
      have hj : checkoutCustomer event = j := by
        simpa [checkoutCustomer, ho, Json.get] using hj
      have hsub : checkoutSubscription event = sub := by
        simpa [checkoutSubscription, ho, Json.get] using hsub
      subst hj hsub
      cases plan?
      case none => cases h; exact .noPlan ht hp
      case some => cases h; exact .checkout ht ht' hc hp
  case h_3 ht =>
    simp only [handleSubscriptionUpdated, Except.bind_eq_ok] at h
    obtain ⟨id, hi, s?, hs, h⟩ := h
    cases s?
    case none => cases h; exact .noSubscription (.inl ht) hi hs
    case some =>
      obtain ⟨assigned, ha, h⟩ := Except.bind_eq_ok.mp h
      cases h
      exact .updated ht hi hs ha
  case h_4 ht =>
    simp only [handleSubscriptionDeleted, Except.bind_eq_ok] at h
    obtain ⟨id, hi, s?, hs, h⟩ := h
    cases s?
    case none => cases h; exact .noSubscription (.inr ht) hi hs
    case some => cases h; exact .deleted ht hi hs

-- No handler answers that the event is a duplicate.
theorem Handles.applied {db event now work result} (h : Handles db event now work result) :
    ∀ id, result ≠ .duplicateIgnored id := by
  cases h <;> nofun

-- The row of `processed_webhooks`, which has to fit the columns of the table.
def marker (event : WebhookEvent) : Except PyError ProcessedWebhook :=
  if event.id.length ≤ 255 ∧ event.type.length ≤ 100 then
    .ok { eventId := event.id, eventType := event.type }
  else
    .error .dataError

theorem marker_eventId {event : WebhookEvent} {m : ProcessedWebhook} (h : marker event = .ok m) :
    m.eventId = event.id := by
  unfold marker at h
  split at h <;> cases h
  rfl

-- The parameter for the column `stripe_subscription_id` of a new row.
def bindStripeSubscriptionId (row : NewSubscription) : Except PyError (Option String) := do
  match ← row.stripeSubscriptionId.text with
  | none   => return none
  | some s => if s.length ≤ 255 then return s else throw .dataError

-- The statement on `subscriptions` which the flush at the commit emits. `NULL` violates no `UNIQUE`
-- constraint.
def flushSubscription (db : Database) (work : UnitOfWork) :
    Except PyError (Option SubscriptionWrite) := do
  match work.insert with
  | none     => return work.update.map fun (id, changes) => .update id changes
  | some row =>
    let stripeSubscriptionId ← bindStripeSubscriptionId row
    if stripeSubscriptionId.isSome ∧
        ∃ s ∈ db.subscriptions, s.stripeSubscriptionId = stripeSubscriptionId then
      throw .integrityError
    else
      return some <| .insert row stripeSubscriptionId

theorem bindStripeSubscriptionId_ok {row id} (h : bindStripeSubscriptionId row = .ok id) :
    row.stripeSubscriptionId.text = .ok id := by
  obtain ⟨id?, ht, h⟩ := Except.bind_eq_ok.mp h
  rw [ht]
  cases id?
  case none => cases h; rfl
  case some =>
    simp only at h
    split at h <;> cases h
    rfl

theorem flushSubscription_ok {db work write} (h : flushSubscription db work = .ok write) :
    (work.insert = none ∧ write = work.update.map fun (id, changes) => .update id changes) ∨
    ∃ row id, work.insert = some row ∧ row.stripeSubscriptionId.text = .ok id ∧
      write = some (.insert row id) := by
  unfold flushSubscription at h
  split at h
  case h_1 hi => cases h; exact .inl ⟨hi, rfl⟩
  case h_2 row hi =>
    obtain ⟨id, hb, h⟩ := Except.bind_eq_ok.mp h
    split at h <;> cases h
    exact .inr ⟨row, id, hi, bindStripeSubscriptionId_ok hb, rfl⟩

theorem flush_none {db write} (h : flushSubscription db {} = .ok write) : write = none := by
  rcases flushSubscription_ok h with ⟨_, h⟩ | ⟨_, _, h, _⟩
  · exact h
  · cases h

end StripeWebhookHandler

namespace Database

def setPlanType (db : Database) (change : Uuid × PlanType) : Database :=
  { db with tenants := Rows.modify Tenant.id change.1 ({ · with planType := change.2 }) db.tenants }

def writeSubscription (db : Database) : SubscriptionWrite → Database
  | .insert row stripeSubscriptionId => { db with
      subscriptions := db.subscriptions ++ [row.inserted db.nextSubscriptionId stripeSubscriptionId]
      nextSubscriptionId := db.nextSubscriptionId + 1 }
  | .update id changes =>
    { db with subscriptions := Rows.modify Subscription.id id changes.apply db.subscriptions }

-- The effects of a delivery, which become visible together.
def applyWebhook (db : Database) (marker : ProcessedWebhook) (planType : Option (Uuid × PlanType))
    (write : Option SubscriptionWrite) : Database :=
  let db := { db with processedWebhooks := db.processedWebhooks ++ [marker] }
  let db := planType.elim db db.setPlanType
  write.elim db db.writeSubscription

end Database

namespace StripeWebhookHandler

-- `handle_event`, when no other transaction runs meanwhile. `get_db` rolls an exception back.
def handleEvent (db : Database) (event : WebhookEvent) (now : Instant) :
    Except PyError WebhookResult × Database :=
  match marker event with
  | .error e => (.error e, db)
  | .ok marker =>
    if db.Processed event.id then
      (.ok <| .duplicateIgnored event.id, db)
    else
      match handle db event now with
      | .error e => (.error e, db)
      | .ok (work, result) =>
        match flushSubscription db work with
        | .error e  => (.error e, db)
        | .ok write => (.ok result, db.applyWebhook marker work.planType write)

variable {db : Database} {event : WebhookEvent} {now : Instant}

-- A delivery does nothing, or it has all of its effects.
inductive Delivers (db : Database) (event : WebhookEvent) (now : Instant) :
    Except PyError WebhookResult → Database → Prop
  | unstorable {e} (hm : marker event = .error e) : Delivers db event now (.error e) db
  | duplicate {m} (hm : marker event = .ok m) (hp : db.Processed event.id) :
    Delivers db event now (.ok <| .duplicateIgnored event.id) db
  | fail {m e} (hm : marker event = .ok m) (hp : ¬db.Processed event.id)
    (hh : handle db event now = .error e) : Delivers db event now (.error e) db
  | violate {m work result e} (hm : marker event = .ok m) (hp : ¬db.Processed event.id)
    (hh : handle db event now = .ok (work, result)) (hw : flushSubscription db work = .error e) :
    Delivers db event now (.error e) db
  | apply {m work result write} (hm : marker event = .ok m) (hp : ¬db.Processed event.id)
    (hh : handle db event now = .ok (work, result)) (hw : flushSubscription db work = .ok write) :
    Delivers db event now (.ok result) (db.applyWebhook m work.planType write)

theorem Delivers.eq {result db'} (h : Delivers db event now result db') :
    handleEvent db event now = (result, db') := by
  cases h <;> simp only [handleEvent, *, if_true, if_false]

theorem delivers (db : Database) (event : WebhookEvent) (now : Instant) :
    Delivers db event now (handleEvent db event now).1 (handleEvent db event now).2 := by
  cases hm : marker event
  case error e => exact Delivers.unstorable hm |>.eq ▸ .unstorable hm
  case ok m =>
    by_cases hp : db.Processed event.id
    case pos => exact Delivers.duplicate hm hp |>.eq ▸ .duplicate hm hp
    case neg =>
      cases hh : handle db event now
      case error e => exact Delivers.fail hm hp hh |>.eq ▸ .fail hm hp hh
      case ok work =>
        cases hw : flushSubscription db work.1
        case error e => exact Delivers.violate hm hp hh hw |>.eq ▸ .violate hm hp hh hw
        case ok write => exact Delivers.apply hm hp hh hw |>.eq ▸ .apply hm hp hh hw

-- The deletion of a subscription, with the two reads of its handler taken apart.
theorem handle_deleted (ht : dispatch event.type = some .subscriptionDeleted) :
    handle db event now =
      match subscriptionId event >>= fun id => (·, id) <$> getSubscription db id with
      | .error e        => .error e
      | .ok (none, id)  => .ok ({}, .noMatchingSubscription id)
      | .ok (some s, _) => .ok (cancelSubscription s <| db.tenant? s.tenantId) := by
  simp only [handle, ht, handleSubscriptionDeleted, bind, Except.bind]
  cases subscriptionId event
  case error  => rfl
  case ok id  =>
    rcases h : getSubscription db id with _ | _ | _ <;>
      simp [h, Functor.map, Except.map, pure, Except.pure]

-- A checkout, with the reads of its handler taken apart.
theorem handle_checkout {d customer} (ht : dispatch event.type = some .checkoutCompleted)
    (ho : event.object = .obj d) (hc : (checkoutCustomer event).text = .ok customer) :
    handle db event now =
      match getTenantByCustomerId db customer with
      | .error e   => .error e
      | .ok none   => .ok ({}, .noMatchingTenant customer)
      | .ok (some tenant) =>
        match priceId event.object with
        | .error e => .error e
        | .ok price =>
          match getPlanByStripePrice db price with
          | .error e => .error e
          | .ok none => .ok ({}, .noMatchingPlan)
          | .ok (some plan) => .ok ({
              planType := UnitOfWork.setPlanType tenant .pro
              insert   := some {
                tenantId             := tenant.id
                stripeSubscriptionId := checkoutSubscription event
                planId               := plan.id
                currentPeriodStart   := now
                currentPeriodEnd     := now + thirtyDays
              }
            }, .subscriptionCreated tenant.id) := by
  simp only [checkoutCustomer, checkoutSubscription, ho] at hc ⊢
  simp only [handle, ht, handleCheckoutCompleted, ho, Json.toDict, Json.get, hc, bind, Except.bind,
    Functor.map, Except.map, pure, Except.pure]
  rcases getTenantByCustomerId db customer with _ | _ | _ <;> try rfl
  rcases priceId (.obj d) with _ | price <;> try rfl
  dsimp only
  rcases getPlanByStripePrice db price with _ | _ | _ <;> rfl

end StripeWebhookHandler
