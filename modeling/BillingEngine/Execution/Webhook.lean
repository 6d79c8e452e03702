import BillingEngine.Execution.Basic

open Sessions StripeWebhookHandler

namespace Webhook

-- Where the handling of a delivery stands between two statements.
inductive Phase
  | received
  | marked (marker : ProcessedWebhook)
  -- `_handle_subscription_deleted` has loaded the subscription, but not yet the tenant.
  | deleting (marker : ProcessedWebhook) (subscription : Subscription)
  -- The flush at the commit writes tenants before subscriptions.
  | flushingTenant (marker : ProcessedWebhook) (work : UnitOfWork) (result : WebhookResult)
  | flushingSubscription (marker : ProcessedWebhook) (work : UnitOfWork) (result : WebhookResult)
  | committing (marker : ProcessedWebhook) (planType : Option (Uuid × PlanType))
      (write : Option SubscriptionWrite) (result : WebhookResult)
  | skipping
  | failing (held : List Resource) (error : PyError)
  | answered (result : WebhookResult)
  | raised (error : PyError)

inductive Action
  | insertMarker
  | handle (now : Instant)
  | getTenant
  | flushTenant
  | flushSubscription
  | commit
  | rollback
  | raise (error : PyError)

def tenantLock (planType : Option (Uuid × PlanType)) : List Resource :=
  planType.toList.map (.tenant ·.1)

-- The row that an `UPDATE` locks, or the unique key that an `INSERT` takes.
def writeLock : SubscriptionWrite → Option Resource
  | .insert _ stripeSubscriptionId => stripeSubscriptionId.map .stripeSubscriptionId
  | .update id _                   => some <| .subscription id

namespace Phase

def held : Phase → List Resource
  | marked marker | deleting marker _ | flushingTenant marker _ _ => [.webhookId marker.eventId]
  | flushingSubscription marker work _ => tenantLock work.planType ++ [.webhookId marker.eventId]
  | committing marker planType write _ =>
    (write.bind writeLock).toList ++ (tenantLock planType ++ [.webhookId marker.eventId])
  | failing held _ => held
  | received | skipping | answered _ | raised _ => []

def finished : Phase → Bool
  | answered _ | raised _ => true
  | _                     => false

end Phase

-- The statement to be executed next takes a lock, or none at all.
def acquire : Option Resource → Effect Resource Write
  | some x => .acquire x
  | none   => .stay

-- The statements of `handle_event` and the handlers for a delivery of the given event.
def next (db : Database) (event : WebhookEvent) :
    Phase → Action → Option (Phase × Effect Resource Write)
  | .received, .insertMarker =>
    match marker event with
    | .error e => some (.failing [] e, .stay)
    | .ok m =>
      if db.Processed m.eventId then
        some (.skipping, .stay)
      else
        some (.marked m, .acquire <| .webhookId m.eventId)
  | .marked m, .handle now =>
    match dispatch event.type with
    | some .subscriptionDeleted =>
      match subscriptionId event >>= fun id => (·, id) <$> getSubscription db id with
      | .error e               => some (.failing [.webhookId m.eventId] e, .stay)
      | .ok (none, id)         => some (.flushingTenant m {} <| .noMatchingSubscription id, .stay)
      | .ok (some subscription, _) => some (.deleting m subscription, .stay)
    | _ =>
      match handle db event now with
      | .error e            => some (.failing [.webhookId m.eventId] e, .stay)
      | .ok (work, result)  => some (.flushingTenant m work result, .stay)
  | .deleting m subscription, .getTenant =>
    let (work, result) := cancelSubscription subscription (db.tenant? subscription.tenantId)
    some (.flushingTenant m work result, .stay)
  | .flushingTenant m work result, .flushTenant =>
    some (.flushingSubscription m work result, acquire <| work.planType.map (.tenant ·.1))
  | .flushingSubscription m work result, .flushSubscription =>
    match StripeWebhookHandler.flushSubscription db work with
    | .error e => some (.failing (Phase.held <| .flushingSubscription m work result) e, .stay)
    | .ok write =>
      some (.committing m work.planType write result, acquire <| write.bind writeLock)
  | .committing m planType write result, .commit =>
    some (.answered result, .commit <| .webhook m planType write)
  | .skipping, .rollback  => some (.answered <| .duplicateIgnored event.id, .rollback)
  | .failing _ e, .rollback => some (.raised e, .rollback)
  -- Any statement may fail, and the exception escapes from `handle_event`.
  | phase, .raise e => if phase.finished then none else some (.failing phase.held e, .stay)
  | _, _ => none

-- A deletion finds its subscription.
def Loads (db : Database) (event : WebhookEvent) (subscription : Subscription) : Prop :=
  dispatch event.type = some .subscriptionDeleted ∧
  ∃ id, subscriptionId event = .ok id ∧ getSubscription db id = .ok (some subscription)

theorem Loads.handle {db event subscription now} (h : Loads db event subscription) :
    StripeWebhookHandler.handle db event now =
      .ok (cancelSubscription subscription <| db.tenant? subscription.tenantId) := by
  have ⟨ht, id, hi, hs⟩ := h
  simp [handle_deleted ht, hi, hs, bind, Except.bind, Functor.map, Except.map]

theorem loads_iff {db event subscription s? id}
    (ht : dispatch event.type = some .subscriptionDeleted)
    (h : (subscriptionId event >>= fun id => (·, id) <$> getSubscription db id) = .ok (s?, id)) :
    Loads db event subscription ↔ s? = some subscription := by
  cases hi : subscriptionId event <;> simp only [hi, bind, Except.bind] at h
  case error => cases h
  case ok id =>
    cases hs : getSubscription db id <;> rw [hs] at h <;> cases h
    simp [Loads, ht, hi, hs]

-- The transitions of `next`, case by case.
inductive Next (db : Database) (event : WebhookEvent) :
    Phase → Action → Phase → Effect Resource Write → Prop
  | unstorable {e} (hm : marker event = .error e) :
    Next db event .received .insertMarker (.failing [] e) .stay
  | duplicate {m} (hm : marker event = .ok m) (hp : db.Processed m.eventId) :
    Next db event .received .insertMarker .skipping .stay
  | mark {m} (hm : marker event = .ok m) (hp : ¬db.Processed m.eventId) :
    Next db event .received .insertMarker (.marked m) (.acquire <| .webhookId m.eventId)
  | fail {m now e} (hh : handle db event now = .error e) :
    Next db event (.marked m) (.handle now) (.failing [.webhookId m.eventId] e) .stay
  | handle {m now work result} (hh : handle db event now = .ok (work, result))
    (hl : ∀ s, ¬Loads db event s) :
    Next db event (.marked m) (.handle now) (.flushingTenant m work result) .stay
  | load {m now subscription} (hl : Loads db event subscription) :
    Next db event (.marked m) (.handle now) (.deleting m subscription) .stay
  | getTenant {m subscription tenant} (ht : db.tenant? subscription.tenantId = tenant) :
    Next db event (.deleting m subscription) .getTenant
      (.flushingTenant m (cancelSubscription subscription tenant).1
        (cancelSubscription subscription tenant).2) .stay
  | flushTenant {m work result} :
    Next db event (.flushingTenant m work result) .flushTenant (.flushingSubscription m work result)
      (acquire <| work.planType.map (.tenant ·.1))
  | violate {m work result e}
    (hw : StripeWebhookHandler.flushSubscription db work = .error e) :
    Next db event (.flushingSubscription m work result) .flushSubscription
      (.failing (Phase.held <| .flushingSubscription m work result) e) .stay
  | flushSubscription {m work result write}
    (hw : StripeWebhookHandler.flushSubscription db work = .ok write) :
    Next db event (.flushingSubscription m work result) .flushSubscription
      (.committing m work.planType write result) (acquire <| write.bind writeLock)
  | commit {m planType write result} :
    Next db event (.committing m planType write result) .commit (.answered result)
      (.commit <| .webhook m planType write)
  | skip : Next db event .skipping .rollback (.answered <| .duplicateIgnored event.id) .rollback
  | escape {held e} : Next db event (.failing held e) .rollback (.raised e) .rollback
  | raise {phase e} (hf : phase.finished = false) :
    Next db event phase (.raise e) (.failing phase.held e) .stay

variable {db : Database} {event : WebhookEvent} {p p' : Phase} {a : Action}
  {e : Effect Resource Write}

theorem Next.of_next (h : next db event p a = some (p', e)) : Next db event p a p' e := by
  unfold next at h
  split at h
  case h_1 =>
    split at h
    case h_1 => cases h; exact .unstorable ‹_›
    case h_2 =>
      split at h <;> cases h
      case isTrue  => exact .duplicate ‹_› ‹_›
      case isFalse => exact .mark ‹_› ‹_›
  case h_2 m now =>
    split at h
    case h_1 ht =>
      have hd : StripeWebhookHandler.handle db event now = _ := handle_deleted ht
      split at h <;> cases h
      case h_1 hr => exact .fail <| by simpa only [hr] using hd
      case h_2 hr =>
        exact .handle (by simpa only [hr] using hd) fun s hl => by simp_all [loads_iff ht hr]
      case h_3 hr => exact .load <| (loads_iff ht hr).mpr rfl
    case h_2 ht =>
      split at h <;> cases h
      case h_1 => exact .fail ‹_›
      case h_2 => exact .handle ‹_› fun s hl => ht hl.left
  case h_3 => cases h; exact .getTenant rfl
  case h_4 => cases h; exact .flushTenant
  case h_5 =>
    split at h <;> cases h
    case h_1 => exact .violate ‹_›
    case h_2 => exact .flushSubscription ‹_›
  case h_6 => cases h; exact .commit
  case h_7 => cases h; exact .skip
  case h_8 => cases h; exact .escape
  case h_9 =>
    split at h <;> cases h
    exact .raise <| Bool.eq_false_of_not_eq_true ‹_›
  case h_10 => contradiction

theorem Next.to_next (h : Next db event p a p' e) : next db event p a = some (p', e) := by
  cases h
  case fail m now e hh =>
    by_cases ht : dispatch event.type = some .subscriptionDeleted
    case neg => simp [next, hh]
    case pos =>
      rw [handle_deleted ht] at hh
      simp only [next, ht]
      split at hh <;> simp_all
  case handle m now work result hh hl =>
    by_cases ht : dispatch event.type = some .subscriptionDeleted
    case neg => simp [next, hh]
    case pos =>
      rw [handle_deleted ht] at hh
      simp only [next, ht]
      split at hh
      case h_1 => cases hh
      case h_2 => simp_all
      case h_3 s _ hr => exact absurd ((loads_iff ht hr).mpr rfl) (hl s)
  case load hl =>
    obtain ⟨ht, id, hi, hs⟩ := hl
    simp [next, ht, hi, hs, bind, Except.bind, Functor.map, Except.map]
  case raise hf => cases p <;> simp_all [next, Phase.finished]
  all_goals simp [next, *]

theorem Next.unfinished (h : Next db event p a p' e) : p.finished = false := by
  cases h <;> first | rfl | assumption

@[simp]
theorem acquire_held {x? : Option Resource} {H : Resource → Prop} {x : Resource} :
    (acquire x?).held H x ↔ x ∈ x?.toList ∨ H x := by
  cases x? <;> simp [acquire, Effect.held]

theorem Next.held (h : Next db event p a p' e) (x : Resource) :
    x ∈ p'.held ↔ e.held (· ∈ p.held) x := by
  cases h
  case flushTenant work _  => cases hw : work.planType <;> simp [Phase.held, tenantLock, hw]
  case flushSubscription   => simp [Phase.held]
  all_goals simp [Phase.held, Effect.held]

end Webhook
