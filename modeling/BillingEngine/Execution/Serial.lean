import BillingEngine.Execution.Inputs
import BillingEngine.Execution.Theorems.Locks

open Sessions QuotaEnforcer MeteringEngine

-- Where a delivery ends.
def Webhook.Phase.finish : Except PyError WebhookResult → Webhook.Phase
  | .ok result => .answered result
  | .error e   => .raised e

def UsageRequest.apiCall (tenantId : Uuid) (key : String)
    (keyLength : 1 ≤ key.length ∧ key.length ≤ 255) : UsageRequest where
  payload        := { tenantId, eventType := .apiCall, valid := fun _ => rfl }
  idempotencyKey := key
  keyLength      := keyLength

def UsageRequest.aiToken (tenantId : Uuid) (key : String) (inputTokens : Nat)
    (keyLength : 1 ≤ key.length ∧ key.length ≤ 255) : UsageRequest where
  payload        := { tenantId, eventType := .aiToken, inputTokens, valid := by simp }
  idempotencyKey := key
  keyLength      := keyLength

namespace WebhookEvent

def checkout (id customer subscription : String) : WebhookEvent where
  id     := id
  type   := "checkout.session.completed"
  object := .obj [("customer", .str customer), ("subscription", .str subscription)]

def updated (id subscription status : String) : WebhookEvent where
  id     := id
  type   := "customer.subscription.updated"
  object := .obj [("id", .str subscription), ("status", .str status)]

-- An update which also sets the end of the period, in seconds.
def renewed (id subscription status : String) (periodEnd : Int) : WebhookEvent where
  id     := id
  type   := "customer.subscription.updated"
  object := .obj [("id", .str subscription), ("status", .str status),
    ("current_period_end", .num periodEnd)]

def deleted (id subscription : String) : WebhookEvent where
  id     := id
  type   := "customer.subscription.deleted"
  object := .obj [("id", .str subscription), ("status", .str "canceled")]

end WebhookEvent

-- Requests and deliveries which nothing else overlaps with.
namespace Execution

-- The steps of a request which is admitted, up to its check and from there to its answer.

def checkLabels (id : Uuid) (request : UsageRequest) (o : QuotaEnforcer.OrderBy) (now : Instant) :
    List Label :=
  .start id (.usage request .received) ::
    [.getTenant, .getStoredResponse, .select o, .lock, .check now].map (.act id <| .usage ·)

def commitLabels (id : Uuid) (timestamp : Instant) : List Label :=
  [.insertEvent timestamp, .insertRecord, .commit, .respond].map (.act id <| .usage ·)

-- The steps of a delivery which is applied, other than a deletion.
def deliveryLabels (id : Uuid) (event : WebhookEvent) (now : Instant) : List Label :=
  .start id (.webhook event .received) ::
    [.insertMarker, .handle now, .flushTenant, .flushSubscription, .commit].map
      (.act id <| .webhook ·)

-- From the database `db` on, the session `id` can get from `session` to `session'` on its own,
-- where it reads `i`, holds nothing in the end and leaves `db'` behind. The other sessions are
-- `others`.
def Runs (others : Uuid → Option Session) (id : Uuid) (i : Inputs) (db : Database)
    (session : Session) (db' : Database) (session' : Session) : Prop :=
  ∀ holder, (∀ x, holder x = none ∨ holder x = some id) →
    ∃ actions : List Session.Action, (∀ a ∈ actions, i.Performs a) ∧
      Transition.run engine.step ⟨db, holder, Function.update others id session⟩
          (actions.map (.act id)) =
        some ⟨db', fun _ => none, Function.update others id session'⟩

namespace Runs

variable {others : Uuid → Option Session} {id : Uuid} {i : Inputs} {db db' : Database}
  {session session₁ session' : Session} {a : Session.Action} {e : Effect Resource Write}

theorem perform_eq {holder : Resource → Option Uuid}
    (hn : Session.next db id session a = some (session₁, e))
    (hf : ∀ x, holder x = none ∨ holder x = some id) :
    engine.step ⟨db, holder, Function.update others id session⟩ (.act id a) =
      some ⟨engine.write e db, e.holders id holder, Function.update others id session₁⟩ := by
  refine (Program.step_iff.mpr <| .act (Function.update_self ..) hn ?_).trans ?_
  · cases e <;> first | exact hf _ | trivial
  · simp [Program.perform]

theorem act (hn : Session.next db id session a = some (session₁, e)) (hp : i.Performs a)
    (h : Runs others id i (engine.write e db) session₁ db' session') :
    Runs others id i db session db' session' := by
  intro holder hf
  have ⟨actions, ha, hr⟩ := h (e.holders id holder) <| by
    intro x
    cases e <;> simp only [Effect.holders]
    case acquire y =>
      by_cases hy : x = y
      case pos => simp [hy]
      case neg => simpa [Function.update_of_ne hy] using hf x
    case stay => exact hf x
    all_goals rcases hf x with hx | hx <;> simp [hx]
  exact ⟨a :: actions, List.forall_mem_cons.mpr ⟨hp, ha⟩,
    Transition.run_cons_some.mpr ⟨_, perform_eq hn hf, hr⟩⟩

theorem step (hn : Session.next db id session a = some (session₁, e)) (hp : i.Performs a)
    (hw : engine.write e db = db) (h : Runs others id i db session₁ db' session') :
    Runs others id i db session db' session' :=
  act hn hp <| hw.symm ▸ h

theorem finish (hn : Session.next db id session a = some (session', e)) (hp : i.Performs a)
    (he : e = .rollback ∨ ∃ w, e = .commit w) :
    Runs others id i db session (engine.write e db) session' := by
  intro holder hf
  refine ⟨[a], by simpa using hp, ?_⟩
  rw [List.map_singleton, Transition.run_cons, perform_eq hn hf, Option.bind_some,
    Transition.run_nil]
  have hh : e.holders id holder = fun _ => none := by
    funext x
    rcases he with rfl | ⟨_, rfl⟩ <;> rcases hf x with hx | hx <;> simp [Effect.holders, hx]
  rw [hh]

end Runs

section Usage

variable {others : Uuid → Option Session} {id : Uuid} {i : Inputs} {db : Database}
  {request : UsageRequest} {tenant : Tenant}

theorem runs_refusing {held raised} :
    Runs others id i db (.usage request <| .refusing held raised) db
      (.usage request <| .answered <| Router.raisedResponse raised) :=
  .finish (Usage.Next.answer.session_next) ⟨trivial, trivial⟩ (.inl rfl)

theorem runs_conflicting {held} : Runs others id i db (.usage request <| .conflicting held) db
    (.usage request <| .answered <| Router.resultResponse <|
      MeteringEngine.reread db request.idempotencyKey) :=
  .step (Usage.Next.abandon.session_next) ⟨trivial, trivial⟩ rfl <|
    .finish (Usage.Next.reread.session_next) ⟨trivial, trivial⟩ (.inl rfl)

theorem runs_inserting {skipped check} (hr : db.record? request.idempotencyKey = none)
    (hc : checkAndReserve db i.order tenant request.payload.eventType (Usage.requested request)
      i.now = .ok check) :
    let result := recordUsage db request.settings i.order id tenant request.idempotencyKey
      request.payload.eventType request.payload.toTokenUsage i.now i.timestamp
    Runs others id i db (.usage request <| .inserting tenant skipped check i.now) result.2
      (.usage request <| .answered <| Router.usageResponse result.1) := by
  rw [Usage.requested] at hc
  simp only [recordUsage, hr, hc]
  by_cases hs : (Usage.event id request tenant i.timestamp).Storable
  case neg =>
    rw [Usage.event] at hs
    simp only [hs, not_false_eq_true, if_true]
    exact .step (Usage.Next.overflow i.le hs |>.session_next) ⟨trivial, rfl⟩ rfl runs_refusing
  case pos =>
    have hs' := hs
    rw [Usage.event] at hs'
    by_cases hk : db.HasKey request.idempotencyKey
    case pos =>
      simp only [hs', hk, not_true_eq_false, if_false, if_true]
      exact .step (Usage.Next.duplicateEvent i.le hs hk |>.session_next) ⟨trivial, rfl⟩ rfl
        runs_conflicting
    case neg =>
      simp only [hs', hk, not_true_eq_false, if_false]
      refine .step (Usage.Next.insertEvent i.le hs hk |>.session_next) ⟨trivial, rfl⟩ rfl ?_
      refine .step (Usage.Next.insertRecord hr |>.session_next) ⟨trivial, trivial⟩ rfl ?_
      refine .act (Usage.Next.commit.session_next) ⟨trivial, trivial⟩ ?_
      exact .finish (Usage.Next.respond.session_next) ⟨trivial, trivial⟩ (.inl rfl)

theorem runs_checking {skipped subscription} (hr : db.record? request.idempotencyKey = none)
    (hc : checkAndReserve db i.order tenant request.payload.eventType (Usage.requested request)
      i.now = checkSubscription db tenant subscription request.payload.eventType
        (Usage.requested request) i.now) :
    let result := recordUsage db request.settings i.order id tenant request.idempotencyKey
      request.payload.eventType request.payload.toTokenUsage i.now i.timestamp
    Runs others id i db (.usage request <| .checking tenant skipped subscription) result.2
      (.usage request <| .answered <| Router.usageResponse result.1) := by
  cases hs : checkSubscription db tenant subscription request.payload.eventType
    (Usage.requested request) i.now
  case ok check =>
    exact .step (Usage.Next.reserve hs |>.session_next) ⟨trivial, rfl⟩ rfl <|
      runs_inserting hr (hc ▸ hs)
  case error =>
    rw [hs, Usage.requested] at hc
    simp only [recordUsage, hr, hc]
    exact .step (Usage.Next.refuse hs |>.session_next) ⟨trivial, rfl⟩ rfl runs_refusing

theorem runs_reading (hw : db.WellFormed) :
    let result := recordUsage db request.settings i.order id tenant request.idempotencyKey
      request.payload.eventType request.payload.toTokenUsage i.now i.timestamp
    Runs others id i db (.usage request <| .reading tenant) result.2
      (.usage request <| .answered <| Router.usageResponse result.1) := by
  cases hr : db.record? request.idempotencyKey
  case some existing =>
    simp only [recordUsage, hr]
    exact .finish (Usage.Next.replay hr |>.session_next) ⟨trivial, trivial⟩ (.inl rfl)
  case none =>
    by_cases hs : tenant.status = .active
    case neg =>
      simp only [recordUsage, hr, checkAndReserve, hs, ne_eq, not_false_eq_true, if_true]
      exact .step (Usage.Next.inactive hr hs |>.session_next) ⟨trivial, trivial⟩ rfl runs_refusing
    case pos =>
      refine .step (Usage.Next.miss hr hs |>.session_next) ⟨trivial, trivial⟩ rfl ?_
      refine .step (Usage.Next.select (o := i.order) |>.session_next) ⟨trivial, rfl⟩ rfl ?_
      cases hl : getLockedActiveSubscription db i.order tenant.id
      case none =>
        have he : i.order.sort (activeSubscriptions db tenant.id) = [] :=
          List.head?_eq_none_iff.mp hl
        simp only [recordUsage, hr, checkAndReserve, hs, hl, he, List.map_nil, ne_eq,
          not_true_eq_false, if_false]
        exact .step (Usage.Next.noCandidate.session_next) ⟨trivial, trivial⟩ rfl runs_refusing
      case some subscription =>
        obtain ⟨tl, he⟩ := List.head?_eq_some_iff.mp hl
        obtain ⟨hm, hel⟩ := mem_activeSubscriptions.mp <| Rows.Descending.head_mem hl
        have hsub : db.subscription? subscription.id = some subscription :=
          hw.subscription?_of_mem hm
        rw [he, List.map_cons]
        refine .step (Usage.Next.lock hsub hel |>.session_next) ⟨trivial, trivial⟩ rfl ?_
        exact runs_checking hr <| by simp [checkAndReserve, hs, hl]

-- A request which runs alone does what `Router.recordUsage` says.
theorem runs_usage (hw : db.WellFormed) :
    let (response, db') := Router.recordUsage db i.order id request i.now i.timestamp
    Runs others id i db (.usage request .received) db' (.usage request <| .answered response) := by
  cases ht : db.tenant? request.payload.tenantId
  case none =>
    simp only [Router.recordUsage, ht]
    exact .finish (Usage.Next.unknownTenant ht |>.session_next) ⟨trivial, trivial⟩ (.inl rfl)
  case some tenant =>
    simp only [Router.recordUsage, ht]
    exact .step (Usage.Next.getTenant ht |>.session_next) ⟨trivial, trivial⟩ rfl <| runs_reading hw

end Usage
section Webhook

open StripeWebhookHandler

variable {others : Uuid → Option Session} {id : Uuid} {i : Inputs} {db : Database}
  {event : WebhookEvent} {m : ProcessedWebhook} {work : UnitOfWork} {result : WebhookResult}

theorem runs_failing {held e} : Runs others id i db (.webhook event <| .failing held e) db
    (.webhook event <| .raised e) :=
  .finish (Webhook.Next.escape.session_next) ⟨trivial, trivial⟩ (.inl rfl)

theorem runs_flushing (hm : marker event = .ok m) (hp : ¬db.Processed event.id)
    (hh : handle db event i.now = .ok (work, result)) :
    Runs others id i db (.webhook event <| .flushingTenant m work result)
      (handleEvent db event i.now).2
      (.webhook event <| .finish (handleEvent db event i.now).1) := by
  refine .step (Webhook.Next.flushTenant.session_next) ⟨trivial, trivial⟩ Webhook.write_acquire ?_
  cases hw : flushSubscription db work
  case error =>
    simp only [handleEvent, hm, hp, hh, hw, if_false]
    exact .step (Webhook.Next.violate hw |>.session_next) ⟨trivial, trivial⟩ rfl runs_failing
  case ok =>
    simp only [handleEvent, hm, hp, hh, hw, if_false]
    refine .step (Webhook.Next.flushSubscription hw |>.session_next) ⟨trivial, trivial⟩
      Webhook.write_acquire ?_
    exact .finish (Webhook.Next.commit.session_next) ⟨trivial, trivial⟩ (.inr ⟨_, rfl⟩)

-- A delivery which runs alone does what `handleEvent` says.
theorem runs_webhook : Runs others id i db (.webhook event .received)
    (handleEvent db event i.now).2 (.webhook event <| .finish (handleEvent db event i.now).1) := by
  cases hm : marker event
  case error =>
    simp only [handleEvent, hm]
    exact .step (Webhook.Next.unstorable hm |>.session_next) ⟨trivial, trivial⟩ rfl runs_failing
  case ok m =>
    have hi : m.eventId = event.id := marker_eventId hm
    by_cases hp : db.Processed event.id
    case pos =>
      simp only [handleEvent, hm, hp, if_true]
      exact .step (Webhook.Next.duplicate hm (hi ▸ hp) |>.session_next) ⟨trivial, trivial⟩ rfl <|
        .finish (Webhook.Next.skip.session_next) ⟨trivial, trivial⟩ (.inl rfl)
    case neg =>
      refine .step (Webhook.Next.mark hm (hi ▸ hp) |>.session_next) ⟨trivial, trivial⟩ rfl ?_
      by_cases hl : ∃ s, Webhook.Loads db event s
      case pos =>
        obtain ⟨s, hl⟩ := hl
        have hn : Webhook.Next db event (.marked m) (.handle i.now) (.deleting m s) .stay :=
          .load hl
        refine .step hn.session_next ⟨trivial, rfl⟩ rfl ?_
        refine .step (Webhook.Next.getTenant rfl |>.session_next) ⟨trivial, trivial⟩ rfl ?_
        exact runs_flushing hm hp hl.handle
      case neg =>
        cases hh : handle db event i.now
        case error =>
          simp only [handleEvent, hm, hp, hh, if_false]
          exact .step (Webhook.Next.fail hh |>.session_next) ⟨trivial, rfl⟩ rfl runs_failing
        case ok =>
          exact .step (Webhook.Next.handle hh (not_exists.mp hl) |>.session_next) ⟨trivial, rfl⟩
            rfl <| runs_flushing hm hp hh

end Webhook

-- Operations, and deliveries which are processed to completion one after another.

inductive Change
  | operation (op : Operation)
  | deliver (event : WebhookEvent) (now : Instant)

def Change.apply (db : Database) : Change → Option Database
  | operation op      => op.apply db
  | deliver event now => some (StripeWebhookHandler.handleEvent db event now).2

-- Such runs are runs of the engine.
theorem changes_run {db db' : Database} {ok : Database → Change → Prop}
    (h : Transition.Reach Change.apply ok db db') : ∃ (s : State) (n : Uuid),
      engine.Reach (.boot db) s ∧ s.db = db' ∧ (∀ x, s.holder x = none) ∧
      ∀ id ≥ n, s.session id = none := by
  induction h
  case refl => exact ⟨.boot db, 0, .refl, rfl, fun _ => rfl, fun _ _ => rfl⟩
  case tail db₁ db₂ c _ _ hc hi =>
    obtain ⟨s, n, hr, rfl, hh, hf⟩ := hi
    cases c
    case operation op _ =>
      have hs : engine.step s (.env op) = some { s with db := db₂ } :=
        Program.step_iff.mpr <| .env hc
      exact ⟨_, n, hr.tail trivial hs, rfl, hh, hf⟩
    case deliver event now _ =>
      cases hc
      have hs : engine.Steps s (.start n <| .webhook event .received) _ := .start (hf n le_rfl) rfl
      have ha : Runs s.session n (.fixed (.stable _) now) s.db _
        (StripeWebhookHandler.handleEvent s.db event now).2 _ := runs_webhook
      have ⟨as, _, ha⟩ := ha s.holder fun x => .inl (hh x)
      have hr' := hr.tail trivial (Program.step_iff.mpr hs) |>.trans
        (Transition.Reach.of_run ha).weaken
      refine ⟨_, n + 1, hr', rfl, fun _ => rfl, fun id hid => ?_⟩
      exact (Function.update_of_ne (Nat.ne_of_gt hid) ..).trans <| hf id (Nat.le_of_succ_le hid)

end Execution
