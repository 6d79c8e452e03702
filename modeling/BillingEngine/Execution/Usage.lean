import BillingEngine.Execution.Basic

open Sessions QuotaEnforcer MeteringEngine

namespace Usage

-- Where the handling of a request stands between two statements, with the local variables that are
-- still read.
inductive Phase
  | received
  | reading (tenant : Tenant)
  | selecting (tenant : Tenant)
  | locking (tenant : Tenant) (skipped candidates : List Nat)
  | checking (tenant : Tenant) (skipped : List Nat) (subscription : Subscription)
  | inserting (tenant : Tenant) (skipped : List Nat) (check : QuotaCheckResult) (now : Instant)
  | recording (skipped : List Nat) (check : QuotaCheckResult) (event : UsageEvent)
  | committing (skipped : List Nat) (check : QuotaCheckResult) (event : UsageEvent)
      (record : IdempotencyRecord)
  | refusing (held : List Resource) (raised : Raised)
  | conflicting (held : List Resource)
  | rereading
  -- The transaction has been committed, but the client has not got its answer yet.
  | responding (response : HttpResponse)
  | answered (response : HttpResponse)
  | crashed

inductive Action
  | getTenant
  | getStoredResponse
  | select (o : OrderBy)
  | lock
  | check (now : Instant)
  | insertEvent (timestamp : Instant)
  | insertRecord
  | commit
  | rollback
  | reread
  | respond
  | crash

namespace Phase

-- The resources that are held in a phase. Rows that have been skipped stay locked.
def held : Phase → List Resource
  | locking _ skipped _               => skipped.map .subscription
  | checking _ skipped subscription   => (subscription.id :: skipped).map .subscription
  | inserting _ skipped check _       => (check.subscription.id :: skipped).map .subscription
  | recording skipped check event     =>
    .usageKey event.idempotencyKey :: (check.subscription.id :: skipped).map .subscription
  | committing skipped check event record =>
    .recordKey record.idempotencyKey :: .usageKey event.idempotencyKey ::
      (check.subscription.id :: skipped).map .subscription
  | refusing held _ | conflicting held => held
  | received | reading _ | selecting _ | rereading | responding _ | answered _ | crashed => []

def finished : Phase → Bool
  | answered _ | crashed => true
  | _                    => false

end Phase

def requested (request : UsageRequest) : Nat :=
  requestedQuantity request.payload.eventType request.payload.toTokenUsage

-- The row that a request inserts at the time `timestamp`.
def event (id : Uuid) (request : UsageRequest) (tenant : Tenant) (timestamp : Instant) :
    UsageEvent :=
  newUsageEvent request.settings id tenant.id request.payload.eventType
    request.payload.toTokenUsage request.idempotencyKey timestamp

-- The statements of `routers.usage.record_usage`, `MeteringEngine.record_usage` and
-- `QuotaEnforcer.check_and_reserve` for the request with the given id.
def next (db : Database) (id : Uuid) (request : UsageRequest) :
    Phase → Action → Option (Phase × Effect Resource Write)
  | .received, .getTenant =>
    match db.tenant? request.payload.tenantId with
    | none        => some (.answered <| Router.tenantNotFound request.payload.tenantId, .rollback)
    | some tenant => some (.reading tenant, .stay)
  | .reading tenant, .getStoredResponse =>
    match db.record? request.idempotencyKey with
    | some existing => some (.answered <| Router.resultResponse <| replay existing, .rollback)
    | none =>
      if tenant.status ≠ .active then
        some (.refusing [] <| .quota <| inactiveTenant tenant, .stay)
      else
        some (.selecting tenant, .stay)
  -- The candidates are sorted as of the start of the statement.
  | .selecting tenant, .select o =>
    some (.locking tenant [] <| o.sort (activeSubscriptions db tenant.id) |>.map (·.id), .stay)
  | .locking tenant skipped [], .lock =>
    some (.refusing (Phase.held <| .locking tenant skipped []) <| .quota noActiveSubscription,
      .stay)
  -- Once the row is not held by another transaction, its current version is locked, on which the
  -- condition is tested again. A row that fails it is skipped, as `LIMIT` applies to the rows that
  -- pass, but its lock is kept.
  | .locking tenant skipped (candidate :: candidates), .lock =>
    match db.subscription? candidate |>.filter (Eligible tenant.id ·) with
    | none =>
      some (.locking tenant (candidate :: skipped) candidates, .acquire <| .subscription candidate)
    | some subscription =>
      some (.checking tenant skipped subscription, .acquire <| .subscription candidate)
  | .checking tenant skipped subscription, .check now =>
    match checkSubscription db tenant subscription request.payload.eventType (requested request) now
    with
    | .error error =>
      some (.refusing (Phase.held <| .checking tenant skipped subscription) <| .quota error, .stay)
    | .ok check => some (.inserting tenant skipped check now, .stay)
  -- The clock is read again at the flush.
  | .inserting tenant skipped check now, .insertEvent timestamp =>
    let e := event id request tenant timestamp
    if timestamp < now then
      none
    else if ¬e.Storable then
      some (.refusing (Phase.held <| .inserting tenant skipped check now) <| .database .dataError,
        .stay)
    else if db.HasKey e.idempotencyKey then
      some (.conflicting <| Phase.held <| .inserting tenant skipped check now, .stay)
    else
      some (.recording skipped check e, .acquire <| .usageKey e.idempotencyKey)
  | .recording skipped check event, .insertRecord =>
    let record := newRecord event check.plan.name
    match db.record? record.idempotencyKey with
    | some _ => some (.conflicting <| Phase.held <| .recording skipped check event, .stay)
    | none   =>
      some (.committing skipped check event record, .acquire <| .recordKey record.idempotencyKey)
  | .committing _ _ event record, .commit =>
    some (.responding <| Router.resultResponse <| created record.responseBody,
      .commit <| .usage event record)
  | .responding response, .respond => some (.answered response, .rollback)
  | .refusing _ raised, .rollback => some (.answered <| Router.raisedResponse raised, .rollback)
  | .conflicting _, .rollback     => some (.rereading, .rollback)
  | .rereading, .reread =>
    some (.answered <| Router.resultResponse <| reread db request.idempotencyKey, .rollback)
  -- The connection or the process dies. The client gets no answer.
  | phase, .crash => if phase.finished then none else some (.crashed, .rollback)
  | _, _ => none

-- The transitions of `next`, case by case.
inductive Next (db : Database) (id : Uuid) (request : UsageRequest) :
    Phase → Action → Phase → Effect Resource Write → Prop
  | unknownTenant (ht : db.tenant? request.payload.tenantId = none) :
    Next db id request .received .getTenant
      (.answered <| Router.tenantNotFound request.payload.tenantId) .rollback
  | getTenant {tenant} (ht : db.tenant? request.payload.tenantId = some tenant) :
    Next db id request .received .getTenant (.reading tenant) .stay
  | replay {tenant existing} (hr : db.record? request.idempotencyKey = some existing) :
    Next db id request (.reading tenant) .getStoredResponse
      (.answered <| Router.resultResponse <| replay existing) .rollback
  | inactive {tenant} (hr : db.record? request.idempotencyKey = none)
    (hs : tenant.status ≠ .active) :
    Next db id request (.reading tenant) .getStoredResponse
      (.refusing [] <| .quota <| inactiveTenant tenant) .stay
  | miss {tenant} (hr : db.record? request.idempotencyKey = none) (hs : tenant.status = .active) :
    Next db id request (.reading tenant) .getStoredResponse (.selecting tenant) .stay
  | select {tenant o} :
    Next db id request (.selecting tenant) (.select o)
      (.locking tenant [] <| o.sort (activeSubscriptions db tenant.id) |>.map (·.id)) .stay
  | noCandidate {tenant skipped} :
    Next db id request (.locking tenant skipped []) .lock
      (.refusing (Phase.held <| .locking tenant skipped []) <| .quota noActiveSubscription) .stay
  | skip {tenant skipped candidate candidates}
    (hs : ∀ s, db.subscription? candidate = some s → ¬Eligible tenant.id s) :
    Next db id request (.locking tenant skipped (candidate :: candidates)) .lock
      (.locking tenant (candidate :: skipped) candidates) (.acquire <| .subscription candidate)
  | lock {tenant skipped candidate candidates subscription}
    (hs : db.subscription? candidate = some subscription) (he : Eligible tenant.id subscription) :
    Next db id request (.locking tenant skipped (candidate :: candidates)) .lock
      (.checking tenant skipped subscription) (.acquire <| .subscription candidate)
  | refuse {tenant skipped subscription now error}
    (hc : checkSubscription db tenant subscription request.payload.eventType (requested request)
      now = .error error) :
    Next db id request (.checking tenant skipped subscription) (.check now)
      (.refusing (Phase.held <| .checking tenant skipped subscription) <| .quota error) .stay
  | reserve {tenant skipped subscription now check}
    (hc : checkSubscription db tenant subscription request.payload.eventType (requested request)
      now = .ok check) :
    Next db id request (.checking tenant skipped subscription) (.check now)
      (.inserting tenant skipped check now) .stay
  | overflow {tenant skipped check now timestamp} (hn : now ≤ timestamp)
    (hs : ¬(event id request tenant timestamp).Storable) :
    Next db id request (.inserting tenant skipped check now) (.insertEvent timestamp)
      (.refusing (Phase.held <| .inserting tenant skipped check now) <| .database .dataError) .stay
  | duplicateEvent {tenant skipped check now timestamp} (hn : now ≤ timestamp)
    (hs : (event id request tenant timestamp).Storable) (hk : db.HasKey request.idempotencyKey) :
    Next db id request (.inserting tenant skipped check now) (.insertEvent timestamp)
      (.conflicting <| Phase.held <| .inserting tenant skipped check now) .stay
  | insertEvent {tenant skipped check now timestamp} (hn : now ≤ timestamp)
    (hs : (event id request tenant timestamp).Storable) (hk : ¬db.HasKey request.idempotencyKey) :
    Next db id request (.inserting tenant skipped check now) (.insertEvent timestamp)
      (.recording skipped check <| event id request tenant timestamp)
      (.acquire <| .usageKey request.idempotencyKey)
  | duplicateRecord {skipped check e existing} (hr : db.record? e.idempotencyKey = some existing) :
    Next db id request (.recording skipped check e) .insertRecord
      (.conflicting <| Phase.held <| .recording skipped check e) .stay
  | insertRecord {skipped check e} (hr : db.record? e.idempotencyKey = none) :
    Next db id request (.recording skipped check e) .insertRecord
      (.committing skipped check e <| newRecord e check.plan.name)
      (.acquire <| .recordKey e.idempotencyKey)
  | commit {skipped check e record} :
    Next db id request (.committing skipped check e record) .commit
      (.responding <| Router.resultResponse <| created record.responseBody)
      (.commit <| .usage e record)
  | respond {response} :
    Next db id request (.responding response) .respond (.answered response) .rollback
  | answer {held raised} :
    Next db id request (.refusing held raised) .rollback
      (.answered <| Router.raisedResponse raised) .rollback
  | abandon {held} : Next db id request (.conflicting held) .rollback .rereading .rollback
  | reread :
    Next db id request .rereading .reread
      (.answered <| Router.resultResponse <| MeteringEngine.reread db request.idempotencyKey)
      .rollback
  | crash {phase} (hf : phase.finished = false) :
    Next db id request phase .crash .crashed .rollback

variable {db : Database} {id : Uuid} {request : UsageRequest} {p p' : Phase} {a : Action}
  {e : Effect Resource Write}

theorem Next.of_next (h : next db id request p a = some (p', e)) : Next db id request p a p' e := by
  unfold next at h
  split at h
  case h_1 =>
    split at h <;> cases h
    case h_1 => exact .unknownTenant ‹_›
    case h_2 => exact .getTenant ‹_›
  case h_2 =>
    split at h
    case h_1 => cases h; exact .replay ‹_›
    case h_2 =>
      split at h <;> cases h
      case isTrue  => exact .inactive ‹_› ‹_›
      case isFalse => exact .miss ‹_› <| not_not.mp ‹_›
  case h_3 => cases h; exact .select
  case h_4 => cases h; exact .noCandidate
  case h_5 =>
    split at h <;> cases h
    case h_1 hs => exact .skip fun s hs' => by simpa using Option.filter_eq_none_iff.mp hs s hs'
    case h_2 hs =>
      have ⟨hs, he⟩ := Option.filter_eq_some_iff.mp hs
      exact .lock hs <| of_decide_eq_true he
  case h_6 =>
    split at h <;> cases h
    case h_1 => exact .refuse ‹_›
    case h_2 => exact .reserve ‹_›
  case h_7 =>
    dsimp only at h
    split at h <;> try contradiction
    have hn := not_lt.mp ‹_›
    split at h
    case isTrue => cases h; exact .overflow hn ‹_›
    case isFalse hs =>
      split at h <;> cases h
      case isTrue  => exact .duplicateEvent hn (not_not.mp hs) ‹_›
      case isFalse => exact .insertEvent hn (not_not.mp hs) ‹_›
  case h_8 =>
    dsimp only at h
    split at h <;> cases h
    case h_1 => exact .duplicateRecord ‹_›
    case h_2 => exact .insertRecord ‹_›
  case h_9  => cases h; exact .commit
  case h_10 => cases h; exact .respond
  case h_11 => cases h; exact .answer
  case h_12 => cases h; exact .abandon
  case h_13 => cases h; exact .reread
  case h_14 =>
    split at h <;> cases h
    exact .crash <| Bool.eq_false_of_not_eq_true ‹_›
  case h_15 => contradiction

theorem Next.to_next (h : Next db id request p a p' e) : next db id request p a = some (p', e) := by
  cases h
  case skip tenant _ candidate _ hs =>
    have hn : (db.subscription? candidate).filter (Eligible tenant.id ·) = none := by
      simpa [Option.filter_eq_none_iff] using hs
    simp [next, hn]
  case lock tenant _ candidate _ subscription hs he =>
    have hn : (db.subscription? candidate).filter (Eligible tenant.id ·) = some subscription := by
      simp [hs, he]
    simp [next, hn]
  case overflow hn hs =>
    simp only [next, not_lt.mpr hn, hs, not_false_eq_true, if_true, if_false]
  case duplicateEvent tenant _ _ _ timestamp hn hs hk =>
    have hk : db.HasKey (event id request tenant timestamp).idempotencyKey := hk
    simp only [next, not_lt.mpr hn, hs, hk, not_true_eq_false, if_true, if_false]
  case insertEvent tenant _ _ _ timestamp hn hs hk =>
    have hk : ¬db.HasKey (event id request tenant timestamp).idempotencyKey := hk
    simp only [next, not_lt.mpr hn, hs, hk, not_true_eq_false, if_false]
    rfl
  case duplicateRecord hr => simp [next, newRecord, hr]
  case insertRecord hr    => simp [next, newRecord, hr]
  case crash hf           => cases p <;> simp_all [next, Phase.finished]
  all_goals simp [next, *]

theorem Next.unfinished (h : Next db id request p a p' e) : p.finished = false := by
  cases h <;> first | rfl | assumption

-- A check answers for the subscription that has been locked.
theorem check_subscription {tenant subscription now check}
    (hc : checkSubscription db tenant subscription request.payload.eventType (requested request)
      now = .ok check) : check.subscription = subscription :=
  checkSubscription_ok hc |>.selected

theorem Next.held (h : Next db id request p a p' e) (x : Resource) :
    x ∈ p'.held ↔ e.held (· ∈ p.held) x := by
  cases h <;> simp only [Phase.held, Effect.held, List.map_cons, List.map_nil, List.mem_cons,
    List.not_mem_nil, newRecord]
  case lock hs _ => rw [Rows.find?_key_mem hs |>.right]
  case reserve hc  => rw [check_subscription hc]
  case insertEvent => rfl

end Usage
