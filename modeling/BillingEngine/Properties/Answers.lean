import BillingEngine.Library.History
import BillingEngine.Execution.Serial

open Sessions QuotaEnforcer MeteringEngine

namespace QuotaEnforcer

-- Why `check_and_reserve` refuses a request whose subscription it has locked.
inductive Refuses (db : Database) (tenantId : Uuid) (subscription : Subscription)
    (eventType : EventType) (requested : Nat) (now : Instant) : QuotaError → Prop
  | periodEnded (hn : subscription.currentPeriodEnd ≤ now) :
    Refuses db tenantId subscription eventType requested now periodEnded
  | unknownPlan (hp : db.plan? subscription.planId = none) :
    Refuses db tenantId subscription eventType requested now unknownPlan
  | quotaExceeded {plan used} (hn : now < subscription.currentPeriodEnd)
    (hp : db.plan? subscription.planId = some plan)
    (hu : used = usedQuantity db.usageEvents tenantId subscription.currentPeriodStart
      subscription.currentPeriodEnd eventType)
    (hq : plan.limit eventType < used + requested)
    (hs : Printable used ∧ Printable requested ∧ Printable (plan.limit eventType)) :
    Refuses db tenantId subscription eventType requested now <|
      .quotaExceeded (plan.limit eventType) used requested <|
        retryAfterSeconds subscription.currentPeriodEnd now
  -- The message of the same error can not be built.
  | valueError {plan used} (hn : now < subscription.currentPeriodEnd)
    (hp : db.plan? subscription.planId = some plan)
    (hu : used = usedQuantity db.usageEvents tenantId subscription.currentPeriodStart
      subscription.currentPeriodEnd eventType)
    (hq : plan.limit eventType < used + requested)
    (hs : ¬(Printable used ∧ Printable requested ∧ Printable (plan.limit eventType))) :
    Refuses db tenantId subscription eventType requested now .valueError

theorem checkSubscription_error {db : Database} {tenant : Tenant} {subscription : Subscription}
    {eventType : EventType} {requested : Nat} {now : Instant} {error : QuotaError}
    (h : checkSubscription db tenant subscription eventType requested now = .error error) :
    Refuses db tenant.id subscription eventType requested now error := by
  unfold checkSubscription at h
  split at h
  case isTrue hn => cases h; exact .periodEnded hn
  case isFalse hn =>
    split at h
    case h_1 hp => cases h; exact .unknownPlan hp
    case h_2 plan hp =>
      simp only [reserve] at h
      split at h <;> try contradiction
      case isTrue hq =>
        obtain rfl := Except.error.inj h
        rw [used_sumPeriodUsage] at hq ⊢
        rw [quotaExceededError]
        split
        case isTrue hs  => exact .quotaExceeded (not_le.mp hn) hp rfl hq hs
        case isFalse hs => exact .valueError (not_le.mp hn) hp rfl hq hs

end QuotaEnforcer

namespace Usage

-- The request has locked the row, in which it has found the given values.
structure Locked (db : Database) (request : UsageRequest) (subscription : Subscription) : Prop where
  row      : db.subscription? subscription.id = some subscription
  eligible : Eligible request.payload.tenantId subscription

-- The grounds of an answer: what the statements of the request have found in the database. The
-- relation `took` says which ones it has executed, and on which data.
inductive Justified (took : Action → Database → Prop) (id : Uuid) (request : UsageRequest) :
    HttpResponse → Prop
  | unknownTenant {db} (read : took .getTenant db)
    (ht : db.tenant? request.payload.tenantId = none) :
    Justified took id request <| Router.tenantNotFound request.payload.tenantId
  | inactive {db tenant} (read : took .getTenant db)
    (ht : db.tenant? request.payload.tenantId = some tenant) (hs : tenant.status ≠ .active) :
    Justified took id request <| Router.quotaResponse <| inactiveTenant tenant
  -- Each of the subscriptions has been active at first, but not any more when it was its turn.
  | noActiveSubscription {db o} (read : took (.select o) db)
    (hs : ∀ s ∈ activeSubscriptions db request.payload.tenantId, ∃ db', took .lock db' ∧
      ∀ s', db'.subscription? s.id = some s' → ¬Eligible request.payload.tenantId s') :
    Justified took id request <| Router.quotaResponse noActiveSubscription
  | refused {db subscription now error} (read : took (.check now) db)
    (hl : Locked db request subscription)
    (hr : Refuses db request.payload.tenantId subscription request.payload.eventType
      (requested request) now error) :
    Justified took id request <| Router.quotaResponse error
  | created {db subscription plan now} (read : took (.check now) db)
    (hl : Locked db request subscription) (hn : now < subscription.currentPeriodEnd)
    (hp : db.plan? subscription.planId = some plan)
    (hq : usedQuantity db.usageEvents request.payload.tenantId subscription.currentPeriodStart
      subscription.currentPeriodEnd request.payload.eventType + requested request ≤
        plan.limit request.payload.eventType) (wrote : ∃ db', took .commit db') :
    Justified took id request <| Router.usageResult 201 {
      id             := id
      tenantId       := request.payload.tenantId
      eventType      := request.payload.eventType.value
      totalQuantity  := requested request
      costCents      := costCents request.settings request.payload.eventType
                          request.payload.toTokenUsage
      planName       := plan.name
      idempotencyKey := request.idempotencyKey }
  | replayed {db a body} (read : took a db) (ha : a = .getStoredResponse ∨ a = .reread)
    (hb : db.responses request.idempotencyKey = some body) :
    Justified took id request <| Router.usageResult 200 body

-- The check has let the request through.
def Admitted (took : Action → Database → Prop) (request : UsageRequest)
    (check : QuotaCheckResult) : Prop :=
  ∃ db tenant now, took (.check now) db ∧ tenant.id = request.payload.tenantId ∧
    Locked db request check.subscription ∧ Admits db tenant check.subscription
      request.payload.eventType (requested request) now check

-- What a phase says about the statements before it.
def Phase.Justified (took : Action → Database → Prop) (id : Uuid) (request : UsageRequest) :
    Phase → Prop
  | reading tenant => ∃ db, took .getTenant db ∧ db.tenant? request.payload.tenantId = some tenant
  | locking _ _ candidates => ∃ o db, took (.select o) db ∧
    ∀ s ∈ activeSubscriptions db request.payload.tenantId, s.id ∈ candidates ∨
      ∃ db', took .lock db' ∧
        ∀ s', db'.subscription? s.id = some s' → ¬Eligible request.payload.tenantId s'
  | inserting _ _ check _ => Admitted took request check
  | recording _ check event | committing _ check event _ => Admitted took request check ∧
    ∃ tenant timestamp, tenant.id = request.payload.tenantId ∧
      event = Usage.event id request tenant timestamp
  | refusing _ raised => Usage.Justified took id request <| Router.raisedResponse raised
  | responding response | answered response => Usage.Justified took id request response
  | _ => True

variable {took took' : Action → Database → Prop} {db : Database} {id : Uuid}
  {request : UsageRequest} {p p' : Phase} {a : Action} {e : Effect Resource Write}
  {response : HttpResponse} {check : QuotaCheckResult}

-- An answer stays justified.

theorem Justified.mono (ht : ∀ {a db}, took a db → took' a db)
    (h : Justified took id request response) : Justified took' id request response := by
  cases h
  case unknownTenant hr hn        => exact .unknownTenant (ht hr) hn
  case inactive hr hn hs          => exact .inactive (ht hr) hn hs
  case refused hr hl hx           => exact .refused (ht hr) hl hx
  case replayed hr ha hb          => exact .replayed (ht hr) ha hb
  case created hr hl hn hp hq hw  => exact .created (ht hr) hl hn hp hq <| hw.imp fun _ => ht
  case noActiveSubscription hr hs =>
    exact .noActiveSubscription (ht hr) fun s hm => (hs s hm).imp fun _ h => ⟨ht h.left, h.right⟩

-- The only internal error comes from a message that can not be built.
theorem Justified.statusCode (h : Justified took id request response) :
    response.statusCode ∈ [200, 201, 402, 404, 429] ∨ response = Router.internalError ∧
      ∃ db subscription now, took (.check now) db ∧ Refuses db request.payload.tenantId subscription
        request.payload.eventType (requested request) now .valueError := by
  cases h
  case refused db subscription now error hr hl hx =>
    cases error
    case valueError => exact .inr ⟨rfl, db, subscription, now, hr, hx⟩
    all_goals exact .inl <| by simp [Router.quotaResponse]
  case inactive | noActiveSubscription =>
    exact .inl <| show 402 ∈ [200, 201, 402, 404, 429] by decide
  all_goals exact .inl <| by simp [Router.tenantNotFound, Router.usageResult]

theorem Admitted.mono (ht : ∀ {a db}, took a db → took' a db) (h : Admitted took request check) :
    Admitted took' request check :=
  have ⟨db, tenant, now, hr, h⟩ := h
  ⟨db, tenant, now, ht hr, h⟩

theorem Phase.Justified.mono (ht : ∀ {a db}, took a db → took' a db)
    (h : p.Justified took id request) : p.Justified took' id request := by
  cases p <;> simp only [Phase.Justified] at h ⊢
  case reading    => exact h.imp fun _ h => ⟨ht h.left, h.right⟩
  case inserting  => exact h.mono ht
  case recording  => exact ⟨h.left.mono ht, h.right⟩
  case committing => exact ⟨h.left.mono ht, h.right⟩
  case refusing   => exact h.mono ht
  case responding => exact h.mono ht
  case answered   => exact h.mono ht
  case locking    =>
    have ⟨o, db, hr, hs⟩ := h
    refine ⟨o, db, ht hr, fun s hm => (hs s hm).imp_right ?_⟩
    exact fun ⟨db', hr, hn⟩ => ⟨db', ht hr, hn⟩

-- What is let through can be stored.
theorem storable_of_checked {tenant : Tenant} {timestamp : Instant} (hf : db.LimitsFit)
    (hb : request.settings.Bounded) (hc : Checked request check)
    (hp : db.plan? check.subscription.planId = some check.plan) :
    (Usage.event id request tenant timestamp).Storable := by
  have hm : check.plan ∈ db.plans := Rows.find?_key_mem hp |>.left
  have hl := hf check.plan hm request.payload.eventType
  have hh := hc.headroom
  exact newUsageEvent_storable hb request.payload.valid (by rw [requested] at hh; omega) |>.left

theorem Next.justified (h : Next db id request p a p' e) (ht : took a db)
    (hb : request.settings.Bounded) (hf : db.LimitsFit) (hl : db.Ledger)
    (hlocal : p.Local id request) (hsound : p.Sound db id request)
    (hrow : ∀ {s}, p.subscription? = some s → db.subscription? s.id = some s)
    (hplan : ∀ {c}, p.check? = some c → db.plan? c.subscription.planId = some c.plan)
    (hp : p.Justified took id request) : p'.Justified took id request := by
  cases h <;> simp only [Phase.Justified] at hp ⊢
  case unknownTenant hn => exact .unknownTenant ht hn
  case getTenant hn     => exact ⟨db, ht, hn⟩
  case replay hr        =>
    obtain ⟨hr, he⟩ := hl.replay hr
    exact he ▸ .replayed ht (.inl rfl) hr
  case inactive _ hs    =>
    obtain ⟨db, hr, hn⟩ := hp
    exact .inactive hr hn hs
  case select tenant o  =>
    refine ⟨o, db, ht, fun s hm => .inl <| List.mem_map_of_mem ?_⟩
    exact o.mem_sort.mpr <| (hlocal : tenant.id = _) ▸ hm
  case noCandidate      =>
    obtain ⟨o, db, hr, hs⟩ := hp
    exact .noActiveSubscription hr fun s hm => (hs s hm).resolve_left (by simp)
  case skip tenant _ candidate candidates hs =>
    obtain ⟨o, db', hr, hc⟩ := hp
    refine ⟨o, db', hr, fun s hm => ?_⟩
    rcases hc s hm with hm | hk
    case inr => exact .inr hk
    case inl =>
      rcases List.mem_cons.mp hm with rfl | hm
      · exact .inr ⟨db, ht, (hlocal : tenant.id = _) ▸ hs⟩
      · exact .inl hm
  case refuse tenant _ _ _ _ hc =>
    have he := hlocal.right
    rw [hlocal.left] at he
    exact .refused ht ⟨hrow rfl, he⟩ <| hlocal.left ▸ checkSubscription_error hc
  case reserve tenant _ subscription now check hc =>
    have ha := checkSubscription_ok hc
    have he := hlocal.right
    rw [hlocal.left] at he
    obtain rfl : check.subscription = subscription := ha.selected
    exact ⟨db, tenant, now, ht, hlocal.left, ⟨hrow rfl, he⟩, ha⟩
  case overflow hs      => exact absurd (storable_of_checked hf hb hlocal.right <| hplan rfl) hs
  case insertEvent tenant _ _ _ timestamp _ _ _ => exact ⟨hp, tenant, timestamp, hlocal.left, rfl⟩
  case insertRecord     => exact hp
  case commit           =>
    obtain ⟨⟨db', tenant', now, hr, hi', hlock, ha⟩, tenant, timestamp, hi, rfl⟩ := hp
    obtain ⟨_, _, rfl⟩ := hlocal
    have hq := ha.headroom
    rw [ha.used, hi'] at hq
    rw [newRecord, responseBody, Usage.event, newUsageEvent, hi]
    exact .created hr hlock ha.current ha.plan hq ⟨db, ht⟩
  case respond          => exact hp
  case answer           => exact hp
  case reread           =>
    obtain ⟨body, hbody⟩ := Option.isSome_iff_exists.mp <| hl.responses_isSome.mpr hsound
    obtain ⟨r, hr, _⟩    := Option.map_eq_some_iff.mp hbody
    obtain ⟨hbody, he⟩   := hl.replay hr
    rw [MeteringEngine.reread, hr]
    exact he ▸ .replayed ht (.inr rfl) hbody

end Usage

namespace Execution

variable {db : Database} {s₀ s : State} {id : Uuid} {request : UsageRequest}
  {response : HttpResponse}

theorem limits_fit (hf : db.LimitsFit) (h : engine.Reach (.boot db) s) : s.db.LimitsFit :=
  h.invariant (I := fun s => s.db.LimitsFit) hf fun hi _ hs => by
    rw [Database.LimitsFit, (Step.of_step hs).plans]
    exact hi

theorem justified (hl : db.Ledger) (hf : db.LimitsFit)
    (hb : request.settings.Bounded) (h₀ : engine.Reach (.boot db) s₀) (hi : s₀.session id = none)
    (h : engine.Reach s₀ s) (ha : s.Answered id request response) :
    Usage.Justified (fun a => Took engine s₀ s id (.usage a)) id request response := by
  refine Program.history_reach (P := engine) (I := fun took l => ∀ p, l = .usage request p →
    p.Justified (fun a => took <| .usage a) id request) ?mono ?starts ?acts h hi ha _ rfl
  case mono =>
    intro _ _ _ ht hi p hp
    exact (hi p hp).mono ht
  case starts =>
    rintro _ _ hi p rfl
    cases p <;> cases hi
    trivial
  case acts =>
    rintro took s _ _ _ _ hr hs hn ht hi p' rfl
    have hr := h₀.trans hr
    cases Session.Next.of_next hn
    case usage hn =>
      have hsound := sound hl hr
      exact hn.justified ht hb (limits_fit hf hr) hsound.ledger (locals hr hs)
        (hsound.requests hs) (locked_row hr hs) (checked_plan hr hs) (hi _ rfl)

end Execution
