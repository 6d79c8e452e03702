import BillingEngine.Execution.Serial

open QuotaEnforcer MeteringEngine

variable {db : Database} {o : OrderBy} {id : Uuid} {request : UsageRequest} {tenant : Tenant}
  {now timestamp : Instant}

-- What the check lets through fits the columns of `usage_events`, where no cost is negative.
structure UsageRequest.NoOverflow (request : UsageRequest) (db : Database) (o : OrderBy) (id : Uuid)
    (tenant : Tenant) (now timestamp : Instant) : Prop where
  admitted : ∀ check, checkAndReserve db o tenant request.payload.eventType
      (Usage.requested request) now = .ok check →
    (Usage.event id request tenant timestamp).Storable ∧
      0 ≤ (Usage.event id request tenant timestamp).costCents
  -- So no request fails with an error of the database,
  stored : ∀ e, (recordUsage db request.settings o id tenant request.idempotencyKey
    request.payload.eventType request.payload.toTokenUsage now timestamp).1 ≠ .error (.database e)
  -- and one that is too large is told so, if the guards before the comparison have passed.
  refused : ¬(Usage.event id request tenant timestamp).Storable →
    (∀ check, checkAndReserve db o tenant request.payload.eventType (Usage.requested request) now ≠
      .ok check) ∧
    ∀ subscription plan, tenant.status = .active →
      getLockedActiveSubscription db o tenant.id = some subscription →
      now < subscription.currentPeriodEnd → db.plan? subscription.planId = some plan →
      db.record? request.idempotencyKey = none →
      ∃ error, (Router.quotaResponse error).statusCode = 429 ∧
        recordUsage db request.settings o id tenant request.idempotencyKey
          request.payload.eventType request.payload.toTokenUsage now timestamp =
            (.error <| .quota error, db)

-- The request is too large to be stored, comes to the comparison, and the message of its refusal
-- has a number that `str` does not print.
def UsageRequest.Overlong (request : UsageRequest) (db : Database) (o : OrderBy) (id : Uuid)
    (tenant : Tenant) (now timestamp : Instant) : Prop :=
  ¬(Usage.event id request tenant timestamp).Storable ∧
  db.record? request.idempotencyKey = none ∧
  ∃ subscription plan, Exceeds db o tenant request.payload.eventType (Usage.requested request) now
      subscription plan ∧
    ¬(Printable (usedQuantity db.usageEvents tenant.id subscription.currentPeriodStart
        subscription.currentPeriodEnd request.payload.eventType) ∧
      Printable (Usage.requested request) ∧ Printable (plan.limit request.payload.eventType))

theorem admitted_storable {check : QuotaCheckResult} (hf : db.LimitsFit)
    (hb : request.settings.Bounded)
    (hc : checkAndReserve db o tenant request.payload.eventType (Usage.requested request) now =
      .ok check) :
    (Usage.event id request tenant timestamp).Storable ∧
      0 ≤ (Usage.event id request tenant timestamp).costCents := by
  obtain ⟨plan, hp, hl⟩ := checkAndReserve_limit hc
  exact newUsageEvent_storable hb request.payload.valid <| lt_of_le_of_lt hl (hf plan hp _)

theorem oversized_exceeds {subscription : Subscription} {plan : Plan} (hf : db.LimitsFit)
    (hb : request.settings.Bounded)
    (hs : ¬(Usage.event id request tenant timestamp).Storable) (ha : tenant.status = .active)
    (hl : getLockedActiveSubscription db o tenant.id = some subscription)
    (hn : now < subscription.currentPeriodEnd) (hp : db.plan? subscription.planId = some plan) :
    Exceeds db o tenant request.payload.eventType (Usage.requested request) now subscription
      plan := by
  refine ⟨ha, hl, hn, hp, not_le.mp fun hle => ?_⟩
  obtain ⟨_, hc⟩ := checkAndReserve_compares ha hl hn hp |>.left hle
  exact hs (admitted_storable hf hb hc).left

theorem UsageRequest.NoOverflow.not_overlong (h : request.NoOverflow db o id tenant now timestamp) :
    ¬request.Overlong db o id tenant now timestamp := by
  rintro ⟨hs, hr, subscription, plan, hx, hprint⟩
  obtain ⟨_, hrefused⟩ := h.refused hs
  obtain ⟨error, hcode, he⟩ :=
    hrefused subscription plan hx.active hx.selected hx.current hx.found hr
  have hc := hx.checkAndReserve
  rw [quotaExceededError_valueError hprint] at hc
  have hv := Prod.ext_iff.mp (he.symm.trans <| recordUsage_error hr hc) |>.left
  cases Except.error.inj hv
  cases hcode

-- No admitted usage can overflow a column, and what is too large is refused, unless the refusal
-- itself fails.
theorem no_overflow (hf : db.LimitsFit) (hb : request.settings.Bounded) :
    request.NoOverflow db o id tenant now timestamp ↔
      ¬request.Overlong db o id tenant now timestamp := by
  constructor
  case mp => exact UsageRequest.NoOverflow.not_overlong
  case mpr =>
    intro hlong
    constructor
    case admitted => exact fun _ hc => admitted_storable hf hb hc
    case stored =>
      intro e
      unfold recordUsage
      split
      case h_1 => simp
      case h_2 =>
        split
        case h_1 => simp
        case h_2 check hc =>
          have hs : (Usage.event id request tenant timestamp).Storable :=
            admitted_storable hf hb hc |>.left
          rw [Usage.event] at hs
          simp only [hs, not_true_eq_false, if_false]
          split <;> simp
    case refused =>
      intro hs
      refine ⟨fun check hc => hs (admitted_storable hf hb hc).left, ?_⟩
      intro subscription plan ha hl hn hp hr
      have hx := oversized_exceeds hf hb hs ha hl hn hp
      have hprint := not_not.mp fun hprint => hlong ⟨hs, hr, subscription, plan, hx, hprint⟩
      have hc := hx.checkAndReserve
      rw [quotaExceededError_eq hprint.left hprint.right.left hprint.right.right] at hc
      exact ⟨_, rfl, recordUsage_error hr hc⟩

-- More tokens than a `BigInteger` holds.
theorem no_overflow_tokens : ∃ (db : Database) (tenant : Tenant) (request : UsageRequest),
    request.payload.inputTokens = 2 ^ 63 ∧ request.NoOverflow db (.stable _) 10 tenant 5 6 := by
  let db : Database := { Database.migrated Plan.seeds with
    tenants       := [⟨1, "acme", .free, none, .active⟩]
    subscriptions := [⟨1, 1, none, 1, .active, 0, 100⟩] }
  let request : UsageRequest := {
    payload := { tenantId := 1, eventType := .aiToken, inputTokens := 2 ^ 63, valid := nofun }
    idempotencyKey := "a"
    keyLength      := by decide
  }
  refine ⟨db, ⟨1, "acme", .free, none, .active⟩, request, rfl,
    no_overflow (.seeds rfl) Settings.bounded_default |>.mpr ?_⟩
  rintro ⟨_, _, subscription, plan, hx, hprint⟩
  cases hx.selected
  cases hx.found
  exact hprint ⟨by decide, by decide, by decide⟩

-- A number that `json.loads` reads, but four of them are too long to be printed.
theorem exists_unprintable : ∃ n, Printable n ∧ ¬Printable (n + n + n + n) ∧ 2 ^ 63 ≤ n := by
  have hpow : 2 ^ 64 ≤ 10 ^ maxStrDigits := calc
    _ ≤ 10 ^ 64           := Nat.pow_le_pow_left (by decide) _
    _ ≤ 10 ^ maxStrDigits := Nat.pow_le_pow_right (by decide) (by decide)
  refine ⟨10 ^ maxStrDigits - 1, printable_iff.mpr ?_, mt printable_iff.mp ?_, ?_⟩ <;> omega

-- A request of four times as many tokens.
def UsageRequest.fourfold (tenantId : Uuid) (key : String) (tokens : Nat)
    (keyLength : 1 ≤ key.length ∧ key.length ≤ 255) : UsageRequest where
  payload := {
    tenantId          := tenantId
    eventType         := .aiToken
    inputTokens       := tokens
    cachedInputTokens := tokens
    outputTokens      := tokens
    reasoningTokens   := tokens
    valid             := nofun
  }
  idempotencyKey := key
  keyLength      := keyLength

-- The message of the refusal gives the sum of the four counts.
theorem overflow_valueError : ∃ (db : Database) (tenant : Tenant) (request : UsageRequest),
    db.LimitsFit ∧ request.settings.Bounded ∧ Printable request.payload.inputTokens ∧
    Printable request.payload.cachedInputTokens ∧ Printable request.payload.outputTokens ∧
    Printable request.payload.reasoningTokens ∧
    ¬request.NoOverflow db (.stable _) 10 tenant 5 6 := by
  obtain ⟨n, hp, hu, hn⟩ := exists_unprintable
  let db : Database := { Database.migrated Plan.seeds with
    tenants       := [⟨1, "acme", .free, none, .active⟩]
    subscriptions := [⟨1, 1, none, 1, .active, 0, 100⟩] }
  let tenant : Tenant := ⟨1, "acme", .free, none, .active⟩
  let request := UsageRequest.fourfold 1 "a" n (by decide)
  have hf : db.LimitsFit := .seeds rfl
  have hs : ¬(Usage.event 10 request tenant 6).Storable := fun hs => absurd hs.left (not_lt.mpr hn)
  have hx := oversized_exceeds (o := .stable _) hf Settings.bounded_default hs rfl rfl
    (by decide : (5 : Instant) < 100) rfl
  exact ⟨db, tenant, request, hf, Settings.bounded_default, hp, hp, hp, hp, fun h =>
    h.not_overlong ⟨hs, rfl, _, _, hx, fun hprint => hu hprint.right.left⟩⟩
