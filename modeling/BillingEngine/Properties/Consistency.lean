import Mathlib.Data.Rat.Floor
import BillingEngine.Properties.Isolation

open Sessions MeteringEngine PricingCalculator

def UsageEvent.tokens (e : UsageEvent) : TokenUsage where
  inputTokens       := e.inputTokens
  cachedInputTokens := e.cachedInputTokens
  outputTokens      := e.outputTokens
  reasoningTokens   := e.reasoningTokens

-- The quantity and the cost of an event follow from its type and its tokens.
structure UsageEvent.Accounts (settings : Settings) (e : UsageEvent) : Prop where
  apiCall : e.eventType = .apiCall → e.totalQuantity = 1 ∧ e.tokens = {} ∧ e.costCents = 0
  aiToken : e.eventType = .aiToken →
    e.totalQuantity =
      e.inputTokens + e.cachedInputTokens + e.outputTokens + e.reasoningTokens ∧
    e.costCents = ⌊(calculateCostMicroCents settings e.tokens : ℚ) / 10000⌋

-- A record answers for an event.
structure IdempotencyRecord.AnswersFor (r : IdempotencyRecord) (e : UsageEvent) : Prop where
  statusCode : r.statusCode = 201
  tenantId   : r.tenantId = e.tenantId
  body       : ∃ planName, r.responseBody = ⟨e.id, e.tenantId, e.eventType.value, e.totalQuantity,
                e.costCents, planName, e.idempotencyKey⟩

theorem PricingCalculator.calculateCostCents_eq_floor {settings : Settings} {usage : TokenUsage} :
    calculateCostCents settings usage =
      ⌊(calculateCostMicroCents settings usage : ℚ) / 10000⌋ :=
  Rat.floor_intCast_div_natCast _ 10000 |>.symm

namespace Usage

-- The row that a request inserts for its own tenant.
def row (id : Uuid) (request : UsageRequest) (timestamp : Instant) : UsageEvent :=
  newUsageEvent request.settings id request.payload.tenantId request.payload.eventType
    request.payload.toTokenUsage request.idempotencyKey timestamp

theorem row_accounts {id : Uuid} {request : UsageRequest} {timestamp : Instant} :
    (row id request timestamp).Accounts request.settings where
  apiCall ht := by
    have ht : request.payload.eventType = .apiCall := ht
    have hu := request.payload.valid ht
    refine ⟨by simp [row, newUsageEvent, requestedQuantity, ht], hu, ?_⟩
    simp [row, newUsageEvent, costCents, ht, calculateApiCallCostCents]
  aiToken ht := by
    have ht : request.payload.eventType = .aiToken := ht
    constructor
    · simp [row, newUsageEvent, requestedQuantity, ht, TokenUsage.totalTokens]
    · have hu : (row id request timestamp).tokens = request.payload.toTokenUsage := rfl
      rw [hu, ← calculateCostCents_eq_floor]
      simp [row, newUsageEvent, costCents, ht]

-- A flush inserts the row of the request.
theorem Next.flushed {db id request p a p' e event} (h : Next db id request p a p' e)
    (hl : p.Local id request) (he : p'.flushed = some event) :
    p.flushed = some event ∨ ∃ timestamp, event = row id request timestamp := by
  cases h <;> try contradiction
  case insertEvent timestamp _ _ _ =>
    cases he
    exact .inr ⟨timestamp, by rw [row, ← hl.left, Usage.event]⟩
  all_goals exact .inl he

end Usage

namespace Execution

variable {db : Database} {s : State} {e : UsageEvent}

theorem flushed_row (h : engine.Reach (.boot db) s) {id request p}
    (hs : s.session id = some (.usage request p)) :
    p.flushed = some e → ∃ timestamp, e = Usage.row id request timestamp := by
  refine usage_reach h (I := fun _ id request p => p.flushed = some e →
    ∃ timestamp, e = Usage.row id request timestamp) ?init ?received ?acts ?others hs
  case init     => simp [Sessions.State.boot]
  case received => simp [Usage.Phase.flushed]
  case acts     =>
    intro _ _ _ _ _ _ _ _ hr hs hn _ _ hi he
    exact hn.flushed (locals hr hs) he |>.elim hi fun h => h
  case others   => exact fun _ _ _ _ _ hi => hi

-- An event is the row of a request, whose id it has got.
theorem event_row (hu : db.NoUsage) (h : engine.Reach (.boot db) s) (he : e ∈ s.db.usageEvents) :
    ∃ request p timestamp, s.session e.id = some (.usage request p) ∧
      e = Usage.row e.id request timestamp := by
  induction h
  case refl => simp [Sessions.State.boot, hu.left] at he
  case tail s₁ _ _ h _ hs hi =>
    have hs := Step.of_step hs
    have hlocal : ∃ request p timestamp, s₁.session e.id = some (.usage request p) ∧
        e = Usage.row e.id request timestamp := by
      cases hs.mem_usageEvents he
      case inl he => exact hi he
      case inr he =>
        obtain ⟨id, request, _, check, record, _, hp⟩ := he
        obtain ⟨timestamp, hrow⟩ := flushed_row h hp rfl
        have hid : e.id = id := by rw [hrow]; rfl
        exact ⟨request, _, timestamp, hid ▸ hp, hid ▸ hrow⟩
    obtain ⟨request, p, timestamp, hp, hrow⟩ := hlocal
    obtain ⟨session, hs', hinput⟩ := hs.persists hp
    cases session <;> cases hinput
    exact ⟨_, _, timestamp, hs', hrow⟩

theorem event_accounts (hu : db.NoUsage) (h : engine.Reach (.boot db) s)
    (he : e ∈ s.db.usageEvents) : ∃ request, s.Origin e request ∧ e.Accounts request.settings := by
  obtain ⟨request, ho⟩ := origin hu h he
  obtain ⟨request', p, timestamp, hp, hrow⟩ := event_row hu h he
  obtain ⟨_, _, ha, _⟩ := ho.told
  cases Option.some.inj <| hp.symm.trans ha
  exact ⟨request, ho, hrow ▸ Usage.row_accounts⟩

-- The ledger of events and the cache of responses say the same.
structure State.Consistent (s : State) : Prop where
  keys : ∀ key, s.db.HasKey key ↔ ∃ r ∈ s.db.idempotencyRecords, r.idempotencyKey = key
  cached : ∀ e ∈ s.db.usageEvents, ∀ r ∈ s.db.idempotencyRecords,
    r.idempotencyKey = e.idempotencyKey → r.AnswersFor e
  accounts : ∀ e ∈ s.db.usageEvents, ∃ request, s.Origin e request ∧ e.Accounts request.settings
  -- After a key conflict there is a response to be replayed,
  reread : ∀ {id request}, s.session id = some (.usage request .rereading) →
    ∃ r, s.db.record? request.idempotencyKey = some r
  -- and so nobody is told to retry.
  noConflict : ∀ {id request response}, s.Answered id request response → response.statusCode ≠ 409

theorem consistent (hu : db.NoUsage) (h : engine.Reach (.boot db) s) : s.Consistent := by
  have hs := sound hu.ledger h
  constructor
  case keys =>
    intro key
    simp only [Database.HasKey, ← List.mem_map, hs.ledger.record_keys]
  case cached =>
    intro e he r hr hk
    obtain ⟨e', he', planName, rfl⟩ := hs.ledger.exists_caches hr
    obtain rfl := hs.ledger.event_unique he he' hk.symm
    exact ⟨rfl, rfl, planName, rfl⟩
  case accounts => exact fun e he => event_accounts hu h he
  case reread =>
    intro id request hp
    have hk : s.db.HasKey request.idempotencyKey := hs.requests hp
    have hr := hs.ledger.responses_isSome.mpr hk
    rw [Database.responses, Option.isSome_map] at hr
    exact Option.isSome_iff_exists.mp hr
  case noConflict =>
    intro id request response ha
    cases hs.requests ha
    case refused raised => rcases raised with ⟨_ | _⟩ | _ <;> simp [Router.raisedResponse,
                            Router.quotaResponse, Router.internalError]
    all_goals simp [Router.usageResult, Router.tenantNotFound]

theorem consistent_tokens : ∃ (s : State) (e : UsageEvent),
    engine.Reach (.boot <| .migrated Plan.seeds) s ∧ e ∈ s.db.usageEvents ∧
    e.totalQuantity = 1000 ∧ e.costCents = 15 ∧ s.Consistent := by
  let request : UsageRequest := {
    payload        := { tenantId := 1, eventType := .aiToken, outputTokens := 1000, valid := nofun }
    idempotencyKey := "a"
    keyLength      := by decide
  }
  let as := .env (.createTenant 1 { name := "acme" } 0) ::
    checkLabels 10 request (.stable _) 1 ++ commitLabels 10 2
  have hrun : (Transition.run engine.step (.boot <| .migrated Plan.seeds) as).map
      (·.db.usageEvents) = some [Usage.row 10 request 2] := by decide +kernel
  obtain ⟨s, hs, he⟩ := Option.map_eq_some_iff.mp hrun
  have hr : engine.Reach (.boot <| .migrated Plan.seeds) s := Transition.Reach.of_run hs |>.weaken
  have hm : Usage.row 10 request 2 ∈ s.db.usageEvents := by simp [he]
  exact ⟨s, _, hr, hm, rfl, by decide +kernel, consistent ⟨rfl, rfl⟩ hr⟩

end Execution
