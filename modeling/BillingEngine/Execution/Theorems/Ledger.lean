import BillingEngine.Library.WriteOnce
import BillingEngine.Execution.Theorems.Step

open Sessions MeteringEngine

-- Facts about a usage request which follow from its own steps.

namespace Usage

-- `e` is the event that the request inserts.
structure Inserts (id : Uuid) (request : UsageRequest) (e : UsageEvent) : Prop where
  id       : e.id = id
  tenant   : e.tenantId = request.payload.tenantId
  key      : e.idempotencyKey = request.idempotencyKey
  type     : e.eventType = request.payload.eventType
  quantity : e.totalQuantity = requested request

theorem Inserts.event {id request} {tenant : Tenant} {timestamp : Instant}
    (h : tenant.id = request.payload.tenantId) :
    Inserts id request (event id request tenant timestamp) :=
  ⟨rfl, h, rfl, rfl, rfl⟩

-- The check has found room for the request under a subscription of its tenant.
structure Checked (request : UsageRequest) (check : QuotaCheckResult) : Prop where
  eligible : QuotaEnforcer.Eligible request.payload.tenantId check.subscription
  headroom : check.used request.payload.eventType + requested request ≤
              check.plan.limit request.payload.eventType

namespace Phase

-- The event that has been flushed by the request, but not yet committed.
def flushed : Phase → Option UsageEvent
  | recording _ _ e | committing _ _ e _ => e
  | _                                    => none

-- The result of the check, once the request has been admitted.
def check? : Phase → Option QuotaCheckResult
  | inserting _ _ c _ | recording _ c _ | committing _ c _ _ => c
  | _                                                        => none

-- The facts that hold in a phase regardless of the database.
def Local (id : Uuid) (request : UsageRequest) : Phase → Prop
  | reading t | selecting t | locking t _ _ => t.id = request.payload.tenantId
  | checking t _ s => t.id = request.payload.tenantId ∧ QuotaEnforcer.Eligible t.id s
  | inserting t _ c _ => t.id = request.payload.tenantId ∧ Checked request c
  | recording _ c e => Checked request c ∧ Inserts id request e
  | committing _ c e r => Checked request c ∧ Inserts id request e ∧ r = newRecord e c.plan.name
  | _ => True

-- Where a request can be once it has been committed with the response.
def Responds (response : HttpResponse) : Phase → Prop
  | responding r | answered r => r = response
  | crashed                   => True
  | _                         => False

end Phase

variable {db : Database} {id : Uuid} {request : UsageRequest} {p p' : Phase} {a : Action}
  {e : Effect Resource Write}

theorem Next.responds {response : HttpResponse} (h : Next db id request p a p' e)
    (hp : p.Responds response) : p'.Responds response := by
  cases h <;> first | exact hp | trivial

theorem Next.local (h : Next db id request p a p' e) (hl : p.Local id request) :
    p'.Local id request := by
  cases h <;> simp only [Phase.Local] at hl
  case getTenant ht => exact Rows.find?_key_mem ht |>.right
  case lock he      => exact ⟨hl, he⟩
  case reserve hc =>
    have ha := QuotaEnforcer.checkSubscription_ok hc
    refine ⟨hl.left, ?_, ha.headroom⟩
    rw [ha.selected, ← hl.left]
    exact hl.right
  case insertEvent  => exact ⟨hl.right, .event hl.left⟩
  case insertRecord => exact ⟨hl.left, hl.right, rfl⟩
  all_goals first | exact hl | trivial

end Usage

-- The ledger of events and the cache of responses, which are written together.

-- `r` caches the response to the request that inserted `e`.
def Caches (e : UsageEvent) (r : IdempotencyRecord) : Prop :=
  ∃ planName, r = newRecord e planName

theorem Caches.key {e : UsageEvent} {r : IdempotencyRecord} (h : Caches e r) :
    e.idempotencyKey = r.idempotencyKey := by
  obtain ⟨_, rfl⟩ := h
  rfl

namespace Router

-- A successful answer.
def usageResult (statusCode : Nat) (body : UsageBody) : HttpResponse where
  statusCode := statusCode
  body       := .usage body

@[simp]
theorem resultResponse_created {body : UsageBody} :
    resultResponse (created body) = usageResult 201 body :=
  rfl

end Router

namespace Database

structure Ledger (db : Database) : Prop where
  keys   : db.usageEvents.map (·.idempotencyKey) |>.Nodup
  paired : List.Forall₂ Caches db.usageEvents db.idempotencyRecords

-- The cached responses as a store.
def responses (db : Database) : WriteOnce.Store String UsageBody :=
  fun key => db.record? key |>.map (·.responseBody)

variable {db db' : Database} {key : String} {e e' : UsageEvent} {r : IdempotencyRecord}
  {body : UsageBody}

theorem SameUsage.ledger (h : db.SameUsage db') (hl : db.Ledger) : db'.Ledger :=
  ⟨h.usageEvents ▸ hl.keys, h.usageEvents ▸ h.records ▸ hl.paired⟩

theorem SameUsage.responses (h : db.SameUsage db') : db'.responses = db.responses := by
  funext key
  simp only [Database.responses, record?, h.records]

namespace Ledger

theorem empty (he : db.usageEvents = []) (hr : db.idempotencyRecords = []) : db.Ledger where
  keys   := by simp [he]
  paired := by simp [he, hr]

theorem append (h : db.Ledger) (hk : ¬db.HasKey e.idempotencyKey) (hc : Caches e r) :
    ((Write.usage e r).apply db).Ledger where
  keys := by
    simp only [Write.apply, List.map_append, List.map_cons, List.map_nil]
    refine List.nodup_append.mpr ⟨h.keys, by simp, ?_⟩
    rintro _ hm _ hm' rfl
    obtain ⟨e', he, hk'⟩ := List.mem_map.mp hm
    exact hk ⟨e', he, by simpa [hk'] using hm'⟩
  paired := List.rel_append h.paired <| .cons hc .nil

theorem record_keys (h : db.Ledger) :
    db.idempotencyRecords.map (·.idempotencyKey) = db.usageEvents.map (·.idempotencyKey) := by
  have hp := List.forall₂_map_right_iff.mpr <| List.forall₂_map_left_iff.mpr <|
    h.paired.imp fun e r (hc : Caches e r) => hc.key
  exact (List.forall₂_eq_eq_eq ▸ hp : _ = _).symm

theorem event_unique (h : db.Ledger) (he : e ∈ db.usageEvents) (he' : e' ∈ db.usageEvents)
    (hk : e.idempotencyKey = e'.idempotencyKey) : e = e' :=
  List.inj_on_of_nodup_map h.keys he he' hk

theorem exists_caches (h : db.Ledger) (hr : r ∈ db.idempotencyRecords) :
    ∃ e ∈ db.usageEvents, Caches e r := by
  have ⟨i, hi, hri⟩ := List.mem_iff_getElem.mp hr
  have hl := h.paired.length_eq
  have hc := h.paired.get (hl ▸ hi) hi
  simp only [List.get_eq_getElem, hri] at hc
  exact ⟨_, List.getElem_mem _, hc⟩

-- The fast path hits if and only if there is an event under the key.
theorem responses_isSome (h : db.Ledger) : (db.responses key).isSome ↔ db.HasKey key := by
  have hk := h.record_keys
  simp only [Database.responses, record?, Option.isSome_map, List.find?_isSome, decide_eq_true_eq,
    HasKey, ← List.mem_map, hk]

theorem responses_eq_none (h : db.Ledger) (hk : ¬db.HasKey key) : db.responses key = none :=
  Option.not_isSome_iff_eq_none.mp <| mt h.responses_isSome.mp hk

theorem event_of_response (h : db.Ledger) (hb : db.responses key = some body) :
    ∃ e ∈ db.usageEvents, e.idempotencyKey = key ∧ ∃ planName, body = responseBody e planName := by
  have ⟨r, hr, hb⟩ := Option.map_eq_some_iff.mp hb
  have ⟨hm, hk⟩ := Rows.find?_key_mem hr
  have ⟨e, he, planName, hp⟩ := h.exists_caches hm
  subst hp hb
  exact ⟨e, he, hk, planName, rfl⟩

-- A stored response is replayed with `200`.
theorem replay (h : db.Ledger) (hr : db.record? key = some r) :
    db.responses key = some r.responseBody ∧
    Router.resultResponse (MeteringEngine.replay r) = Router.usageResult 200 r.responseBody := by
  have ⟨e, _, planName, hp⟩ := h.exists_caches (Rows.find?_key_mem hr).left
  subst hp
  simp [Database.responses, hr, Router.resultResponse, MeteringEngine.replay, newRecord,
    Router.usageResult]

-- The abstract view of the commit of a usage request.
theorem responses_usage (h : db.Ledger) (hk : ¬db.HasKey e.idempotencyKey) (hc : Caches e r) :
    ((Write.usage e r).apply db).responses =
      Function.update db.responses e.idempotencyKey (some r.responseBody) := by
  have hn := h.responses_eq_none hk
  rw [hc.key] at hn ⊢
  funext key
  simp only [Database.responses, record?, Write.apply, List.find?_append, Option.map_eq_none_iff]
    at hn ⊢
  by_cases hkey : key = r.idempotencyKey
  case pos => subst hkey; simp [hn]
  case neg => simp [Function.update_of_ne hkey, Ne.symm hkey, Database.responses, record?]

end Ledger
end Database
