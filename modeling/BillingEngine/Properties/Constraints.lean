import BillingEngine.Execution.Theorems.Deliveries
import BillingEngine.Execution.Theorems.Keys
import BillingEngine.Properties.Isolation

open Sessions StripeWebhookHandler

namespace Database

-- The rows that the foreign keys of a subscription refer to.
def References (db : Database) (tenantId : Uuid) (planId : Nat) : Prop :=
  (db.tenant? tenantId).isSome ∧ (db.plan? planId).isSome

-- The constraints of the schema.
structure Constrained (db : Database) : Prop where
  -- `PRIMARY KEY` and `UNIQUE`
  subscriptions : db.WellFormed
  unique        : db.Unique
  eventIds      : db.usageEvents.map (·.id) |>.Nodup
  eventKeys     : db.usageEvents.map (·.idempotencyKey) |>.Nodup
  recordKeys    : db.idempotencyRecords.map (·.idempotencyKey) |>.Nodup
  processed     : db.processedWebhooks.map (·.eventId) |>.Nodup
  -- `FOREIGN KEY`
  eventTenants  : ∀ e ∈ db.usageEvents, (db.tenant? e.tenantId).isSome
  recordTenants : ∀ r ∈ db.idempotencyRecords, (db.tenant? r.tenantId).isSome
  references    : ∀ s ∈ db.subscriptions, db.References s.tenantId s.planId
  -- The ranges of the columns
  storable      : ∀ e ∈ db.usageEvents, e.Storable

variable {db db' : Database} {tenantId : Uuid} {planId : Nat}

theorem References.mono (h : db.References tenantId planId)
    (ht : db.tenants.map (·.id) <+: db'.tenants.map (·.id)) (hp : db'.plans = db.plans) :
    db'.References tenantId planId where
  left  := tenant?_isSome.mpr <| ht.subset <| tenant?_isSome.mp h.left
  right := by rw [plan?, hp]; exact h.right

theorem References.of_mem {tenant : Tenant} {plan : Plan} (ht : tenant ∈ db.tenants)
    (hp : plan ∈ db.plans) : db.References tenant.id plan.id where
  left  := tenant?_isSome.mpr <| List.mem_map_of_mem ht
  right := List.find?_isSome.mpr ⟨plan, hp, by simp⟩

end Database

namespace Webhook

variable {db : Database} {event : WebhookEvent} {p p' : Phase} {a : Action}
  {e : Effect Resource Write} {row : NewSubscription}

-- The row of `subscriptions` that a delivery is going to insert.
def Phase.newRow : Phase → Option NewSubscription
  | flushingTenant _ work _ | flushingSubscription _ work _ => work.insert
  | committing _ _ (some <| .insert row _) _                => row
  | _                                                       => none

theorem Next.newRow (h : Next db event p a p' e) (hr : p'.newRow = some row) :
    p.newRow = some row ∨ db.References row.tenantId row.planId := by
  cases h <;> try contradiction
  case handle hh _ =>
    cases Handles.of_handle hh
    case checkout hc hp =>
      cases hr
      exact .inr <| .of_mem (mem_of_getTenant hc) <|
        Rows.of_filter_singleton (scalarOneOrNone_mem hp) |>.left
    all_goals cases hr
  case flushTenant => exact .inl hr
  case flushSubscription work _ _ hw =>
    rcases flushSubscription_ok hw with ⟨_, rfl⟩ | ⟨_, _, hi, _, rfl⟩
    case inl => cases hu : work.update <;> simp [hu, Phase.newRow] at hr
    case inr => cases hr; exact .inl hi

end Webhook

-- An event is flushed with values in the ranges of its columns.
theorem Usage.Next.storable {db id request p a p' e} {event : UsageEvent}
    (h : Next db id request p a p' e) (hf : p'.flushed = some event) :
    p.flushed = some event ∨ event.Storable := by
  cases h <;> try contradiction
  case insertEvent hs _ => cases hf; exact .inr hs
  case insertRecord     => exact .inl hf

namespace Execution

variable {plans : List Plan} {db : Database} {s s' : State} {l : Label}

theorem Step.references (h : Step s l s') {tenantId planId}
    (hr : s.db.References tenantId planId) : s'.db.References tenantId planId :=
  hr.mono h.tenants h.plans

theorem new_row_references (h : engine.Reach (.boot db) s) {id event p row}
    (hs : s.session id = some (.webhook event p)) :
    p.newRow = some row → s.db.References row.tenantId row.planId := by
  refine webhook_reach h (I := fun db _ _ p => p.newRow = some row →
    db.References row.tenantId row.planId) ?init ?received ?acts ?others hs
  case init     => simp [Sessions.State.boot]
  case received => simp [Webhook.Phase.newRow]
  case acts     =>
    intro s s' id event p a p' e hr hs hn hd _ hi hrow
    cases hn.writes
    case none hw => rw [hd, hw]; exact (hn.newRow hrow).elim hi fun hr => hr
    case commit  => cases hrow
  case others => exact fun _ hst _ _ _ hi hrow => hst.references <| hi hrow

-- The columns with foreign keys are never updated.
theorem Step.new_references (h : Step s l s') {sub : Subscription}
    (hn : ∀ {id event p row}, s.session id = some (.webhook event p) → p.newRow = some row →
      s.db.References row.tenantId row.planId)
    (hr : ∀ sub ∈ s.db.subscriptions, s.db.References sub.tenantId sub.planId)
    (hm : sub ∈ s'.db.subscriptions) : s'.db.References sub.tenantId sub.planId := by
  have mono {tenantId planId} : s.db.References tenantId planId →
    s'.db.References tenantId planId := h.references
  cases h.commits
  case none hd  => exact mono <| hr sub <| hd ▸ hm
  case usage hd => exact mono <| hr sub <| by simpa [hd, Write.apply] using hm
  case operation ho =>
    generalize s'.db = db' at ho hm mono ⊢
    cases Operation.Applies.of_apply ho
    case createTenant h' =>
      obtain ⟨plan, hplan, rfl⟩ := Router.createTenant_ok h'
      cases List.mem_append.mp hm
      case inl hm => exact mono <| hr sub hm
      case inr hm =>
        cases List.mem_singleton.mp hm
        have hplan := Rows.of_filter_singleton hplan |>.left
        exact ⟨by simp [Database.tenant?_isSome], List.find?_isSome.mpr ⟨plan, hplan, by simp⟩⟩
    all_goals exact mono <| hr sub hm
  case webhook write _ hs hd _ =>
    rw [hd, Database.applyWebhook_subscriptions] at hm
    rcases write with _ | ⟨row, _⟩ | ⟨id, changes⟩
    case none => exact mono <| hr sub hm
    case some.insert =>
      cases List.mem_append.mp hm
      case inl hm => exact mono <| hr sub hm
      case inr hm =>
        cases List.mem_singleton.mp hm
        exact mono <| hn hs rfl
    case some.update =>
      obtain ⟨sub', hm', rfl⟩ := Rows.mem_modify.mp hm
      have hr' := mono <| hr sub' hm'
      split <;> exact hr'

theorem references (hr : ∀ sub ∈ db.subscriptions, db.References sub.tenantId sub.planId)
    (h : engine.Reach (.boot db) s) :
    ∀ sub ∈ s.db.subscriptions, s.db.References sub.tenantId sub.planId :=
  h.invariant_of (I := fun s => ∀ sub ∈ s.db.subscriptions,
    s.db.References sub.tenantId sub.planId) (J := engine.Reach (.boot db)) (fun h => h) hr
    fun hj hi _ hst _ hm => (Step.of_step hst).new_references (new_row_references hj) hi hm

theorem event_ids (hu : db.NoUsage) (h : engine.Reach (.boot db) s) :
    (s.db.usageEvents.map (·.id)).Nodup := by
  refine h.invariant_of (I := fun s => (s.db.usageEvents.map (·.id)).Nodup)
    (J := engine.Reach (.boot db)) (fun h => h) (by simp [Sessions.State.boot, hu.left]) ?_
  intro s l s' hr hi hok hst
  cases (Step.of_step hst).records
  case same hu => rw [hu.usageEvents]; exact hi
  case commit id _ _ _ event _ hs hd =>
    have hid : event.id = id := (locals hr hs).right.left.id
    simp only [hd, Write.apply]
    refine Rows.nodup_append_key hi fun hm => ?_
    -- The session of the other event has committed before.
    obtain ⟨event', hm, he⟩ := List.mem_map.mp hm
    obtain ⟨_, ho⟩ := origin hu hr hm
    obtain ⟨_, _, ha, hp⟩ := ho.told
    rw [he, hid] at ha
    cases hs.symm.trans ha
    exact hp

theorem processed_ids (hp : (db.processedWebhooks.map (·.eventId)).Nodup)
    (h : engine.Reach (.boot db) s) : (s.db.processedWebhooks.map (·.eventId)).Nodup := by
  refine h.invariant_of (I := fun s => (s.db.processedWebhooks.map (·.eventId)).Nodup)
    (J := engine.Reach (.boot db)) (fun h => h) hp ?_
  intro s l s' hr hi hok hst
  cases (Step.of_step hst).commits
  case none hd      => rw [hd]; exact hi
  case usage hd     => rw [hd]; exact hi
  case operation ho => rw [Operation.processed ho]; exact hi
  case webhook hs hd _ =>
    rw [hd, Database.applyWebhook_processed]
    refine Rows.nodup_append_key hi fun hm => ?_
    have hid := (delivery_locals hr hs).left
    exact committing_unprocessed hr hs <| hid ▸ List.mem_map.mp hm

theorem flushed_storable (h : engine.Reach (.boot db) s) {id request p} {event : UsageEvent}
    (hs : s.session id = some (.usage request p)) : p.flushed = some event → event.Storable := by
  refine usage_reach h (I := fun _ _ _ p => p.flushed = some event → event.Storable)
    ?init ?received ?acts ?others hs
  case init     => simp [Sessions.State.boot]
  case received => simp [Usage.Phase.flushed]
  case acts     => exact fun _ _ hn _ _ hi hf => (hn.storable hf).elim hi fun hs => hs
  case others   => exact fun _ _ _ _ _ hi => hi

theorem events_storable (he : ∀ e ∈ db.usageEvents, e.Storable) (h : engine.Reach (.boot db) s) :
    ∀ e ∈ s.db.usageEvents, e.Storable := by
  refine h.invariant_of (I := fun s => ∀ e ∈ s.db.usageEvents, e.Storable)
    (J := engine.Reach (.boot db)) (fun h => h) he ?_
  intro s l s' hr hi hok hst e he
  cases (Step.of_step hst).mem_usageEvents he
  case inl he => exact hi e he
  case inr he =>
    obtain ⟨_, _, _, _, _, _, hs⟩ := he
    exact flushed_storable hr hs rfl

-- The constraints are tested when a statement is executed, and other sessions commit before its own
-- session does. The locks on the keys preserve what has been tested.
theorem constraints_kept (hp : plans.map (·.name) |>.Nodup)
    (h : engine.Reach (.boot <| .migrated plans) s) : s.db.Constrained := by
  have hl := sound (.empty rfl rfl) h |>.ledger
  have ht := event_tenant (by simp [Database.Referential, Database.migrated]) h
  refine ⟨wellFormed .migrated h, unique (.migrated hp) h, event_ids ⟨rfl, rfl⟩ h, hl.keys,
    hl.record_keys ▸ hl.keys, processed_ids (by simp [Database.migrated]) h, ht, ?_,
    references (by simp [Database.migrated]) h, events_storable (by simp [Database.migrated]) h⟩
  intro r hr
  obtain ⟨e, he, _, rfl⟩ := hl.exists_caches hr
  exact ht e he

-- Two requests with one key, and a delivery in between.
theorem constraints_kept_race : ∃ s : State, s.db.Constrained ∧
    s.db.usageEvents.map (·.id) = [10] ∧ s.db.processedWebhooks.map (·.eventId) = ["evt_1"] ∧
    s.Answered 11 (.apiCall 1 "a" (by decide)) (Router.usageResult 200
      ⟨10, 1, "api_call", 1, 0, "free", "a"⟩) := by
  have h : Transition.run engine.step (.boot <| .migrated Plan.seeds)
    (.env (.createTenant 1 { name := "acme" } 0) ::
      (checkLabels 10 (.apiCall 1 "a" (by decide)) (.stable _) 1 ++
      (checkLabels 11 (.apiCall 1 "a" (by decide)) (.stable _) 1).take 4 ++
      deliveryLabels 20 (.updated "evt_1" "sub" "active") 2 ++ commitLabels 10 3 ++
      [.lock, .check 4, .insertEvent 4, .rollback, .reread].map (.act 11 <| .usage ·)))
    |>.isSome := rfl
  have hr : engine.Reach (.boot <| .migrated Plan.seeds) _ :=
    Transition.Reach.of_run (Option.some_get h).symm |>.weaken
  have hp : Plan.seeds.map (·.name) |>.Nodup := by simp [Plan.seeds]
  exact ⟨_, constraints_kept hp hr, rfl, rfl, rfl⟩

end Execution
