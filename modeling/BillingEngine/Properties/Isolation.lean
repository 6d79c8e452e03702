import BillingEngine.Properties.ExactlyOnce

open Sessions QuotaEnforcer MeteringEngine

namespace Database

-- The database without the usage of a tenant.
def hideTenant (tenantId : Uuid) (db : Database) : Database := { db with
  usageEvents        := db.usageEvents.filter (·.tenantId ≠ tenantId)
  idempotencyRecords := db.idempotencyRecords.filter (·.tenantId ≠ tenantId) }

variable {db db' : Database} {tenantId : Uuid}

theorem NoUsage.hideTenant (h : db.NoUsage) : db.hideTenant tenantId = db := by
  obtain ⟨he, hr⟩ := h
  cases db
  cases he
  cases hr
  rfl

theorem hideTenant_usedQuantity {id : Uuid} (h : id ≠ tenantId) {periodStart periodEnd type} :
    usedQuantity (db.hideTenant tenantId).usageEvents id periodStart periodEnd type =
      usedQuantity db.usageEvents id periodStart periodEnd type :=
  Rows.total_filter fun _ _ hc he => h <| hc.left.symm.trans he

theorem hideTenant_checkSubscription {tenant : Tenant} (h : tenant.id ≠ tenantId)
    {subscription type requested now} :
    checkSubscription (db.hideTenant tenantId) tenant subscription type requested now =
      checkSubscription db tenant subscription type requested now := by
  simp only [checkSubscription, sumPeriodUsage, hideTenant_usedQuantity h]
  rfl

theorem hideTenant_applyWebhook {marker planType write} :
    (db.applyWebhook marker planType write).hideTenant tenantId =
      (db.hideTenant tenantId).applyWebhook marker planType write := by
  cases planType <;> rcases write with _ | ⟨_ | _⟩ <;> rfl

theorem hideTenant_operation {op : Operation} (h : op.apply db = some db') :
    op.apply (db.hideTenant tenantId) = some (db'.hideTenant tenantId) := by
  cases Operation.Applies.of_apply h
  case createTenant hf h =>
    unfold Router.createTenant at h
    split at h <;> try contradiction
    split at h <;> cases h
    simp only [Operation.apply, Router.createTenant, hideTenant, if_false, *]
    rfl
  case linkCustomer hf =>
    exact if_neg fun ⟨t, ht, hc⟩ => hf t ht hc
  case setTenantStatus => rfl

-- The keys under which the tenant has events are its own.
theorem hideTenant_record? {key : String} (hl : db.Ledger)
    (h : ∀ e ∈ db.usageEvents, e.idempotencyKey = key → e.tenantId ≠ tenantId) :
    (db.hideTenant tenantId).record? key = db.record? key := by
  refine Rows.find?_filter_key fun r hr hk => ?_
  have ⟨e, he, _, hp⟩ := hl.exists_caches hr
  subst hp
  exact h e he hk

theorem hideTenant_hasKey {key : String}
    (h : ∀ e ∈ db.usageEvents, e.idempotencyKey = key → e.tenantId ≠ tenantId) :
    (db.hideTenant tenantId).HasKey key ↔ db.HasKey key := by
  constructor
  case mp  => exact fun ⟨e, he, hk⟩ => ⟨e, List.mem_of_mem_filter he, hk⟩
  case mpr =>
    intro ⟨e, he, hk⟩
    exact ⟨e, List.mem_filter.mpr ⟨he, decide_eq_true <| h e he hk⟩, hk⟩

end Database

-- A request does not depend on the usage of another tenant which does not use its key.
theorem Usage.Next.hideTenant {db : Database} {id request p a p' e} {tenantId : Uuid}
    (h : Usage.Next db id request p a p' e) (hl : db.Ledger) (hp : p.Local id request)
    (ht : request.payload.tenantId ≠ tenantId)
    (hk : ∀ e ∈ db.usageEvents, e.idempotencyKey = request.idempotencyKey → e.tenantId ≠ tenantId) :
    Usage.Next (db.hideTenant tenantId) id request p a p' e := by
  have hr := Database.hideTenant_record? hl hk
  have hh := Database.hideTenant_hasKey hk
  cases h
  case unknownTenant h  => exact .unknownTenant h
  case getTenant h      => exact .getTenant h
  case replay h         => exact .replay <| hr.trans h
  case inactive h hs    => exact .inactive (hr.trans h) hs
  case miss h hs        => exact .miss (hr.trans h) hs
  case select           => exact .select
  case noCandidate      => exact .noCandidate
  case skip hs          => exact .skip hs
  case lock hs he       => exact .lock hs he
  case refuse hc        =>
    exact .refuse <| Database.hideTenant_checkSubscription (hp.left ▸ ht) |>.trans hc
  case reserve hc       =>
    exact .reserve <| Database.hideTenant_checkSubscription (hp.left ▸ ht) |>.trans hc
  case overflow hn hs   => exact .overflow hn hs
  case duplicateEvent hn hs hd => exact .duplicateEvent hn hs <| hh.mpr hd
  case insertEvent hn hs hd    => exact .insertEvent hn hs <| mt hh.mp hd
  case duplicateRecord hd => exact .duplicateRecord <| hp.right.key ▸ hr.trans (hp.right.key ▸ hd)
  case insertRecord hd    => exact .insertRecord <| hp.right.key ▸ hr.trans (hp.right.key ▸ hd)
  case commit           => exact .commit
  case respond          => exact .respond
  case answer           => exact .answer
  case abandon          => exact .abandon
  case reread           =>
    have he : MeteringEngine.reread db request.idempotencyKey =
        MeteringEngine.reread (db.hideTenant tenantId) request.idempotencyKey := by
      simp only [MeteringEngine.reread, hr]
    exact he ▸ .reread
  case crash hf         => exact .crash hf

namespace Execution

variable {db : Database} {s s' : State} {l : Label} {as : List Label} {id tenantId : Uuid}
  {request : UsageRequest}

-- The sessions of a tenant's usage requests.
def State.RequestOf (s : State) (tenantId id : Uuid) : Prop :=
  match s.session id with
  | some (.usage request _) => request.payload.tenantId = tenantId
  | _                       => False

instance {s : State} : DecidablePred (s.RequestOf tenantId) := fun id => by
  unfold State.RequestOf
  split <;> infer_instance

theorem State.requestOf_iff {p} (hs : s.session id = some (.usage request p)) :
    s.RequestOf tenantId id ↔ request.payload.tenantId = tenantId := by
  simp only [RequestOf, hs]

-- No key of the tenant's requests is the key of another tenant's request.
def State.KeysApart (s : State) (tenantId : Uuid) : Prop :=
  ∀ {id id' request request' p p'}, s.session id = some (.usage request p) →
    s.session id' = some (.usage request' p') → request.idempotencyKey = request'.idempotencyKey →
    request.payload.tenantId = tenantId → request'.payload.tenantId = tenantId

-- An event goes back to a request that is answered with `201`, unless it dies before.
structure State.Origin (s : State) (e : UsageEvent) (request : UsageRequest) : Prop where
  inserts : Usage.Inserts e.id request e
  told    : ∃ planName p, s.session e.id = some (.usage request p) ∧
    p.Responds (Router.usageResult 201 <| responseBody e planName)

theorem Step.commit_responding {skipped check event record}
    (h : Step s (.act id <| .usage .commit) s')
    (hs : s.session id = some (.usage request <| .committing skipped check event record)) :
    s'.session id = some (.usage request <| .responding <|
      Router.usageResult 201 record.responseBody) := by
  cases h
  case usage hs' _ hn =>
    cases hs.symm.trans hs'
    cases hn
    simp [Program.perform]

theorem Step.responds {response : HttpResponse} {p} (h : Step s l s')
    (hs : s.session id = some (.usage request p)) (hp : p.Responds response) :
    ∃ p', s'.session id = some (.usage request p') ∧ p'.Responds response := by
  by_cases ht : l.session? = some id
  case neg => exact ⟨p, h.session_eq ht |>.trans hs, hp⟩
  case pos =>
    cases h <;> cases ht
    case receive idle    => cases hs.symm.trans idle
    case deliver idle    => cases hs.symm.trans idle
    case webhook _ hs' _ => cases hs.symm.trans hs'
    case usage hs' hn _  =>
      cases hs.symm.trans hs'
      exact ⟨_, Function.update_self .., hn.responds hp⟩

theorem responds {response : HttpResponse} {p} {ok : State → Label → Prop}
    (h : Transition.Reach engine.step ok s s') (hs : s.session id = some (.usage request p))
    (hp : p.Responds response) :
    ∃ p', s'.session id = some (.usage request p') ∧ p'.Responds response :=
  h.invariant (I := fun s => ∃ p, s.session id = some (.usage request p) ∧ p.Responds response)
    ⟨p, hs, hp⟩ fun ⟨_, hs, hp⟩ _ hst => (Step.of_step hst).responds hs hp

theorem Step.origin {e} (h : Step s l s') (hl : ∀ {id request p},
      s.session id = some (.usage request p) → p.Local id request)
    (he : e ∈ s'.db.usageEvents) : e ∈ s.db.usageEvents ∨ ∃ request, s'.Origin e request := by
  cases h.mem_usageEvents he
  case inl he => exact .inl he
  case inr he =>
    obtain ⟨id, request, skipped, check, record, rfl, hs⟩ := he
    obtain ⟨_, ho, hr⟩ := hl hs
    obtain rfl := ho.id
    subst hr
    exact .inr ⟨request, ho, check.plan.name, _, h.commit_responding hs, rfl⟩

theorem origin (hu : db.NoUsage) (h : engine.Reach (.boot db) s) {e} (he : e ∈ s.db.usageEvents) :
    ∃ request, s.Origin e request := by
  induction h
  case refl => simp [Sessions.State.boot, hu.left] at he
  case tail h _ hs hi =>
    cases (Step.of_step hs).origin (locals h) he
    case inl he =>
      obtain ⟨request, ho, planName, p, hp, ht⟩ := hi he
      obtain ⟨p', hp', ht'⟩ := (Step.of_step hs).responds hp ht
      exact ⟨request, ho, planName, p', hp', ht'⟩
    case inr ho => exact ho

-- The events under the key of another tenant's request are not the tenant's.
theorem State.KeysApart.events (hk : s.KeysApart tenantId) (hu : db.NoUsage)
    (h : engine.Reach (.boot db) s₁) (hr : engine.Reach s₁ s) {p}
    (hs : s₁.session id = some (.usage request p)) (ht : request.payload.tenantId ≠ tenantId) :
    ∀ e ∈ s₁.db.usageEvents, e.idempotencyKey = request.idempotencyKey → e.tenantId ≠ tenantId := by
  intro e he hke hte
  have ⟨request', ho, _, _, ha, _⟩ := Execution.origin hu h he
  have ⟨_, ha⟩ := usage_persists hr ha
  have ⟨_, hs⟩ := usage_persists hr hs
  exact ht <| hk ha hs (ho.key.symm.trans hke) (ho.tenant.symm.trans hte)

theorem requestOf_iff_of_reach {p} (hr : engine.Reach s s')
    (hs : s.session id = some (.usage request p)) :
    s'.RequestOf tenantId id ↔ request.payload.tenantId = tenantId :=
  have ⟨_, hs'⟩ := usage_persists hr hs
  State.requestOf_iff hs'

-- What the tenant's requests do can not be seen by the others,

theorem hide_hidden (h : engine.Reach (.boot db) s₁) (hst : engine.step s₁ l = some s₂)
    (hr : engine.Reach s₂ s) (hl : l.Of (s.RequestOf tenantId)) :
    s₂.hide (s.RequestOf tenantId) (·.hideTenant tenantId) =
      s₁.hide (s.RequestOf tenantId) (·.hideTenant tenantId) := by
  have hr₁ : engine.Reach s₁ s := .trans (.single trivial hst) hr
  refine Program.step_iff.mp hst |>.hide_hidden hl ?_
  obtain ⟨id, hid, hh⟩ := hl
  cases (Step.of_step hst).commits
  case none hd => rw [hd]
  case operation => cases hid
  case usage request skipped check event record hs hd =>
    cases hid
    obtain ⟨_, ho, hrec⟩ := locals h hs
    have ht := requestOf_iff_of_reach hr₁ hs |>.mp hh
    rw [← ho.tenant] at ht
    subst hrec
    simp [hd, Write.apply, Database.hideTenant, newRecord, ht]
  case webhook hs _ _ =>
    cases hid
    obtain ⟨_, hs⟩ := webhook_persists hr₁ hs
    simp [State.RequestOf, hs] at hh

-- and they do not see it.
theorem hide_visible (hu : db.NoUsage) (h : engine.Reach (.boot db) s₁)
    (hst : engine.step s₁ l = some s₂) (hr : engine.Reach s₂ s) (hk : s.KeysApart tenantId)
    (hl : ¬l.Of (s.RequestOf tenantId)) :
    engine.step (s₁.hide (s.RequestOf tenantId) (·.hideTenant tenantId)) l =
      some (s₂.hide (s.RequestOf tenantId) (·.hideTenant tenantId)) := by
  have hr₁ : engine.Reach s₁ s := .trans (.single trivial hst) hr
  refine Program.step_iff.mp hst |>.hide_visible hl ?act ?env
  case env =>
    rintro op rfl
    cases Step.of_step hst
    exact Database.hideTenant_operation ‹_›
  case act =>
    rintro id a session session' e rfl hs hn
    have hid : ¬s.RequestOf tenantId id := fun hid => hl ⟨id, rfl, hid⟩
    cases Session.Next.of_next hn
    case webhook hn' =>
      refine ⟨hn, ?_⟩
      cases hn'.writes
      case none hw => rw [hw, hw]
      case commit  => exact Database.hideTenant_applyWebhook
    case usage hn' =>
      have hp  := locals h hs
      have ht  := mt (requestOf_iff_of_reach hr₁ hs).mpr hid
      have hke := hk.events hu h hr₁ hs ht
      refine ⟨hn'.hideTenant (sound hu.ledger h).ledger hp ht hke |>.session_next, ?_⟩
      cases hn'.writes
      case none hw => rw [hw, hw]
      case commit =>
        have ⟨_, ho, hrec⟩ := hp
        rw [← ho.tenant] at ht
        subst hrec
        simp [engine, Program.write, Write.apply, Database.hideTenant, newRecord, ht]

theorem run_hide (hu : db.NoUsage) (h : Transition.run engine.step (.boot db) as = some s)
    (hk : s.KeysApart tenantId) :
    Transition.run engine.step (.boot db) (as.filter (¬Label.Of (s.RequestOf tenantId) ·)) =
      some (s.hide (s.RequestOf tenantId) (·.hideTenant tenantId)) := by
  have hb : (Sessions.State.boot db : State).hide (s.RequestOf tenantId) (·.hideTenant tenantId) =
      .boot db := by
    simp [Sessions.State.hide, Sessions.State.boot, hu.hideTenant]
  have hv := Transition.run_view (·.hide (s.RequestOf tenantId) (·.hideTenant tenantId))
    (Label.Of (s.RequestOf tenantId)) hide_hidden (hide_visible hu · · · hk) h
  rwa [hb] at hv

-- Where the run `as` from `db` to `s` shows the requests of a tenant to other tenants.
structure Isolated (db : Database) (as : List Label) (s : State) : Prop where
  -- A new event is the request's own.
  created : ∀ {id request response}, s.Answered id request response → response.statusCode = 201 →
    ∃ e ∈ s.db.usageEvents, Usage.Inserts id request e ∧
      ∃ planName, response.body = .usage (responseBody e planName)
  -- A replayed event is the one of the key, and belongs to the tenant whose request inserted it.
  replayed : ∀ {id request response}, s.Answered id request response → response.Success →
    ∃ e ∈ s.db.usageEvents, e.idempotencyKey = request.idempotencyKey ∧
      (∃ planName, response.body = .usage (responseBody e planName)) ∧
      ∃ request', s.Origin e request'
  -- So it is the tenant's own if no other tenant uses the key.
  own : ∀ {tenantId}, s.KeysApart tenantId → ∀ {id request response},
    request.payload.tenantId = tenantId → s.Answered id request response → response.Success →
    ∃ e ∈ s.db.usageEvents, e.tenantId = tenantId ∧
      ∃ planName, response.body = .usage (responseBody e planName)
  -- The requests of a tenant which shares no key with others can be left out.
  removed : ∀ {tenantId}, s.KeysApart tenantId → ∃ s', Transition.run engine.step (.boot db)
      (as.filter (¬Label.Of (s.RequestOf tenantId) ·)) = some s' ∧
    ∀ {tenantId'}, tenantId' ≠ tenantId →
      (∀ {id request}, request.payload.tenantId = tenantId' → ∀ p,
        s'.session id = some (.usage request p) ↔ s.session id = some (.usage request p)) ∧
      s'.db.usageEvents.filter (·.tenantId = tenantId') =
        s.db.usageEvents.filter (·.tenantId = tenantId')

theorem isolated (hu : db.NoUsage) (h : Transition.run engine.step (.boot db) as = some s) :
    Isolated db as s := by
  have hr : engine.Reach (.boot db) s := Transition.Reach.of_run h |>.weaken
  have hs := sound hu.ledger hr
  have replayed {id request response} (ha : s.Answered id request response)
      (hc : response.Success) : ∃ e ∈ s.db.usageEvents, e.idempotencyKey = request.idempotencyKey ∧
      (∃ planName, response.body = .usage (responseBody e planName)) ∧
      ∃ request', s.Origin e request' := by
    obtain ⟨body, hb, he⟩ := hs.requests ha |>.success hc
    obtain ⟨e, hm, hk, planName, hp⟩ := hs.ledger.event_of_response hb
    exact ⟨e, hm, hk, ⟨planName, hp ▸ he⟩, origin hu hr hm⟩
  constructor
  case replayed => exact replayed
  case created =>
    intro id request response ha hc
    obtain ⟨body, hb, hbody, hi, _⟩ := hs.requests ha |>.own_event hc
    obtain ⟨e, hm, _, planName, hp⟩ := hs.ledger.event_of_response hb
    obtain ⟨request', ho, _, _, ha', _⟩ := origin hu hr hm
    have hid : e.id = id := by rw [← hi, hp, responseBody]
    rw [hid] at ho ha'
    cases (Option.some.inj <| ha.symm.trans ha')
    exact ⟨e, hm, ho, planName, hp ▸ hbody⟩
  case own =>
    intro tenantId hk id request response ht ha hc
    obtain ⟨e, hm, hke, hb, request', ho, _, _, ha', _⟩ := replayed ha hc
    exact ⟨e, hm, ho.tenant.trans <| hk ha ha' (hke.symm.trans ho.key) ht, hb⟩
  case removed =>
    intro tenantId hk
    refine ⟨_, run_hide hu h hk, fun {tenantId'} hne => ⟨?_, ?_⟩⟩
    case refine_1 =>
      intro id request ht p
      simp only [Sessions.State.hide]
      split
      case isFalse => rfl
      case isTrue hid =>
        refine ⟨by simp, fun hs => absurd (State.requestOf_iff hs |>.mp hid) <| ht ▸ hne⟩
    case refine_2 =>
      simp only [Sessions.State.hide, Database.hideTenant, List.filter_filter]
      refine List.filter_congr fun e _ => ?_
      by_cases he : e.tenantId = tenantId' <;> simp [he, hne]

theorem isolated_apart : ∃ (as : List Label) (s : State), Isolated (.migrated Plan.seeds) as s ∧
    s.KeysApart 1 ∧
    s.Answered 10 (.apiCall 1 "a" (by decide))
      (Router.usageResult 201 ⟨10, 1, "api_call", 1, 0, "free", "a"⟩) ∧
    s.Answered 11 (.apiCall 2 "b" (by decide))
      (Router.usageResult 201 ⟨11, 2, "api_call", 1, 0, "free", "b"⟩) := by
  let as := [.env <| .createTenant 1 { name := "acme" } 0,
      .env <| .createTenant 2 { name := "umbrella" } 0] ++
    checkLabels 10 (.apiCall 1 "a" (by decide)) (.stable _) 1 ++
    checkLabels 11 (.apiCall 2 "b" (by decide)) (.stable _) 1 ++
    commitLabels 10 2 ++ commitLabels 11 2
  have hs : Transition.run engine.step (.boot <| .migrated Plan.seeds) as |>.isSome := rfl
  have hrun := (Option.some_get hs).symm
  let s : State := (Transition.run engine.step (.boot <| .migrated Plan.seeds) as).get hs
  have ha : s.Answered 10 (.apiCall 1 "a" (by decide))
    (Router.usageResult 201 ⟨10, 1, "api_call", 1, 0, "free", "a"⟩) := rfl
  have hb : s.Answered 11 (.apiCall 2 "b" (by decide))
    (Router.usageResult 201 ⟨11, 2, "api_call", 1, 0, "free", "b"⟩) := rfl
  refine ⟨as, s, isolated ⟨rfl, rfl⟩ hrun, ?_, ha, hb⟩
  have cases {id request p} (hp : s.session id = some (.usage request p)) : id = 10 ∨ id = 11 := by
    by_contra hid
    have hn : s.session id = none := session_eq_none hrun <| by
      simp_all [as, checkLabels, commitLabels, Label.session?, eq_comm]
    cases hn.symm.trans hp
  intro id id' request request' p p' hp hp' hk ht
  rcases cases hp with rfl | rfl <;> rcases cases hp' with rfl | rfl <;> cases hp <;> cases hp'
  all_goals first | exact ht | contradiction

-- The second tenant gets the body of the first one's event, and no event of its own.
theorem not_isolated : ∃ (s : State) (body : UsageBody),
    engine.Reach (.boot <| .migrated Plan.seeds) s ∧
    s.Answered 11 (.apiCall 2 "a" (by decide)) (Router.usageResult 200 body) ∧ body.tenantId = 1 ∧
    s.db.usageEvents.filter (·.tenantId = 2) = [] := by
  let as := [.env <| .createTenant 1 { name := "acme" } 0,
      .env <| .createTenant 2 { name := "umbrella" } 0] ++
    checkLabels 10 (.apiCall 1 "a" (by decide)) (.stable _) 1 ++ commitLabels 10 2 ++
    (checkLabels 11 (.apiCall 2 "a" (by decide)) (.stable _) 3).take 3
  have hs : Transition.run engine.step (.boot <| .migrated Plan.seeds) as |>.isSome := rfl
  exact ⟨_, _, .get_run hs, rfl, rfl, rfl⟩

end Execution
