import BillingEngine.Properties.ExactlyOnce

open Sessions QuotaEnforcer MeteringEngine

-- `e` is an event of a request for the same tenant, with the same key and payload.
def UsageRequest.Records (request : UsageRequest) (e : UsageEvent) : Prop :=
  ∃ settings id timestamp, e = newUsageEvent settings id request.payload.tenantId
    request.payload.eventType request.payload.toTokenUsage request.idempotencyKey timestamp

def Database.Recorded (db : Database) (request : UsageRequest) : Prop :=
  ∃ e ∈ db.usageEvents, request.Records e

theorem UsageRequest.Records.key {request : UsageRequest} {e : UsageEvent}
    (h : request.Records e) : e.idempotencyKey = request.idempotencyKey := by
  obtain ⟨_, _, _, rfl⟩ := h
  rfl

theorem UsageRequest.Records.tenant {request : UsageRequest} {e : UsageEvent}
    (h : request.Records e) : e.tenantId = request.payload.tenantId := by
  obtain ⟨_, _, _, rfl⟩ := h
  rfl

theorem Database.Recorded.hasKey {db : Database} {request : UsageRequest}
    (h : db.Recorded request) : db.HasKey request.idempotencyKey :=
  have ⟨e, he, hr⟩ := h
  ⟨e, he, hr.key⟩

namespace Usage

variable {db : Database} {id : Uuid} {request : UsageRequest} {p p' : Phase} {a : Action}
  {e : Effect Resource Write} {body : UsageBody}

-- The step finds an active subscription which has not ended and has room for the request, and the
-- event fits its columns.
def Passes (db : Database) (id : Uuid) (request : UsageRequest) : Phase → Action → Prop
  | .locking _ _ [], .lock => False
  | .checking tenant _ subscription, .check now =>
    now < subscription.currentPeriodEnd ∧
    ∃ plan, db.plan? subscription.planId = some plan ∧
      usedQuantity db.usageEvents tenant.id subscription.currentPeriodStart
        subscription.currentPeriodEnd request.payload.eventType + requested request ≤
          plan.limit request.payload.eventType
  | .inserting tenant _ _ _, .insertEvent timestamp =>
    (event id request tenant timestamp).Storable
  | _, _ => True

-- Past the fast path, only such a step keeps a request from being refused.
theorem Next.refusing (h : Next db id request p a p' e) {held raised}
    (hp : p' = .refusing held raised) :
    (a = .getStoredResponse ∧ db.record? request.idempotencyKey = none) ∨
      ¬Passes db id request p a := by
  cases h <;> try contradiction
  case inactive hr _ => exact .inl ⟨rfl, hr⟩
  case noCandidate   => exact .inr fun h => h
  case refuse hc     =>
    refine .inr fun ⟨hn, plan, hp, hu⟩ => ?_
    have ⟨_, hok⟩ := checkSubscription_ok_iff hp |>.mpr ⟨hn, hu⟩
    exact absurd (hc.symm.trans hok) nofun
  case overflow hs   => exact .inr hs

-- Where a duplicate can be once the event of its key has been committed.
def Phase.Awaits (body : UsageBody) : Phase → Prop
  | recording .. | committing .. | refusing .. | responding .. => False
  | answered response => response = Router.usageResult 200 body
  | _ => True

theorem Next.awaits (hl : db.Ledger) (ht : (db.tenant? request.payload.tenantId).isSome)
    (hb : db.responses request.idempotencyKey = some body) (h : Next db id request p a p' e)
    (hp : Passes db id request p a) (hw : p.Awaits body) : p'.Awaits body := by
  have ⟨r, hr, hbody⟩ := Option.map_eq_some_iff.mp hb
  have hreplay := hbody ▸ hl.replay hr |>.right
  have href {held raised} (he : p' = .refusing held raised) : False := by
    rcases h.refusing he with ⟨_, hn⟩ | hn
    · simp [hr] at hn
    · exact hn hp
  cases h <;> simp only [Phase.Awaits] at hw ⊢
  case unknownTenant h  => simp [h] at ht
  case replay h         => rwa [Option.some.inj <| h.symm.trans hr]
  case insertEvent hk   => exact hk <| hl.responses_isSome.mp <| by simp [hb]
  case reread           => simpa only [MeteringEngine.reread, hr] using hreplay
  all_goals exact href rfl

-- Where a request can be that has neither been refused nor crashed.
def Phase.Served : Phase → Prop
  | refusing .. | crashed => False
  | answered response     => response.Success
  | _                     => True

theorem Next.served (h : Next db id request p a p' e) (hs : p'.Served) : p.Served := by
  cases h <;> try trivial
  case answer raised =>
    rcases raised with (_ | _ | _) | _ <;> rcases hs with hs | hs <;> cases hs

theorem Next.passes (h : Next db id request p a p' e) (hs : p'.Served) :
    Passes db id request p a := by
  cases h <;> try trivial
  case reserve hc =>
    have ha := checkSubscription_ok hc
    exact ⟨ha.current, _, ha.plan, ha.used _ ▸ ha.headroom⟩

end Usage

namespace Execution

-- (1) A duplicate of a recorded request which is past the fast path finds, at its check, room for
-- one more event under an active subscription, and
-- (2) no request is recorded while a duplicate of it is about to be refused.
def Undeterred (s : State) : Label → Prop
  | .act id (.usage a) => ∀ {request p}, s.session id = some (.usage request p) →
    (s.db.Recorded request → Usage.Passes s.db id request p a) ∧
    (a = .commit → ∀ {skipped check event record}, p = .committing skipped check event record →
      ∀ {id' request' held raised},
        s.session id' = some (.usage request' <| .refusing held raised) →
          ¬request'.Records event)
  | _ => True

abbrev Undeterred.Reach : State → State → Prop :=
  Transition.Reach engine.step Undeterred

variable {db : Database} {s s' : State} {l : Label} {id : Uuid} {request : UsageRequest}
  {response : HttpResponse} {e : UsageEvent}

theorem Step.recorded (h : Step s l s') (hr : s'.db.Recorded request) :
    s.db.Recorded request ∨ ∃ id request' skipped check event record, l = .act id (.usage .commit) ∧
      s.session id = some (.usage request' <| .committing skipped check event record) ∧
      request.Records event := by
  have ⟨e, he, hr⟩ := hr
  cases h.mem_usageEvents he
  case inl he => exact .inl ⟨e, he, hr⟩
  case inr he =>
    obtain ⟨id, request', skipped, check, record, hl, hs⟩ := he
    exact .inr ⟨id, request', skipped, check, e, record, hl, hs, hr⟩

-- No duplicate of a recorded request is about to be refused.
theorem not_refusing (hu : db.Ledger) (h : Undeterred.Reach (.boot db) s) {p}
    (hs : s.session id = some (.usage request p)) :
    s.db.Recorded request → ∀ held raised, p ≠ .refusing held raised := by
  refine usage_reach h (I := fun db _ request p => db.Recorded request →
    ∀ held raised, p ≠ .refusing held raised) ?init ?received ?acts ?others hs
  case init     => simp [Sessions.State.boot]
  case received => intro _ _ _ _ _ _ h; cases h
  case acts =>
    intro s s' id request p a p' e hr hs hn hd hok hi hrec held raised hp
    cases hn.writes
    case commit => cases hp
    case none hw =>
      rw [hd, hw] at hrec
      rcases hn.refusing hp with ⟨_, hnone⟩ | hpass
      · have hsome := (sound hu hr.weaken).ledger.responses_isSome.mpr hrec.hasKey
        simp [Database.responses, hnone] at hsome
      · exact hpass <| (hok hs).left hrec
  case others =>
    intro s s' l id request p _ hst hok _ hs hi hrec held raised hp
    rcases hst.recorded hrec with
      hrec | ⟨id', request', skipped, check, event, record, rfl, hs', hr⟩
    · exact hi hrec held raised hp
    · subst hp
      exact (hok hs').right rfl rfl hs hr

theorem awaits (hu : db.Ledger) (hf : db.Referential) (h : Undeterred.Reach (.boot db) s)
    (he : e ∈ s.db.usageEvents) (hr : request.Records e) {body}
    (hb : s.db.responses request.idempotencyKey = some body) (hid : id ≠ e.id)
    (hn : ∀ response, ¬s.Answered id request response) (h' : Undeterred.Reach s s') {p}
    (hs : s'.session id = some (.usage request p)) : p.Awaits body := by
  refine usage_reach h' (I := fun _ id' request' p => id' = id → request' = request → p.Awaits body)
    ?init ?received ?acts (fun _ _ _ _ _ hi => hi) hs rfl rfl
  case received => intros; trivial
  case init =>
    intro id' request' p hs hi hreq
    subst hi hreq
    have hk : s.db.HasKey request'.idempotencyKey := ⟨e, he, hr.key⟩
    cases p
    case refusing => exact not_refusing hu h hs ⟨e, he, hr⟩ _ _ rfl
    case answered => exact absurd hs (hn _)
    case recording =>
      have ho := locals h.weaken hs |>.right
      exact sound hu h.weaken |>.flushed_fresh hs rfl (ho.key ▸ hk)
    case committing =>
      have ho := locals h.weaken hs |>.right.left
      exact sound hu h.weaken |>.flushed_fresh hs rfl (ho.key ▸ hk)
    case responding =>
      -- Only the request that has inserted the event is going to be answered `201`.
      have hsound := sound hu h.weaken
      have ⟨hc, ha⟩ := hsound.requests hs
      have ⟨_, hb', _, hi, _⟩ := ha.own_event hc
      have ⟨e', he', hk', _, hp⟩ := hsound.ledger.event_of_response hb'
      have hee := hsound.ledger.event_unique he he' (hr.key.trans hk'.symm)
      exact absurd (by rw [← hi, hp, hee, responseBody]) hid
    all_goals trivial
  case acts =>
    intro s₁ s₂ id' request' p a p' e' hr₁ hs₁ hnext _ hok hi hi' hreq
    subst hi' hreq
    have h₁ := h.weaken.trans hr₁.weaken
    have he₁ : e ∈ s₁.db.usageEvents := hr₁.invariant (I := (e ∈ ·.db.usageEvents)) he
      fun he _ hs => Step.of_step hs |>.mem_events he
    have hb₁ := responses_extends hu h.weaken hr₁ _ _ hb
    have ht₁ := hr.tenant ▸ event_tenant hf h₁ e he₁
    exact hnext.awaits (sound hu h₁).ledger ht₁ hb₁ (hok hs₁ |>.left ⟨e, he₁, hr⟩) (hi rfl rfl)

-- A duplicate which finishes after the event of its key has been committed replays the response.
theorem duplicates_replayed (hu : db.NoUsage) (h : Undeterred.Reach (.boot db) s)
    (he : e ∈ s.db.usageEvents) (hr : request.Records e) (hid : id ≠ e.id)
    (hn : ∀ response, ¬s.Answered id request response) (h' : Undeterred.Reach s s')
    (ha : s'.Answered id request response) :
    ∃ planName, response = Router.usageResult 200 (responseBody e planName) ∧
      ∀ {id' request' response'}, s'.Answered id' request' response' → response'.Success →
        request'.idempotencyKey = request.idempotencyKey → response'.body = response.body := by
  have hs := sound hu.ledger h.weaken
  have ⟨body, hb⟩ := Option.isSome_iff_exists.mp <| hs.ledger.responses_isSome.mpr ⟨e, he, hr.key⟩
  have ⟨e', he', hk', planName, hp⟩ := hs.ledger.event_of_response hb
  have hee := hs.ledger.event_unique he he' (hr.key.trans hk'.symm)
  have hresp : response = Router.usageResult 200 body :=
    awaits hu.ledger (by simp [Database.Referential, hu.left]) h he hr hb hid hn h' ha
  refine ⟨planName, by rw [hresp, hp, hee], fun ha' hsucc hk => ?_⟩
  have hs' := sound hu.ledger (h.weaken.trans h'.weaken)
  have ⟨body', hb', hbody'⟩ := hs'.requests ha' |>.success hsucc
  have hb₁ := responses_extends hu.ledger h.weaken h' _ _ hb
  rw [hk] at hb'
  rw [hbody', hresp, Option.some.inj <| hb'.symm.trans hb₁]
  rfl

-- In a run in which everybody is served nobody is deterred.

def State.Served (s : State) : Prop :=
  ∀ {id request p}, s.session id = some (.usage request p) → p.Served

theorem Step.undeterred (h : Step s l s') (hs : s'.Served) : s.Served ∧ Undeterred s l := by
  have hb : s.Served := by
    intro id request p hp
    by_cases ht : l.session? = some id
    case neg => exact hs <| (h.session_eq ht).trans hp
    case pos =>
      cases h <;> cases ht
      case receive idle     => cases hp.symm.trans idle
      case deliver idle     => cases hp.symm.trans idle
      case webhook _ hs' _  => cases hp.symm.trans hs'
      case usage hs' hn _   =>
        cases hp.symm.trans hs'
        exact hn.served <| hs <| Function.update_self ..
  refine ⟨hb, ?_⟩
  unfold Undeterred
  split
  case h_2 => trivial
  case h_1 id a =>
    intro request p hp
    refine ⟨fun _ => ?_, fun _ _ _ _ _ _ _ _ _ _ hr => absurd (hb hr) not_false⟩
    cases h
    case usage hs' _ hn =>
      cases hp.symm.trans hs'
      exact hn.passes <| hs <| Function.update_self ..

theorem undeterred_of_served (h : engine.Reach s s') (hs : s'.Served) :
    s.Served ∧ Undeterred.Reach s s' := by
  induction h
  case refl => exact ⟨hs, .refl⟩
  case tail hst hi =>
    have ⟨hb, hu⟩ := (Step.of_step hst).undeterred hs
    exact (hi hb).imp_right (·.tail hu hst)

-- The winner commits while the duplicate waits for the lock, and the quota has room left.
theorem duplicates_replayed_retry : ∃ (s s' : State) (e : UsageEvent) (tenant : Tenant),
    e ∈ s.db.usageEvents ∧
    s.session 11 = some (.usage (.apiCall 1 "a" (by decide)) <| .locking tenant [] [1]) ∧
    ∃ planName, s'.Answered 11 (.apiCall 1 "a" (by decide)) (Router.usageResult 200 <|
      responseBody e planName) := by
  let request := UsageRequest.apiCall 1 "a" (by decide)
  let as := .env (.createTenant 1 { name := "acme" } 0) ::
    (checkLabels 10 request (.stable _) 1 ++ (checkLabels 11 request (.stable _) 1).take 4 ++
      commitLabels 10 2)
  let bs : List Label :=
    [.lock, .check 3, .insertEvent 4, .rollback, .reread].map (.act 11 <| .usage ·)
  have hs : Transition.run engine.step (.boot <| .migrated Plan.seeds) as |>.isSome := rfl
  let s : State := (Transition.run engine.step (.boot <| .migrated Plan.seeds) as).get hs
  have hs' : Transition.run engine.step s bs |>.isSome := rfl
  let s' : State := (Transition.run engine.step s bs).get hs'
  have ha₀ : s'.Answered 10 request
    (Router.usageResult 201 ⟨10, 1, "api_call", 1, 0, "free", "a"⟩) := rfl
  have ha : s'.Answered 11 request
    (Router.usageResult 200 ⟨10, 1, "api_call", 1, 0, "free", "a"⟩) := rfl
  have hserved : s'.Served := by
    intro id request p hp
    by_cases hid : id = 10 ∨ id = 11
    case pos =>
      rcases hid with rfl | rfl
      · cases ha₀.symm.trans hp; exact .inr rfl
      · cases ha.symm.trans hp; exact .inl rfl
    case neg =>
      have hn : s.session id = none := session_eq_none (Option.some_get hs).symm <| by
        simp_all [as, checkLabels, commitLabels, Label.session?, eq_comm]
      have hn' : s'.session id = s.session id := run_session_eq (Option.some_get hs').symm <| by
        simp_all [bs, Label.session?, eq_comm]
      cases (hn'.trans hn).symm.trans hp
  obtain ⟨hserved', hr'⟩ := undeterred_of_served (.get_run hs') hserved
  obtain ⟨_, hr⟩ := undeterred_of_served (.get_run hs) hserved'
  have he : newUsageEvent {} 10 1 .apiCall {} "a" 2 ∈ s.db.usageEvents := .head _
  obtain ⟨planName, hp, _⟩ := duplicates_replayed ⟨rfl, rfl⟩ hr he ⟨{}, 10, 2, rfl⟩ (by decide)
    (fun _ h => by cases h) hr' ha
  exact ⟨s, s', _, _, he, rfl, planName, hp ▸ ha⟩

-- The winner takes the last call of the period while the duplicate waits for the lock.
theorem duplicate_refused : ∃ (s s' : State) (e : UsageEvent) (request : UsageRequest)
    (response : HttpResponse), engine.Reach (.boot <| .migrated [⟨1, "free", 1, 100⟩]) s ∧
      e ∈ s.db.usageEvents ∧ request.Records e ∧ (∀ response, ¬s.Answered 11 request response) ∧
      engine.Reach s s' ∧ s'.Answered 11 request response ∧ response.statusCode = 429 := by
  let request := UsageRequest.apiCall 1 "a" (by decide)
  let as := .env (.createTenant 1 { name := "acme" } 0) ::
    (checkLabels 10 request (.stable _) 1 ++ (checkLabels 11 request (.stable _) 1).take 4 ++
      commitLabels 10 2)
  have hs : Transition.run engine.step (.boot <| .migrated [⟨1, "free", 1, 100⟩]) as |>.isSome :=
    rfl
  let s := (Transition.run engine.step (.boot <| .migrated [⟨1, "free", 1, 100⟩]) as).get hs
  have hs' : Transition.run engine.step s ([.lock, .check 3, .rollback].map (.act 11 <| .usage ·))
    |>.isSome := rfl
  let s' : State := (Transition.run engine.step s _).get hs'
  have hretry : retryAfterSeconds 2592000000000 3 = 2591999 := by decide +kernel
  have hraised : quotaExceededError 1 1 1 2591999 = .quotaExceeded 1 1 1 2591999 := rfl
  have ha : s'.Answered 11 request (Router.quotaResponse <| .quotaExceeded 1 1 1 2591999) := by
    rw [← hraised, ← hretry]
    rfl
  refine ⟨s, s', newUsageEvent {} 10 1 .apiCall {} "a" 2, request, _, .get_run hs, ?_,
    ⟨{}, 10, 2, rfl⟩, ?_, .get_run hs', ha, rfl⟩
  case refine_1 => exact .head _
  case refine_2 => intro r h; cases Option.some.inj h

end Execution
