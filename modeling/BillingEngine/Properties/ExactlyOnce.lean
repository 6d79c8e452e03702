import BillingEngine.Execution.Serial

open Sessions MeteringEngine

def HttpResponse.Success (response : HttpResponse) : Prop :=
  response.statusCode = 200 ∨ response.statusCode = 201

-- A database in which no usage has been recorded yet.
def Database.NoUsage (db : Database) : Prop :=
  db.usageEvents = [] ∧ db.idempotencyRecords = []

theorem Database.NoUsage.ledger {db : Database} (h : db.NoUsage) : db.Ledger :=
  .empty h.left h.right

namespace Usage

variable {db : Database} {id : Uuid} {request : UsageRequest} {response : HttpResponse}
  {body : UsageBody}

theorem Answers.success (h : Answers db id request response) (hs : response.Success) :
    ∃ body, db.responses request.idempotencyKey = some body ∧ response.body = .usage body := by
  cases h
  case created body hb _ _ => exact ⟨body, hb, rfl⟩
  case replayed body hb    => exact ⟨body, hb, rfl⟩
  case unknownTenant       => rcases hs with h | h <;> cases h
  case refused raised      => rcases raised with ⟨_ | _⟩ | _ <;> rcases hs with h | h <;> cases h

theorem Answers.own_event (h : Answers db id request response) (hs : response.statusCode = 201) :
    ∃ body, db.responses request.idempotencyKey = some body ∧ response.body = .usage body ∧
      body.id = id ∧ body.tenantId = request.payload.tenantId := by
  cases h
  case created body hb hi ht => exact ⟨body, hb, rfl, hi, ht⟩
  case refused raised        => rcases raised with ⟨_ | _⟩ | _ <;> cases hs
  all_goals cases hs

-- Where a request can be which has started after the event of its key was committed.
def Phase.Replays (body : UsageBody) : Phase → Prop
  | received | reading _ | crashed => True
  | answered response => response = Router.usageResult 200 body
  | _ => False

theorem Next.replays {p a p' e} (hl : db.Ledger)
    (ht : (db.tenant? request.payload.tenantId).isSome)
    (hb : db.responses request.idempotencyKey = some body)
    (h : Next db id request p a p' e) (hr : p.Replays body) : p'.Replays body := by
  cases h <;> simp only [Phase.Replays] at hr ⊢
  case unknownTenant h => simp [h] at ht
  case replay h        =>
    have ⟨hb', he⟩ := hl.replay h
    rw [he, Option.some.inj <| hb'.symm.trans hb]
  case inactive h _ | miss h _ => simp [Database.responses, h] at hb

end Usage

namespace Execution

variable {db : Database} {s s' : State} {id id' : Uuid} {request request' : UsageRequest}
  {response response' : HttpResponse} {body : UsageBody}

theorem can_replay_reading {tenant} (hs : s.session id = some (.usage request <| .reading tenant))
    (hl : s.db.Ledger) (hb : s.db.responses request.idempotencyKey = some body) :
    s.Can id (·.Answered id request <| Router.usageResult 200 body) := by
  have ⟨r, hr, hb'⟩ := Option.map_eq_some_iff.mp hb
  have hn : Usage.next s.db id request (.reading tenant) .getStoredResponse =
      some (.answered <| Router.resultResponse <| replay r, .rollback) := by
    simp only [Usage.next, hr]
  refine .step rfl (step_usage hs hn trivial) (.done ?_)
  rw [hl.replay hr |>.right, hb']
  simp [State.Answered, Program.perform]

-- A late request never has to wait.
theorem can_replay {p} (hs : s.session id = some (.usage request p)) (hl : s.db.Ledger)
    (ht : (s.db.tenant? request.payload.tenantId).isSome)
    (hb : s.db.responses request.idempotencyKey = some body) (hr : p.Replays body)
    (hc : p ≠ .crashed) : s.Can id (·.Answered id request <| Router.usageResult 200 body) := by
  cases p <;> simp only [Usage.Phase.Replays] at hr
  case received =>
    have ⟨tenant, ht⟩ := Option.isSome_iff_exists.mp ht
    have hn : Usage.next s.db id request .received .getTenant = some (.reading tenant, .stay) := by
      simp only [Usage.next, ht]
    have hs' : (engine.perform s id (.usage request <| .reading tenant) .stay).session id =
        some (.usage request <| .reading tenant) := Function.update_self ..
    exact .step rfl (step_usage hs hn trivial) (can_replay_reading hs' hl hb)
  case reading  => exact can_replay_reading hs hl hb
  case answered => exact .done <| hr ▸ hs
  case crashed  => contradiction

structure State.ExactlyOnce (s : State) : Prop where
  event : ∀ key, (s.db.usageEvents.filter (·.idempotencyKey = key)).length ≤ 1
  created : ∀ {id id' request request' response response'},
    s.Answered id request response → s.Answered id' request' response' →
    request.idempotencyKey = request'.idempotencyKey →
    response.statusCode = 201 → response'.statusCode = 201 → id = id'
  sameBody : ∀ {id id' request request' response response'},
    s.Answered id request response → s.Answered id' request' response' →
    request.idempotencyKey = request'.idempotencyKey →
    response.Success → response'.Success → response.body = response'.body
  ownEvent : ∀ {id request response}, s.Answered id request response → response.Success →
    ∃ body, response.body = .usage body ∧
      ∃ e ∈ s.db.usageEvents, e.idempotencyKey = request.idempotencyKey ∧ e.id = body.id
  -- Requests that start after the event `e` of their key has been committed.
  late : ∀ {e id request}, e ∈ s.db.usageEvents → e.idempotencyKey = request.idempotencyKey →
    (s.db.tenant? request.payload.tenantId).isSome → s.session id = none →
    ∃ body, body.id = e.id ∧ ∀ {s' : State}, engine.Reach s s' →
      (∀ {response}, s'.Answered id request response → response = Router.usageResult 200 body) ∧
      ∀ {p}, s'.session id = some (.usage request p) → p ≠ .crashed →
        s'.Can id (·.Answered id request <| Router.usageResult 200 body)

namespace State.Sound

theorem event_length (h : s.Sound) (key : String) :
    (s.db.usageEvents.filter (·.idempotencyKey = key)).length ≤ 1 := by
  have hn : (s.db.usageEvents.filter (·.idempotencyKey = key)).map (·.idempotencyKey) |>.Nodup :=
    h.ledger.keys.sublist <| List.filter_sublist.map _
  match hf : s.db.usageEvents.filter (·.idempotencyKey = key) with
  | [] | [_]     => simp [hf]
  | e :: e' :: _ =>
    have hk {x} (hx : x ∈ s.db.usageEvents.filter (·.idempotencyKey = key)) :
        x.idempotencyKey = key := by simpa using (List.mem_filter.mp hx).right
    have he  := hk (x := e) (by simp [hf])
    have he' := hk (x := e') (by simp [hf])
    simp [hf, he, he'] at hn

theorem replays (hu : db.Ledger) (h : engine.Reach (.boot db) s) (hi : s.session id = none)
    (ht : (s.db.tenant? request.payload.tenantId).isSome)
    (hb : s.db.responses request.idempotencyKey = some body) (hr : engine.Reach s s') {p}
    (hs : s'.session id = some (.usage request p)) :
    (s'.db.tenant? request.payload.tenantId).isSome ∧
    s'.db.responses request.idempotencyKey = some body ∧ p.Replays body := by
  have mono {s'} (hr : engine.Reach s s') : (s'.db.tenant? request.payload.tenantId).isSome ∧
      s'.db.responses request.idempotencyKey = some body :=
    ⟨Database.tenant?_isSome.mpr <| hr.invariant (Database.tenant?_isSome.mp ht)
      fun hi _ hs => (Step.of_step hs).tenants.subset hi, responses_extends hu h hr _ _ hb⟩
  refine ⟨mono hr |>.left, mono hr |>.right, ?_⟩
  refine usage_reach hr
    (I := fun _ id' request' p => id' = id → request' = request → p.Replays body)
    ?init ?received ?acts (fun _ _ _ _ _ hi => hi) hs rfl rfl
  case init     => intro _ _ _ hs' hid; simp [hid, hi] at hs'
  case received => intros; trivial
  case acts     =>
    rintro s₁ _ _ _ _ _ _ _ hr₁ _ hn _ _ hi rfl rfl
    have ⟨ht, hb⟩ := mono hr₁
    exact hn.replays (sound hu (h.trans hr₁) |>.ledger) ht hb (hi rfl rfl)

end State.Sound

theorem exactly_once (hu : db.NoUsage) (h : engine.Reach (.boot db) s) : s.ExactlyOnce := by
  have hs := sound hu.ledger h
  constructor
  case event   => exact hs.event_length
  case created =>
    intro id id' request request' response response' ha ha' hk hc hc'
    have ⟨body, hb, _, hi, _⟩   := hs.requests ha |>.own_event hc
    have ⟨body', hb', _, hi', _⟩ := hs.requests ha' |>.own_event hc'
    rw [hk] at hb
    rw [← hi, ← hi', Option.some.inj <| hb.symm.trans hb']
  case sameBody =>
    intro id id' request request' response response' ha ha' hk hc hc'
    have ⟨body, hb, he⟩   := hs.requests ha |>.success hc
    have ⟨body', hb', he'⟩ := hs.requests ha' |>.success hc'
    rw [hk] at hb
    rw [he, he', Option.some.inj <| hb.symm.trans hb']
  case ownEvent =>
    intro id request response ha hc
    have ⟨body, hb, he⟩ := hs.requests ha |>.success hc
    have ⟨e, hm, hk, _, hp⟩ := hs.ledger.event_of_response hb
    exact ⟨body, he, e, hm, hk, by rw [hp, responseBody]⟩
  case late =>
    intro e id request he hk ht hi
    have ⟨body, hb⟩ := Option.isSome_iff_exists.mp <| hs.ledger.responses_isSome.mpr ⟨e, he, hk⟩
    have ⟨e', he', hk', _, hp⟩ := hs.ledger.event_of_response hb
    refine ⟨body, ?_, fun hr => ⟨fun ha => ?_, fun ha hc => ?_⟩⟩
    · rw [hp, responseBody, hs.ledger.event_unique he he' (hk.trans hk'.symm)]
    · exact State.Sound.replays hu.ledger h hi ht hb hr ha |>.right.right
    · have ⟨ht, hb, hp⟩ := State.Sound.replays hu.ledger h hi ht hb hr ha
      exact can_replay ha (sound hu.ledger (h.trans hr) |>.ledger) ht hb hp hc

theorem exactly_once_retried :
    ∃ s : State, s.Answered 11 (.apiCall 1 "a" (by decide))
        (Router.usageResult 200 ⟨10, 1, "api_call", 1, 0, "free", "a"⟩) ∧ s.ExactlyOnce := by
  let as := .env (.createTenant 1 { name := "acme" } 0) ::
    checkLabels 10 (.apiCall 1 "a" (by decide)) (.stable _) 1 ++ commitLabels 10 2 ++
    (checkLabels 11 (.apiCall 1 "a" (by decide)) (.stable _) 3).take 3
  have hs : Transition.run engine.step (.boot <| .migrated Plan.seeds) as |>.isSome := rfl
  refine ⟨_, ?_, exactly_once ⟨rfl, rfl⟩ (.get_run hs)⟩
  rfl

end Execution
