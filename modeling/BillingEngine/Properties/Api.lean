import Mathlib.Data.Finset.Range
import BillingEngine.Library.Calls
import BillingEngine.Routers.Api
import BillingEngine.Execution.Serial

open Sessions StripeWebhookHandler

-- Only a `201` of these is an answer to a committed request.
theorem Router.recordUsage_uncommitted {db : Database} {o id request now timestamp}
    (h : (recordUsage db o id request now timestamp).1.statusCode ≠ 201) :
    (recordUsage db o id request now timestamp).2 = db := by
  revert h
  unfold recordUsage
  split
  case h_1 => exact fun _ => rfl
  case h_2 =>
    simp only [MeteringEngine.recordUsage]
    split <;> try exact fun _ => rfl
    split <;> try exact fun _ => rfl
    split <;> try exact fun _ => rfl
    split <;> try exact fun _ => rfl
    exact fun h => absurd rfl h

-- A delivery which is not applied leaves the database alone.
theorem StripeWebhookHandler.handleEvent_uncommitted {db : Database} {event : WebhookEvent}
    {now : Instant} (h : ∀ result, (handleEvent db event now).1 = .ok result →
      ∃ id, result = .duplicateIgnored id) : (handleEvent db event now).2 = db := by
  have hd := delivers db event now
  generalize handleEvent db event now = response at h hd
  obtain ⟨answer, db'⟩ := response
  cases hd
  case apply hh _ =>
    obtain ⟨id, hr⟩ := h _ rfl
    exact absurd hr <| Handles.of_handle hh |>.applied id
  all_goals rfl

theorem Router.createTenant_found {db db' : Database} {id : Uuid} {payload : TenantCreate}
    {now : Instant} (h : createTenant db id payload now = .ok db') : (db'.tenant? id).isSome := by
  obtain ⟨_, _, rfl⟩ := createTenant_ok h
  simp [Database.tenant?_isSome]

namespace Api

-- The answer to a call which has changed the database.
def Answer.Committed : Answer → Prop
  | tenantCreated _      => True
  | usage response       => response.statusCode = 201
  | webhook (.ok result) => ∀ id, result ≠ .duplicateIgnored id
  | _                    => False

variable {constructEvent : Router.ConstructEvent} {secret : String} {db : Database} {call : Call}

theorem Answer.not_committed {answer : Answer} (h : 400 ≤ answer.statusCode) :
    ¬answer.Committed := by
  rcases answer with _ | _ | response | _ | _ | _
  case tenantCreated => simp [statusCode] at h
  case webhook response =>
    cases response <;> simp [Committed, statusCode, Router.WebhookResponse.statusCode] at h ⊢
  case usage =>
    intro hc
    simp only [Committed] at hc
    simp [statusCode, hc] at h
  all_goals exact not_false

theorem serve_uncommitted (h : ¬(serve constructEvent secret db call).1.Committed) :
    (serve constructEvent secret db call).2 = db := by
  cases call
  case createTenant id payload now =>
    simp only [serve] at h ⊢
    split at h
    case isTrue hf => rw [if_pos hf]
    case isFalse hf =>
      rw [if_neg hf]
      cases hc : Router.createTenant db id payload now
      case error  => rfl
      case ok db' =>
        obtain ⟨tenant, ht⟩ := Option.isSome_iff_exists.mp <| Router.createTenant_found hc
        simp only [hc, ht] at h
        exact absurd trivial h
  case getTenant      => simp only [serve]; split <;> rfl
  case getQuotaStatus => simp only [serve]; split <;> rfl
  case recordUsage    => exact Router.recordUsage_uncommitted h
  case stripeWebhook rawBody stripeSignature now =>
    simp only [serve, Router.stripeWebhook] at h ⊢
    cases he : constructEvent rawBody stripeSignature secret
    case error => rfl
    case ok event =>
      simp only [he] at h ⊢
      have hu : (handleEvent db event now).2 = db := by
        refine handleEvent_uncommitted fun result hr => ?_
        rcases hs : handleEvent db event now with ⟨_ | result', db'⟩
        all_goals rw [hs] at h hr; cases hr
        simpa [Answer.Committed] using h
      rcases hs : handleEvent db event now with ⟨_ | _, db'⟩
      all_goals
        rw [hs] at hu
        exact hu

-- A call that has neither committed nor failed in the `INSERT` of a checkout, where an id has been
-- drawn from the sequence of `subscriptions`.
structure Uncommitted (constructEvent : Router.ConstructEvent) (secret : String)
    (entry : Call × Answer) : Prop where
  answer : ¬entry.2.Committed
  drawn  : ∀ {rawBody stripeSignature now event},
    entry = (.stripeWebhook rawBody stripeSignature now, .webhook .internalError) →
    constructEvent rawBody stripeSignature secret = .ok event →
    dispatch event.type ≠ some .checkoutCompleted

end Api

namespace Execution

variable {constructEvent : Router.ConstructEvent} {secret : String} {db db' : Database}
  {s s' : State} {id n : Uuid}

-- The steps of a session that runs alone, where no other one holds anything.
theorem Runs.run {i : Inputs} {session session' : Session}
    (h : Runs s.session id i s.db session db' session') (hi : s.session id = none)
    (hs : session.fresh) (hh : ∀ x, s.holder x = none) :
    ∃ actions : List Session.Action, (∀ a ∈ actions, i.Performs a) ∧
      Transition.run engine.step s (.start id session :: actions.map (.act id)) =
        some ⟨db', fun _ => none, Function.update s.session id (some session')⟩ := by
  have hst : engine.Steps s (.start id session) _ := .start hi hs
  have ⟨actions, ha, hr⟩ := h s.holder fun x => .inl (hh x)
  exact ⟨actions, ha, Transition.run_cons_some.mpr ⟨_, Program.step_iff.mpr hst, hr⟩⟩

-- The id of the request that a call starts.
def usageId : Api.Call → Option Uuid
  | .recordUsage _ id _ _ _ => id
  | _                       => none

-- The clock does not go back between the check and the insertion of the event.
def Timely : Api.Call → Prop
  | .recordUsage _ _ _ now timestamp => now ≤ timestamp
  | _                                => True

-- The part of a run that a call is: an operation, or the steps of one session, with what the call
-- reads and without failures from outside. Calls that only read are no part of it.
inductive State.Performs (constructEvent : Router.ConstructEvent) (secret : String) (s : State)
    (id : Uuid) : Api.Call → List Label → Prop
  | createTenant {tenantId payload now}
    (h : (Operation.createTenant tenantId payload now).apply s.db ≠ none) :
    Performs constructEvent secret s id (.createTenant tenantId payload now)
      [.env <| .createTenant tenantId payload now]
  | refuseTenant {tenantId payload now}
    (h : (Operation.createTenant tenantId payload now).apply s.db = none) :
    Performs constructEvent secret s id (.createTenant tenantId payload now) []
  | getTenant {tenantId} : Performs constructEvent secret s id (.getTenant tenantId) []
  | getQuotaStatus {o tenantId} :
    Performs constructEvent secret s id (.getQuotaStatus o tenantId) []
  | recordUsage {o request now timestamp le} {actions : List Session.Action}
    (h : ∀ a ∈ actions, Inputs.Performs ⟨o, now, timestamp, le⟩ a) :
    Performs constructEvent secret s id (.recordUsage o id request now timestamp)
      (.start id (.usage request .received) :: actions.map (.act id))
  | stripeWebhook {rawBody stripeSignature now event} {actions : List Session.Action}
    (he : constructEvent rawBody stripeSignature secret = .ok event)
    (h : ∀ a ∈ actions, (Inputs.fixed (.stable _) now).Performs a) :
    Performs constructEvent secret s id (.stripeWebhook rawBody stripeSignature now)
      (.start id (.webhook event .received) :: actions.map (.act id))
  | unverified {rawBody stripeSignature now exc}
    (he : constructEvent rawBody stripeSignature secret = .error exc) :
    Performs constructEvent secret s id (.stripeWebhook rawBody stripeSignature now) []

-- The session `id` has got the answer to the call.
def State.Reflects (constructEvent : Router.ConstructEvent) (secret : String) (s : State)
    (id : Uuid) (answer : Api.Answer) : Api.Call → Prop
  | .createTenant tenantId _ _ => ∀ tenant, answer = .tenantCreated tenant →
    s.db.tenant? tenantId = some tenant
  | .recordUsage _ _ request _ _ => ∃ response, answer = .usage response ∧
    s.Answered id request response
  | .stripeWebhook rawBody stripeSignature _ =>
    ∀ event, constructEvent rawBody stripeSignature secret = .ok event →
      (∃ result, answer = .webhook (.ok result) ∧
        s.session id = some (.webhook event <| .answered result)) ∨
      ∃ error, answer = .webhook .internalError ∧
        s.session id = some (.webhook event <| .raised error)
  | _ => True

-- A run of calls with the given answers, one after another.
inductive Performed (constructEvent : Router.ConstructEvent) (secret : String) :
    State → List (Api.Call × Api.Answer) → State → Prop
  | nil {s : State} : Performed constructEvent secret s [] s
  | cons {s s₁ s' : State} {id : Uuid} {call answer as log}
    (hp : s.Performs constructEvent secret id call as)
    (hr : Transition.run engine.step s as = some s₁)
    (hd : s₁.db = (Api.serve constructEvent secret s.db call).2)
    (ha : s₁.Reflects constructEvent secret id answer call)
    (h : Performed constructEvent secret s₁ log s') :
    Performed constructEvent secret s ((call, answer) :: log) s'

-- What a call does to the state, where `n` is an id which is not used yet.
structure State.Serves (constructEvent : Router.ConstructEvent) (secret : String) (s : State)
    (n : Uuid) (call : Api.Call) (s' : State) : Prop where
  performs : ∃ id as, s.Performs constructEvent secret id call as ∧
    Transition.run engine.step s as = some s' ∧
    s'.Reflects constructEvent secret id (Api.serve constructEvent secret s.db call).1 call
  db       : s'.db = (Api.serve constructEvent secret s.db call).2
  free     : ∀ x, s'.holder x = none
  idle     : ∀ id, s.session id = none → id ≠ n → usageId call ≠ some id → s'.session id = none

theorem State.Serves.reach {call : Api.Call} (h : s.Serves constructEvent secret n call s') :
    engine.Reach s s' := by
  obtain ⟨_, _, _, hr, _⟩ := h.performs
  exact (Transition.Reach.of_run hr).weaken

-- Nothing happens in a call which has no part in the run.
theorem State.Serves.skip {call : Api.Call} (hf : ∀ x, s.holder x = none)
    (hp : s.Performs constructEvent secret n call [])
    (hd : (Api.serve constructEvent secret s.db call).2 = s.db)
    (ha : s.Reflects constructEvent secret n (Api.serve constructEvent secret s.db call).1 call) :
    s.Serves constructEvent secret n call s :=
  ⟨⟨n, [], hp, rfl, ha⟩, hd.symm, hf, fun _ hs _ _ => hs⟩

theorem exists_serves_createTenant (hf : ∀ x, s.holder x = none) {payload : TenantCreate}
    {now : Instant} :
    ∃ s', s.Serves constructEvent secret n (.createTenant id payload now) s' := by
  by_cases hm : id ∈ s.db.tenants.map (·.id)
  case pos =>
    have ha : (Operation.createTenant id payload now).apply s.db = none := if_pos hm
    refine ⟨s, .skip hf (.refuseTenant ha) ?_ ?_⟩ <;>
      simp [Api.serve, hm, State.Reflects]
  case neg =>
    cases hc : Router.createTenant s.db id payload now
    case error =>
      have ha : (Operation.createTenant id payload now).apply s.db = none := by
        simp only [Operation.apply, if_neg hm, hc]
        rfl
      refine ⟨s, .skip hf (.refuseTenant ha) ?_ ?_⟩ <;>
        simp [Api.serve, hm, hc, State.Reflects]
    case ok db =>
      obtain ⟨tenant, ht⟩ := Option.isSome_iff_exists.mp <| Router.createTenant_found hc
      have ha : (Operation.createTenant id payload now).apply s.db = some db := by
        simp only [Operation.apply, if_neg hm, hc]
        rfl
      have hst : engine.step s (.env <| .createTenant id payload now) = some { s with db } :=
        Program.step_iff.mpr <| .env ha
      have hserve : Api.serve constructEvent secret s.db (.createTenant id payload now) =
          (.tenantCreated tenant, db) := by
        simp only [Api.serve, if_neg hm, hc, ht]
      refine ⟨{ s with db }, ⟨n, _, .createTenant (by simp [ha]),
        Transition.run_cons_some.mpr ⟨_, hst, rfl⟩, ?_⟩, ?_, hf, fun _ hs _ _ => hs⟩
      case refine_1 => rw [hserve]; rintro _ ⟨⟩; exact ht
      case refine_2 => rw [hserve]

theorem exists_serves_stripeWebhook (hf : ∀ x, s.holder x = none) (hn : s.session n = none)
    {rawBody : List UInt8} {stripeSignature : String} {now : Instant} :
    ∃ s', s.Serves constructEvent secret n (.stripeWebhook rawBody stripeSignature now) s' := by
  cases he : constructEvent rawBody stripeSignature secret
  case error =>
    refine ⟨s, .skip hf (.unverified he) ?_ ?_⟩ <;>
      simp [Api.serve, Router.stripeWebhook, he, State.Reflects]
  case ok event =>
    have ha : Runs s.session n (.fixed (.stable _) now) s.db (.webhook event .received)
        (handleEvent s.db event now).2
        (.webhook event <| .finish (handleEvent s.db event now).1) := runs_webhook
    obtain ⟨actions, hact, hr⟩ := ha.run hn rfl hf
    refine ⟨_, ⟨n, _, .stripeWebhook he hact, hr, fun event' he' => ?reflects⟩, ?db, fun _ => rfl,
      fun id' hs hne _ => (Function.update_of_ne hne ..).trans hs⟩
    all_goals
      simp only [Api.serve, Router.stripeWebhook, he]
      rcases hs : handleEvent s.db event now with ⟨_ | _, db'⟩
    case db.error | db.ok => rfl
    case reflects.error error =>
      cases he.symm.trans he'
      exact .inr ⟨error, rfl, Function.update_self ..⟩
    case reflects.ok =>
      cases he.symm.trans he'
      exact .inl ⟨_, rfl, Function.update_self ..⟩

theorem exists_serves (hw : s.db.WellFormed) (hf : ∀ x, s.holder x = none) (hn : s.session n = none)
    {call : Api.Call} (hi : ∀ id, usageId call = some id → s.session id = none) (ht : Timely call) :
    ∃ s', s.Serves constructEvent secret n call s' := by
  cases call
  case createTenant  => exact exists_serves_createTenant hf
  case stripeWebhook => exact exists_serves_stripeWebhook hf hn
  case getTenant =>
    refine ⟨s, .skip hf .getTenant ?_ trivial⟩
    simp only [Api.serve]
    split <;> rfl
  case getQuotaStatus =>
    refine ⟨s, .skip hf .getQuotaStatus ?_ trivial⟩
    simp only [Api.serve]
    split <;> rfl
  case recordUsage o id request now timestamp =>
    have ha : Runs s.session id ⟨o, now, timestamp, ht⟩ s.db (.usage request .received)
        (Router.recordUsage s.db o id request now timestamp).2 (.usage request <| .answered
          (Router.recordUsage s.db o id request now timestamp).1) := runs_usage hw
    obtain ⟨actions, hact, hr⟩ := ha.run (hi id rfl) rfl hf
    refine ⟨_, ⟨id, _, .recordUsage hact, hr, _, rfl, Function.update_self ..⟩, rfl, fun _ => rfl,
      fun id' hs _ hne => ?_⟩
    exact (Function.update_of_ne (fun he => hne <| congrArg some he.symm) ..).trans hs

-- The sessions that are still to be started are below `n`, and have not been started yet.
structure State.Awaits (s : State) (n : Uuid) (calls : List Api.Call) : Prop where
  free    : ∀ x, s.holder x = none
  unused  : ∀ id ≥ n, s.session id = none
  pending : ∀ id ∈ calls.filterMap usageId, id < n ∧ s.session id = none
  nodup   : (calls.filterMap usageId).Nodup
  timely  : ∀ call ∈ calls, Timely call

theorem State.Awaits.tail {call : Api.Call} {calls : List Api.Call}
    (h : s.Awaits n (call :: calls)) (hs : s.Serves constructEvent secret n call s') :
    s'.Awaits (n + 1) calls where
  free   := hs.free
  timely := fun c hc => h.timely c <| .tail _ hc
  unused := by
    intro id hid
    have hlt : n < id := hid
    refine hs.idle id (h.unused id hlt.le) (ne_of_gt hlt) fun hu => ?_
    have hm : id ∈ (call :: calls).filterMap usageId := List.mem_filterMap.mpr ⟨call, .head _, hu⟩
    exact absurd (h.pending id hm).left hlt.asymm
  pending := by
    intro id hid
    obtain ⟨c, hc, hu⟩ := List.mem_filterMap.mp hid
    have hm : id ∈ (call :: calls).filterMap usageId := List.mem_filterMap.mpr ⟨c, .tail _ hc, hu⟩
    obtain ⟨hlt, hidle⟩ := h.pending id hm
    refine ⟨Nat.lt_succ_of_lt hlt, hs.idle id hidle (ne_of_lt hlt) fun hu => ?_⟩
    have hn := h.nodup
    rw [List.filterMap_cons_some hu] at hn
    exact List.nodup_cons.mp hn |>.left hid
  nodup := by
    have hn := h.nodup
    cases hu : usageId call
    case none => rwa [List.filterMap_cons_none hu] at hn
    case some =>
      rw [List.filterMap_cons_some hu] at hn
      exact List.nodup_cons.mp hn |>.right

theorem exists_performed (hw : db.WellFormed) (h₀ : engine.Reach (.boot db) s)
    {calls : List Api.Call} (h : s.Awaits n calls) : ∃ s' : State,
      Performed constructEvent secret s (Calls.log (Api.serve constructEvent secret) s.db calls)
        s' ∧
      s'.db = Calls.after (Api.serve constructEvent secret) s.db calls ∧
      ∀ x, s'.holder x = none := by
  induction calls generalizing s n
  case nil => exact ⟨s, .nil, rfl, h.free⟩
  case cons call calls hi =>
    have hidle id (hu : usageId call = some id) : s.session id = none :=
      h.pending id (List.mem_filterMap.mpr ⟨call, .head _, hu⟩) |>.right
    have hserves : ∃ s₁, s.Serves constructEvent secret n call s₁ :=
      exists_serves (wellFormed hw h₀) h.free (h.unused n le_rfl) hidle (h.timely call <| .head _)
    obtain ⟨s₁, hs⟩ := hserves
    obtain ⟨s', hp', hdb, hf⟩ := hi (h₀.trans hs.reach) <| h.tail hs
    obtain ⟨id, as, hp, hr, ha⟩ := hs.performs
    rw [hs.db] at hdb hp'
    exact ⟨s', .cons hp hr hs.db ha hp', hdb, hf⟩

-- Calls that are served one after another are a run of the concurrent system, which consists of
-- their sessions and operations, gives the same answers and ends with the same database.
theorem calls_run (constructEvent : Router.ConstructEvent) (secret : String) (hw : db.WellFormed)
    {calls : List Api.Call} (hids : (calls.filterMap usageId).Nodup)
    (ht : ∀ call ∈ calls, Timely call) : ∃ s : State,
      Performed constructEvent secret (.boot db)
        (Calls.log (Api.serve constructEvent secret) db calls) s ∧
      s.db = Calls.after (Api.serve constructEvent secret) db calls ∧
      ∀ x, s.holder x = none := by
  obtain ⟨n, hn⟩ := Finset.exists_nat_subset_range (calls.filterMap usageId).toFinset
  have hlt id (hid : id ∈ calls.filterMap usageId) : id < n :=
    Finset.mem_range.mp <| hn <| List.mem_toFinset.mpr hid
  exact exists_performed hw .refl
    ⟨fun _ => rfl, fun _ _ => rfl, fun id hid => ⟨hlt id hid, rfl⟩, hids, ht⟩

-- A request and a retry of it.
theorem calls_run_retry : ∃ (s : State) (log : List (Api.Call × Api.Answer)),
    log.map (·.2.statusCode) = [201, 201, 200] ∧
    Performed (fun _ _ _ => .error "Unable to extract timestamp") "whsec_1"
      (.boot <| .migrated Plan.seeds) log s ∧
    s.db.usageEvents.map (·.id) = [10] := by
  let calls : List Api.Call := [
    .createTenant 1 { name := "acme" } 0,
    .recordUsage (.stable _) 10 (.apiCall 1 "a" (by decide)) 1 1,
    .recordUsage (.stable _) 11 (.apiCall 1 "a" (by decide)) 2 2
  ]
  have hids : (calls.filterMap usageId).Nodup := by decide
  have htimely : ∀ call ∈ calls, Timely call := by simp [calls, Timely]
  have hw : (Database.migrated Plan.seeds).WellFormed := .migrated
  have ⟨s, hp, hdb, _⟩ :=
    calls_run (fun _ _ _ => .error "Unable to extract timestamp") "whsec_1" hw hids htimely
  refine ⟨s, _, ?_, hp, ?_⟩
  · rfl
  · rw [hdb]
    rfl

end Execution
