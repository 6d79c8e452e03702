import BillingEngine.Properties.Orderly
import BillingEngine.Properties.Overlaps

open Sessions StripeWebhookHandler

namespace Usage

-- The answer to a request that a step decides on.
def Phase.decision (db : Database) (id : Uuid) (request : UsageRequest) (p : Phase) (a : Action) :
    Option HttpResponse :=
  if p.response.isSome then none else (next db id request p a).bind (·.1.response)

variable {db : Database} {id : Uuid} {request : UsageRequest} {p p' : Phase} {a : Action}
  {e : Effect Resource Write}

theorem Next.decision (h : Next db id request p a p' e) (hp : p.response = none) :
    p.decision db id request a = p'.response := by
  simp [Phase.decision, hp, h.to_next]

theorem Next.no_decision (h : Next db id request p a p' e)
    (hr : p.response = none → p'.response = none) : p.decision db id request a = none := by
  cases hp : p.response
  case none   => exact (h.decision hp).trans (hr hp)
  case some r => simp [Phase.decision, hp]

-- A decision is final.
theorem Next.response_eq {r r' : HttpResponse} (h : Next db id request p a p' e)
    (hp : p.response = some r) (hp' : p'.response = some r') : r = r' := by
  cases h
  case crash   => cases hp'
  case answer  => exact Option.some.inj <| hp.symm.trans hp'
  case respond => exact Option.some.inj <| hp.symm.trans hp'
  all_goals cases hp

end Usage

namespace Execution

-- What a run decides on: the answers to requests and deliveries, in between other operations.
inductive Decision
  | usage (id : Uuid) (request : UsageRequest) (response : HttpResponse)
  | webhook (id : Uuid) (event : WebhookEvent) (result : WebhookResult)
  | operation (op : Operation)

def Decision.renumber {db : Database} (n : db.Numbering) : Decision → Decision
  | webhook id event result => webhook id event (n.result result)
  | decision                => decision

@[simp]
theorem Decision.renumber_refl {db : Database} : Decision.renumber (.refl db) = id := by
  funext decision
  cases decision <;> simp [renumber]

-- Requests and deliveries that are served one after another, with the operations in between.
inductive Handled (inputs : Uuid → Inputs) (db : Database) : List Decision → Database → Prop
  | nil : Handled inputs db [] db
  | usage {log db₁ db₂ id request response} (h : Handled inputs db log db₁)
    (hr : Router.recordUsage db₁ (inputs id).order id request (inputs id).now
      (inputs id).timestamp = (response, db₂)) :
    Handled inputs db (log ++ [.usage id request response]) db₂
  | webhook {log db₁ db₂ id event result} (h : Handled inputs db log db₁)
    (hd : handleEvent db₁ event (inputs id).now = (.ok result, db₂)) :
    Handled inputs db (log ++ [.webhook id event result]) db₂
  | operation {log db₁ db₂ op} (h : Handled inputs db log db₁) (ho : op.apply db₁ = some db₂) :
    Handled inputs db (log ++ [.operation op]) db₂

-- The decision that a step makes, if it makes one. A delivery is answered at once, while a refused
-- request is rolled back first.
def State.decides (s : State) : Label → List Decision
  | .act id (.usage a) =>
    match s.session id with
    | some (.usage request p) => p.decision s.db id request a |>.toList.map (.usage id request)
    | _                       => []
  | .act id (.webhook a) =>
    match s.session id with
    | some (.webhook event p) => p.answer event a |>.toList.map (.webhook id event)
    | _                       => []
  | .env op => [.operation op]
  | _       => []

-- The steps of requests and deliveries which do not get in each other's way.
def Orderly (s : State) (l : Label) : Prop :=
  Apart s l ∧ Steady s l

abbrev Orderly.Path : State × List Decision → List Label → State × List Decision → Prop :=
  Transition.Path (Transition.logged engine.step State.decides) fun t => Orderly t.1

-- The runs in which the sessions read the given inputs.
abbrev Orderly.Reading (inputs : Uuid → Inputs) : State → State → Prop :=
  Transition.Reach engine.step fun s l => Orderly s l ∧ Reads inputs l

variable {db : Database} {inputs : Uuid → Inputs} {s s' : State} {l : Label}

theorem Step.handled {log} (hw : db.WellFormed) (hu : db.Unique) (hl : db.Ledger)
    (h : Orderly.Reading inputs (.boot db) s) (hok : Reads inputs l) (hst : Step s l s')
    (hs : Handled inputs db log s.db) : Handled inputs db (log ++ s.decides l) s'.db := by
  have quiet (hd : s.decides l = []) (hs : Handled inputs db log s'.db) :
      Handled inputs db (log ++ s.decides l) s'.db := by
    rwa [hd, List.append_nil]
  cases hst
  case receive      => exact quiet rfl hs
  case deliver      => exact quiet rfl hs
  case operation ho => exact hs.operation ho
  case usage id request p a p' e hp hn _ =>
    have hd : s.decides (.act id <| .usage a) =
        (p.decision s.db id request a).toList.map (.usage id request) := by
      simp only [State.decides, hp]
    have hsteady : Steady.Reading inputs (.boot db) s :=
      h.imp fun _ ho => ⟨ho.left.right, ho.right⟩
    cases Steady.serves hw hl hsteady hp hok hn
    case served hnone hsome hrec =>
      rw [hd, hn.decision hnone, hsome]
      exact hs.usage hrec
    case quiet hr hwr =>
      refine quiet ?_ <| by rwa [Program.perform, hwr]
      rw [hd, hn.no_decision hr.trans]
      rfl
    case crashed hc hwr =>
      refine quiet ?_ <| by rwa [Program.perform, hwr]
      rw [hd, hn.no_decision fun _ => hc ▸ rfl]
      rfl
  case webhook id event p a p' e hp hn _ =>
    have hd : s.decides (.act id <| .webhook a) =
        (p.answer event a).toList.map (.webhook id event) := by
      simp only [State.decides, hp]
    have hapart : Apart.Reading inputs (.boot db) s := h.imp fun _ ho => ⟨ho.left.left, ho.right⟩
    rcases Apart.serves hw hu hapart hp hn with ⟨hr, hwr⟩ | ⟨result, hr, he⟩
    · exact quiet (by rw [hd, hr]; rfl) <| by rwa [Program.perform, hwr]
    · rw [hd, hr]
      exact hs.webhook he

theorem path_handled (hw : db.WellFormed) (hu : db.Unique) (hl : db.Ledger) {as t}
    (h : Orderly.Path (.boot db, []) as t) (hi : ∀ l ∈ as, Reads inputs l) :
    Handled inputs db t.2 t.1.db := by
  induction h
  case nil => exact .nil
  case snoc h _ hst hs =>
    obtain ⟨hi, hl'⟩ := List.forall_mem_append.mp hi
    obtain ⟨hst, hlog⟩ := Transition.logged_some.mp hst
    have hr : Orderly.Reading inputs (.boot db) _ := (h.unlogged.and_all hi).reach
    have hok := hl' _ <| List.mem_singleton_self _
    exact hlog ▸ (Step.of_step hst).handled hw hu hl hr hok (hs hi)

-- Every answer has been decided on.
structure State.Logged (s : State) (log : List Decision) : Prop where
  usage   : ∀ {id request p response}, s.session id = some (.usage request p) →
    p.response = some response → .usage id request response ∈ log
  webhook : ∀ {id event result}, s.session id = some (.webhook event <| .answered result) →
    .webhook id event result ∈ log

theorem Step.logged {log} (h : Step s l s') (hs : s.Logged log) :
    s'.Logged (log ++ s.decides l) where
  usage {id request p' response} hp' hr := by
    rw [List.mem_append]
    rcases h.usage_session hp' with ⟨_, hp⟩ | ⟨rfl, _⟩ | ⟨p, a, e, rfl, hp, hn, _⟩
    case inl     => exact .inl <| hs.usage hp hr
    case inr.inl => cases hr
    case inr.inr =>
      cases hq : p.response
      case none   => exact .inr <| by simp [State.decides, hp, hn.decision hq, hr]
      case some   => exact .inl <| hs.usage hp <| hn.response_eq hq hr ▸ hq
  webhook {id event result} hp' := by
    rw [List.mem_append]
    rcases h.webhook_session hp' with ⟨_, hp⟩ | ⟨hp, _⟩ | ⟨p, a, e, rfl, hp, hn, _⟩
    case inl     => exact .inl <| hs.webhook hp
    case inr.inl => cases hp
    case inr.inr => exact .inr <| by simp [State.decides, hp, hn.answer.mpr rfl]

theorem path_logged {as t} (h : Orderly.Path (.boot db, []) as t) : t.1.Logged t.2 := by
  refine h.reach.invariant (I := fun t => t.1.Logged t.2) ?_ fun hs _ hst => ?_
  case refine_1 => exact ⟨by simp [Sessions.State.boot], by simp [Sessions.State.boot]⟩
  case refine_2 =>
    obtain ⟨hst, hlog⟩ := Transition.logged_some.mp hst
    exact hlog ▸ (Step.of_step hst).logged hs

-- Concurrent requests and deliveries are answered, and leave the database behind, as if each of
-- them had been served at once when its answer was decided on, up to the numbers of new
-- subscriptions.
theorem concurrent_handled (hw : db.WellFormed) (hu : db.Unique) (hl : db.Ledger) {as t}
    (h : Orderly.Path (.boot db, []) as t) :
    ∃ inputs, (∀ l ∈ as, Reads inputs l) ∧
      (∃ (n : db.Numbering) (log : List Decision) (db' : Database), Handled inputs db log db' ∧
        t.2 = log.map (.renumber n) ∧ t.1.db = n.rows db' t.1.db) ∧ t.1.Logged t.2 := by
  obtain ⟨inputs, hi⟩ := exists_inputs h.unlogged
  have hs : Handled inputs db t.2 t.1.db := path_handled hw hu hl h hi
  exact ⟨inputs, hi, ⟨.refl db, t.2, t.1.db, hs, by simp, by simp⟩, path_logged h⟩

-- A subscription of a suspended tenant is updated between the two lookups of a request of the
-- tenant.
theorem concurrent_handled_between : ∃ (db : Database) (inputs : Uuid → Inputs)
    (t : State × List Decision) (n : db.Numbering) (log : List Decision) (db' : Database),
    t.2 = [.webhook 20 (.updated "evt" "sub" "past_due") (.subscriptionUpdated 1),
      .usage 10 (.apiCall 1 "a" (by decide)) (Router.raisedResponse <| .quota <|
        QuotaEnforcer.inactiveTenant ⟨1, "acme", .pro, some "cus", .suspended⟩)] ∧
    Handled inputs db log db' ∧ t.2 = log.map (.renumber n) ∧ t.1.db = n.rows db' t.1.db := by
  let db : Database := { Database.migrated Plan.seeds with
    tenants            := [⟨1, "acme", .pro, some "cus", .suspended⟩]
    subscriptions      := [⟨1, 1, some "sub", 2, .active, 0, 100⟩]
    nextSubscriptionId := 2 }
  let step := Transition.logged engine.step State.decides
  let request : UsageRequest := .apiCall 1 "a" (by decide)
  let as : List Label := .act 10 (.usage .getTenant) ::
    (deliveryLabels 20 (.updated "evt" "sub" "past_due") 2).take 5
  let as' : List Label := [.act 10 <| .usage .getStoredResponse, .act 10 <| .usage .rollback]
  let start : Label := .start 10 <| .usage request .received
  have h₁ : Transition.run step (.boot db, []) [start] |>.isSome := rfl
  let t₁ := (Transition.run step (.boot db, []) [start]).get h₁
  have h₂ : Transition.run step t₁ as |>.isSome := rfl
  let t₂ := (Transition.run step t₁ as).get h₂
  have h₃ : step t₂ (.act 20 <| .webhook .commit) |>.isSome := rfl
  let t₃ := (step t₂ (.act 20 <| .webhook .commit)).get h₃
  have h₄ : Transition.run step t₃ as' |>.isSome := rfl
  let t := (Transition.run step t₃ as').get h₄
  have hr₁ : Orderly.Path (.boot db, []) [start] t₁ := by
    refine .single ⟨?_, ?_⟩ rfl
    · trivial
    · intro _ _ _ hs
      cases hs
  have hr₂ : Orderly.Path t₁ as t₂ :=
    .of_run_all (Option.some_get h₂).symm <| by simp [as, deliveryLabels, Orderly, Apart, Steady]
  have hids {id session} (hs : t₂.1.session id = some session) : id = 10 ∨ id = 20 := by
    rcases session_of_run (Transition.run_logged (Option.some_get h₂).symm) hs with hs | ⟨l, hm, hl⟩
    case inl =>
      rcases session_of_run (Transition.run_logged (Option.some_get h₁).symm) hs with
        hs | ⟨l, hm, hl⟩
      · cases hs
      · cases List.mem_singleton.mp hm
        cases hl
        exact .inl rfl
    case inr =>
      simp only [as, deliveryLabels, List.map, List.take_succ_cons, List.take_zero,
        List.mem_cons, List.not_mem_nil, or_false] at hm
      rcases hm with rfl | rfl | rfl | rfl | rfl | rfl <;> cases hl <;> simp
  have hr₃ : Orderly.Path t₂ [.act 20 <| .webhook .commit] t₃ := by
    refine .single ⟨?_, ?_⟩ rfl
    · intro event' p' hs' id event p hne hs hp
      obtain rfl := (hids hs).resolve_right hne
      cases hs
    · intro event m pt write result _ id request' p hs hsel
      rcases hids hs with rfl | rfl <;> cases hs
      cases hsel
  have hr₄ : Orderly.Path t₃ as' t :=
    .of_run_all (Option.some_get h₄).symm <| by simp [as', Orderly, Apart, Steady]
  have hw : db.WellFormed := ⟨by simp [db], by simp [db]⟩
  have hu : db.Unique :=
    ⟨by simp [db], by simp [db], by simp [db, Database.migrated, Plan.seeds], by simp [db]⟩
  obtain ⟨inputs, _, ⟨n, log, db', hs, hlog, hdb⟩, _⟩ :=
    concurrent_handled hw hu (.empty rfl rfl) <| hr₁.trans <| hr₂.trans <| hr₃.trans hr₄
  exact ⟨db, inputs, t, n, log, db', rfl, hs, hlog, hdb⟩

end Execution
