import BillingEngine.Properties.Quota

open Sessions StripeWebhookHandler

-- Nothing in the database refers to Stripe.
structure Database.Unlinked (db : Database) : Prop where
  tenants       : ∀ t ∈ db.tenants, t.stripeCustomerId = none
  subscriptions : ∀ s ∈ db.subscriptions, s.stripeSubscriptionId = none

-- The event does not carry `null` in place of the id that its handler looks up.
def WebhookEvent.Identified (event : WebhookEvent) : Prop :=
  match dispatch event.type with
  | none                    => True
  | some .checkoutCompleted => (checkoutCustomer event).text ≠ .ok none
  | some _                  => subscriptionId event ≠ .ok none

-- The event has been answered without any effect.
def WebhookResult.Ignored : WebhookResult → Prop
  | duplicateIgnored _ | ignoredUnhandledType _ | noMatchingTenant _ | noMatchingPlan
  | noMatchingSubscription _ => True
  | subscriptionCreated _ | subscriptionUpdated _ | subscriptionCanceled _ => False

namespace Webhook

-- A delivery that is going to leave nothing behind but its marker.
def Phase.Inert : Phase → Prop
  | deleting ..                                                       => False
  | flushingTenant _ work result | flushingSubscription _ work result => work = {} ∧ result.Ignored
  | committing _ planType write result => planType = none ∧ write = none ∧ result.Ignored
  | answered result                    => result.Ignored
  | _                                  => True

variable {db : Database} {event : WebhookEvent} {p p' : Phase} {a : Action}
  {e : Effect Resource Write}

theorem getSubscription_unlinked {id : Option String} {s : Subscription} (hu : db.Unlinked)
    (hs : getSubscription db id = .ok (some s)) : id = none := by
  obtain ⟨hm, hi⟩ := Rows.of_filter_singleton (scalarOneOrNone_mem hs)
  exact hi.symm.trans <| hu.subscriptions s hm

theorem not_loads (hu : db.Unlinked) (hi : event.Identified) (s : Subscription) :
    ¬Loads db event s := by
  rintro ⟨ht, id, hid, hs⟩
  obtain rfl := getSubscription_unlinked hu hs
  simp only [WebhookEvent.Identified, ht] at hi
  exact hi hid

theorem handles_ignored {now : Instant} {work : UnitOfWork} {result : WebhookResult}
    (h : Handles db event now work result) (hu : db.Unlinked) (hi : event.Identified) :
    work = {} ∧ result.Ignored := by
  cases h
  case checkout ht hj hc _ =>
    obtain ⟨hm, hcustomer⟩ := Rows.of_filter_singleton (scalarOneOrNone_mem hc)
    obtain rfl := hcustomer.symm.trans <| hu.tenants _ hm
    simp only [WebhookEvent.Identified, ht] at hi
    exact absurd hj hi
  case updated ht hid hs _ =>
    obtain rfl := getSubscription_unlinked hu hs
    simp only [WebhookEvent.Identified, ht] at hi
    exact absurd hid hi
  case deleted ht hid hs => exact not_loads hu hi _ ⟨ht, _, hid, hs⟩ |>.elim
  all_goals exact ⟨rfl, trivial⟩

theorem Next.inert (h : Next db event p a p' e) (hu : db.Unlinked) (hi : event.Identified)
    (hp : p.Inert) : p'.Inert := by
  cases h
  case handle hh _ => exact handles_ignored (.of_handle hh) hu hi
  case load hl     => exact not_loads hu hi _ hl |>.elim
  case getTenant   => exact hp.elim
  case flushTenant => exact hp
  case flushSubscription hw =>
    obtain ⟨rfl, hr⟩ := hp
    exact ⟨rfl, flush_none hw, hr⟩
  case commit => exact hp.right.right
  all_goals trivial

end Webhook

-- The database without the log of deliveries.
def Database.withLog (log : List ProcessedWebhook) (db : Database) : Database :=
  { db with processedWebhooks := log }

-- Requests do not look at the log.
theorem Usage.next_withLog {log : List ProcessedWebhook} {db : Database} {id request p a} :
    Usage.next (db.withLog log) id request p a = Usage.next db id request p a := by
  cases p <;> cases a <;> rfl

theorem Operation.apply_withLog {log : List ProcessedWebhook} {op : Operation} {db db' : Database}
    (h : op.apply db = some db') : op.apply (db.withLog log) = some (db'.withLog log) := by
  cases Applies.of_apply h
  case createTenant hf h =>
    unfold Router.createTenant at h
    split at h <;> try contradiction
    split at h <;> cases h
    simp only [Operation.apply, Router.createTenant, Database.withLog, if_false, *]
    rfl
  case linkCustomer hf => exact if_neg fun ⟨t, ht, hc⟩ => hf t ht hc
  case setTenantStatus => rfl

def Session.isDelivery : Session → Bool
  | webhook .. => true
  | usage ..   => false

namespace Execution

-- Runs in which nobody links a tenant to a customer, which the code itself never does.
def Unlinked (_ : State) : Label → Prop
  | .env (.linkCustomer ..)     => False
  | .start _ (.webhook event _) => event.Identified
  | _                           => True

abbrev Unlinked.Reach : State → State → Prop :=
  Transition.Reach engine.step Unlinked

variable {db : Database} {s s' s₁ s₂ : State} {l : Label} {as : List Label} {id : Uuid}

structure State.Inert (s : State) : Prop where
  db         : s.db.Unlinked
  deliveries : ∀ {id event p}, s.session id = some (.webhook event p) →
    event.Identified ∧ p.Inert

theorem Step.unlinked (h : Step s l s') (hl : Unlinked s l) (hi : s.Inert) : s'.db.Unlinked := by
  cases h.commits
  case none hd     => exact hd ▸ hi.db
  case usage hd    => exact hd ▸ ⟨hi.db.tenants, hi.db.subscriptions⟩
  case webhook hs hd _ =>
    obtain ⟨_, rfl, rfl, _⟩ := hi.deliveries hs
    exact hd ▸ ⟨hi.db.tenants, hi.db.subscriptions⟩
  case operation ho =>
    generalize s'.db = db' at ho ⊢
    cases Operation.Applies.of_apply ho
    case linkCustomer   => exact hl.elim
    case createTenant h =>
      obtain ⟨_, _, rfl⟩ := Router.createTenant_ok h
      constructor
      case tenants       => simpa [or_imp, forall_and] using hi.db.tenants
      case subscriptions => simpa [or_imp, forall_and] using hi.db.subscriptions
    case setTenantStatus =>
      refine ⟨fun t ht => ?_, hi.db.subscriptions⟩
      obtain ⟨t, hm, rfl⟩ := Rows.mem_modify.mp ht
      split <;> exact hi.db.tenants t hm

theorem Step.inert (h : Step s l s') (hl : Unlinked s l) (hi : s.Inert) : s'.Inert := by
  refine ⟨h.unlinked hl hi, fun {id event p} hs => ?_⟩
  by_cases ht : l.session? = some id
  case neg => exact hi.deliveries <| (h.session_eq ht).symm.trans hs
  case pos =>
    cases h <;> cases ht
    case receive => simp at hs
    case deliver =>
      simp only [Function.update_self, Option.some.injEq, Session.webhook.injEq] at hs
      obtain ⟨rfl, rfl⟩ := hs
      exact ⟨hl, trivial⟩
    case usage => simp [Program.perform] at hs
    case webhook hn hs' _ =>
      obtain ⟨hid, hp⟩ := hi.deliveries hs'
      simp only [Program.perform, Function.update_self, Option.some.injEq,
        Session.webhook.injEq] at hs
      obtain ⟨rfl, rfl⟩ := hs
      exact ⟨hid, hn.inert hi.db hid hp⟩

theorem inert (hu : db.Unlinked) (h : Unlinked.Reach (.boot db) s) : s.Inert :=
  h.invariant (I := State.Inert) ⟨hu, by simp [Sessions.State.boot]⟩ fun hi hl hs =>
    (Step.of_step hs).inert hl hi

-- The sessions of deliveries.
def State.DeliveryOf (s : State) (id : Uuid) : Prop :=
  (s.session id).any Session.isDelivery

instance {s : State} : DecidablePred s.DeliveryOf := fun id =>
  inferInstanceAs <| Decidable <| (s.session id).any Session.isDelivery

theorem State.deliveryOf_iff :
    s.DeliveryOf id ↔ ∃ event p, s.session id = some (.webhook event p) := by
  unfold DeliveryOf
  rcases s.session id with _ | _ | _ <;> simp [Session.isDelivery]

theorem deliveryOf_iff_of_reach (hr : engine.Reach s s') {session}
    (hs : s.session id = some session) :
    s'.DeliveryOf id ↔ ∃ event p, session = .webhook event p := by
  obtain ⟨session', hs', hinput⟩ := persists hr hs
  rw [State.deliveryOf_iff, hs']
  cases session <;> cases session' <;> cases hinput <;> simp

-- The state without the deliveries, and with the log of the database that the run began with.
def State.unlogged (s s' : State) (db : Database) : State :=
  s'.hide s.DeliveryOf (·.withLog db.processedWebhooks)

-- A delivery leaves a row of the log behind, and nothing else.
theorem unlogged_hidden (hi : s₁.Inert) (hst : engine.step s₁ l = some s₂)
    (hr : engine.Reach s₂ s) (hl : l.Of s.DeliveryOf) :
    s.unlogged s₂ db = s.unlogged s₁ db := by
  have hr₁ : engine.Reach s₁ s := .trans (.single trivial hst) hr
  refine Program.step_iff.mp hst |>.hide_hidden hl ?_
  obtain ⟨id, hid, hh⟩ := hl
  cases (Step.of_step hst).commits
  case none hd   => rw [hd]
  case operation => cases hid
  case webhook hs hd _ =>
    obtain ⟨_, rfl, rfl, _⟩ := hi.deliveries hs
    rw [hd]
    rfl
  case usage hs hd =>
    cases hid
    obtain ⟨_, hs⟩ := usage_persists hr₁ hs
    simp [State.deliveryOf_iff, hs] at hh

theorem unlogged_visible (hst : engine.step s₁ l = some s₂) (hr : engine.Reach s₂ s)
    (hl : ¬l.Of s.DeliveryOf) : engine.step (s.unlogged s₁ db) l = some (s.unlogged s₂ db) := by
  have hr₁ : engine.Reach s₁ s := .trans (.single trivial hst) hr
  refine Program.step_iff.mp hst |>.hide_visible hl ?act ?env
  case env =>
    rintro op rfl
    cases Step.of_step hst
    exact Operation.apply_withLog ‹_›
  case act =>
    rintro id a session session' e rfl hs hn
    have hid : ¬s.DeliveryOf id := fun hid => hl ⟨id, rfl, hid⟩
    rw [deliveryOf_iff_of_reach hr₁ hs] at hid
    cases Session.Next.of_next hn
    case webhook  => exact absurd ⟨_, _, rfl⟩ hid
    case usage hn' =>
      refine ⟨?_, ?_⟩
      · rw [← hn]
        simp only [engine, Session.next, Usage.next_withLog]
      · cases hn'.writes
        case none hw => rw [hw, hw]
        case commit  => rfl

-- A run that starts a delivery has its session at the end.
theorem started (h : Transition.run engine.step s₁ as = some s) {event : WebhookEvent}
    {p : Webhook.Phase} (hm : .start id (.webhook event p) ∈ as) : s.DeliveryOf id := by
  induction as generalizing s₁
  case nil => cases hm
  case cons l as hi =>
    obtain ⟨s₂, hst, hrun⟩ := Transition.run_cons_some.mp h
    rcases List.mem_cons.mp hm with rfl | hm
    case inr => exact hi hrun hm
    case inl =>
      have hs : s₂.session id = some (.webhook event p) := by
        cases Step.of_step hst
        simp
      have hr : engine.Reach s₂ s := Transition.Reach.of_run hrun |>.weaken
      exact deliveryOf_iff_of_reach hr hs |>.mpr ⟨_, _, rfl⟩

-- Without the link to a customer, the deliveries of a run have no effect.
structure Ineffective (db : Database) (as : List Label) (s : State) : Prop where
  answers : ∀ {id event result}, s.session id = some (.webhook event <| .answered result) →
    result.Ignored
  -- The requests run as they do on their own.
  removed : ∃ s' : State, Transition.run engine.step (.boot db)
      (as.filter (¬Label.Of s.DeliveryOf ·)) = some s' ∧ NoWebhook.Reach (.boot db) s' ∧
    s'.db = s.db.withLog db.processedWebhooks ∧
    ∀ {id request p},
      s'.session id = some (.usage request p) ↔ s.session id = some (.usage request p)

theorem run_unlogged (hu : db.Unlinked) (h : Transition.run engine.step (.boot db) as = some s)
    (hl : ∀ l ∈ as, ∀ s, Unlinked s l) :
    Transition.run engine.step (.boot db) (as.filter (¬Label.Of s.DeliveryOf ·)) =
      some (s.unlogged s db) := by
  have hb : s.unlogged (.boot db) db = .boot db := by
    simp [State.unlogged, Sessions.State.hide, Sessions.State.boot, Database.withLog]
  have hv := Transition.run_view_all (s.unlogged · db) (Label.Of s.DeliveryOf) hl
    (fun h₁ _ hst h₂ => unlogged_hidden (inert hu h₁) hst h₂.weaken)
    (fun _ _ hst h₂ => unlogged_visible hst h₂.weaken) h
  rwa [hb] at hv

theorem ineffective (hu : db.Unlinked) (h : Transition.run engine.step (.boot db) as = some s)
    (hl : ∀ l ∈ as, ∀ s, Unlinked s l) : Ineffective db as s where
  answers := fun ha => inert hu (.of_run_all h hl) |>.deliveries ha |>.right
  removed := by
    have hr := run_unlogged hu h hl
    refine ⟨_, hr, .of_run_all hr fun l hm _ => ?_, rfl, fun {id request p} => ?_⟩
    case refine_1 =>
      rw [List.mem_filter] at hm
      rcases l with ⟨id, _ | ⟨event, p⟩⟩ | _ | _
      case start.webhook =>
        have hs : s.DeliveryOf id := started h hm.left
        exact of_decide_eq_true hm.right ⟨id, rfl, hs⟩
      all_goals exact trivial
    case refine_2 =>
      simp only [State.unlogged, Sessions.State.hide]
      split
      case isFalse => rfl
      case isTrue hd =>
        obtain ⟨_, _, hs⟩ := State.deliveryOf_iff.mp hd
        simp [hs]

-- A tenant of the API pays, but stays on its plan.
theorem ineffective_checkout : ∃ (as : List Label) (s : State),
    s.session 20 = some (.webhook (.checkout "evt" "cus" "sub") <|
      .answered <| .noMatchingTenant "cus") ∧
    s.db.tenants.map (·.planType) = [.free] ∧ s.db.processedWebhooks.map (·.eventId) = ["evt"] ∧
    Ineffective (.migrated Plan.seeds) as s := by
  let as := .env (.createTenant 1 { name := "acme" } 0) ::
    (checkLabels 10 (.apiCall 1 "a" (by decide)) (.stable _) 1 ++
      deliveryLabels 20 (.checkout "evt" "cus" "sub") 2 ++ commitLabels 10 2)
  have hs : Transition.run engine.step (.boot <| .migrated Plan.seeds) as |>.isSome := rfl
  have hu : (Database.migrated Plan.seeds).Unlinked := ⟨by simp [Database.migrated], by
    simp [Database.migrated]⟩
  have he : (WebhookEvent.checkout "evt" "cus" "sub").Identified := by
    have hc : (checkoutCustomer <| .checkout "evt" "cus" "sub").text = .ok (some "cus") := rfl
    have ht : dispatch (WebhookEvent.checkout "evt" "cus" "sub").type =
        some .checkoutCompleted := rfl
    simp [WebhookEvent.Identified, ht, hc]
  have hl : ∀ l ∈ as, ∀ s, Unlinked s l := by
    simp [as, checkLabels, commitLabels, deliveryLabels, Unlinked, he]
  exact ⟨as, _, rfl, rfl, rfl, ineffective hu (Option.some_get hs).symm hl⟩

end Execution
