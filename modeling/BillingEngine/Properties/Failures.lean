import BillingEngine.Properties.Checkout

open StripeWebhookHandler

namespace WebhookEvent

-- An absent or `null` field, or a string.
def Nullable (d : List (String × Json)) (key : String) : Prop :=
  ∀ j ∈ d.lookup key, j = .null ∨ ∃ s, j = .str s

-- An absent field, or seconds in the range of `datetime`.
def Timestamp (d : List (String × Json)) (key : String) : Prop :=
  ∀ j ∈ d.lookup key, ∃ n, j = .num n ∧ -62135596800 ≤ n ∧ n ≤ 253402300799

-- The documented shapes of the objects of events.

structure CheckoutShape (d : List (String × Json)) : Prop where
  customer     : Nullable d "customer"
  subscription : Nullable d "subscription"
  lineItems    : ∀ j ∈ d.lookup "line_items", ∃ lineItems items,
    j = .obj lineItems ∧ lineItems.lookup "data" = some (.arr items)

structure SubscriptionShape (d : List (String × Json)) : Prop where
  id          : ∃ id, d.lookup "id" = some (.str id)
  status      : ∀ j ∈ d.lookup "status", ∃ s, j = .str s
  periodStart : Timestamp d "current_period_start"
  periodEnd   : Timestamp d "current_period_end"

def Documented (event : WebhookEvent) : Prop :=
  ∃ d, event.object = .obj d ∧
    match dispatch event.type with
    | some .checkoutCompleted                          => CheckoutShape d
    | some .subscriptionUpdated | some .subscriptionDeleted => SubscriptionShape d
    | none                                             => True

-- There are no line items, or the first one is an object whose price is an object or absent.
def Priced (event : WebhookEvent) : Prop :=
  ∀ d lineItems, event.object = .obj d → d.lookup "line_items" = some (.obj lineItems) →
    ∃ item items, lineItems.lookup "data" = some (.arr (.obj item :: items)) ∧
      ∀ j ∈ item.lookup "price", ∃ price, j = .obj price

variable {event : WebhookEvent} {d : List (String × Json)}

theorem priced_of_none (ho : event.object = .obj d) (hl : d.lookup "line_items" = none) :
    event.Priced := by
  intro d' lineItems ho' hl'
  cases ho.symm.trans ho'
  cases hl.symm.trans hl'

theorem priced_iff {lineItems} (ho : event.object = .obj d)
    (hl : d.lookup "line_items" = some (.obj lineItems)) : event.Priced ↔
      ∃ item items, lineItems.lookup "data" = some (.arr (.obj item :: items)) ∧
        ∀ j ∈ item.lookup "price", ∃ price, j = .obj price := by
  constructor
  case mp => exact fun h => h d lineItems ho hl
  case mpr =>
    intro h d' lineItems' ho' hl'
    cases ho.symm.trans ho'
    cases hl.symm.trans hl'
    exact h

theorem CheckoutShape.priced (h : CheckoutShape d) (ho : event.object = .obj d) :
    (∃ price, priceId event.object = .ok price) ↔ event.Priced := by
  cases hl : d.lookup "line_items"
  case none =>
    refine iff_of_true ⟨.str "", ?_⟩ (priced_of_none ho hl)
    simp [ho, priceId, Json.get, hl, Json.first, bind, Except.bind]
  case some j =>
    obtain ⟨lineItems, items, rfl, hd⟩ := h.lineItems j hl
    have hp : priceId (.obj d) = (Json.arr items).first >>= fun item =>
        item.get "price" (.obj []) >>= fun price => price.get "id" (.str "") := by
      simp [priceId, Json.get, hl, hd, bind, Except.bind]
    rw [ho, hp, priced_iff ho hl]
    rcases items with _ | ⟨item, items⟩
    case nil => simp [Json.first, hd, bind, Except.bind]
    case cons =>
      cases item
      case obj item =>
        cases hi : item.lookup "price"
        case none => simp [Json.first, Json.get, hd, hi, bind, Except.bind]
        case some price => cases price <;> simp [Json.first, Json.get, hd, hi, bind, Except.bind]
      all_goals simp [Json.first, Json.get, hd, bind, Except.bind]

theorem fromTimestamp_isOk {n : Int} : (∃ t, fromTimestamp n = .ok t) ↔
    -62135596800 ≤ n ∧ n ≤ 253402300799 := by
  unfold fromTimestamp
  split <;> simp_all

theorem Timestamp.assignedInstant {key : String} (h : Timestamp d key) :
    ∃ t, assignedInstant (d.lookup key |>.getD .null) = .ok t := by
  cases hl : d.lookup key
  case none   => exact ⟨none, rfl⟩
  case some j =>
    obtain ⟨n, rfl, hn⟩ := h j hl
    obtain ⟨t, ht⟩ := fromTimestamp_isOk.mpr hn
    exact ⟨some t, by simp [StripeWebhookHandler.assignedInstant, ht, Functor.map, Except.map]⟩

theorem SubscriptionShape.assignments (h : SubscriptionShape d) (ho : event.object = .obj d) :
    ∃ c, assignments event = .ok c := by
  unfold StripeWebhookHandler.assignments
  split
  case h_1 =>
    have hstatus : ∃ status, assignedStatus (d.lookup "status" |>.getD (.str "")) =
        .ok status := by
      cases hl : d.lookup "status"
      case none   => exact ⟨none, rfl⟩
      case some j =>
        obtain ⟨s, rfl⟩ := h.status j hl
        simp only [Option.getD_some, assignedStatus]
        split <;> try split <;> try split
        all_goals exact ⟨_, rfl⟩
    obtain ⟨status, hs⟩ := hstatus
    obtain ⟨periodStart, hb⟩ := h.periodStart.assignedInstant
    obtain ⟨periodEnd, he⟩ := h.periodEnd.assignedInstant
    exact ⟨⟨status, periodStart, periodEnd⟩, by
      simp [ho, Json.toDict, Json.get, hs, hb, he, bind, Except.bind, Functor.map, Except.map,
        pure, Except.pure]⟩
  all_goals exact ⟨_, rfl⟩

end WebhookEvent

-- What keeps an event of a documented shape from failing.
structure Database.Handles (db : Database) (event : WebhookEvent) : Prop where
  id       : event.id.length ≤ 255
  type     : event.type.length ≤ 100
  checkout : ¬db.Processed event.id → dispatch event.type = some .checkoutCompleted →
    -- At most one tenant is not linked to a customer, if the event names none.
    (checkoutCustomer event = .null →
      (db.tenants.filter (·.stripeCustomerId = none)).length ≤ 1) ∧
    ∀ customer, (checkoutCustomer event).text = .ok customer →
      (∃ tenant ∈ db.tenants, tenant.stripeCustomerId = customer) → event.Priced ∧
        ((∃ plan ∈ db.plans, plan.name = "pro") → db.Accepts (checkoutSubscription event))

namespace StripeWebhookHandler

variable {db db' : Database} {event : WebhookEvent} {now : Instant} {d : List (String × Json)}

theorem marker_isOk : (∃ m, marker event = .ok m) ↔
    event.id.length ≤ 255 ∧ event.type.length ≤ 100 := by
  unfold marker
  split <;> simp_all

-- Updates and deletions of the documented shape never fail.
theorem handle_subscription (hu : db.Unique) (h : WebhookEvent.SubscriptionShape d)
    (ho : event.object = .obj d) (ht : dispatch event.type = some .subscriptionUpdated ∨
      dispatch event.type = some .subscriptionDeleted) :
    ∃ work result, handle db event now = .ok (work, result) ∧ work.insert = none := by
  obtain ⟨id, hid⟩ := h.id
  have hi : subscriptionId event = .ok (some id) := by
    simp [subscriptionId, ho, Json.toDict, hid, Json.text, bind, Except.bind]
  by_cases hc : db.Claimed id
  case pos =>
    obtain ⟨sub, hm, hs⟩ := hc
    obtain ⟨c, ha⟩ := h.assignments ho
    obtain ⟨f, hf, hw⟩ := @handle_concerns _ _ now _ _ ⟨ht, hi⟩ (hu.rows hm hs)
    exact ⟨(f c).1, (f c).2, by rw [hf, ha]; rfl, (hw c).left⟩
  case neg =>
    have hs : getSubscription db (some id) = .ok none := by
      rw [getSubscription, Rows.filter_eq_nil.mpr hc, scalarOneOrNone]
    refine ⟨{}, .noMatchingSubscription (some id), ?_, rfl⟩
    rcases ht with ht | ht <;> simp [handle, ht, handleSubscriptionUpdated,
      handleSubscriptionDeleted, hi, hs, bind, Except.bind, pure, Except.pure]

theorem flush_empty : flushSubscription db {} = .ok none :=
  rfl

-- Checkouts of the documented shape fail by the rows of the database and by their nested fields.
theorem handle_checkout_isOk {customer} (hu : db.Unique) (h : WebhookEvent.CheckoutShape d)
    (ho : event.object = .obj d) (ht : dispatch event.type = some .checkoutCompleted)
    (hc : (checkoutCustomer event).text = .ok customer) :
    (∃ work result write, handle db event now = .ok (work, result) ∧
      flushSubscription db work = .ok write) ↔
    (db.tenants.filter (·.stripeCustomerId = customer)).length ≤ 1 ∧
    ((∃ tenant ∈ db.tenants, tenant.stripeCustomerId = customer) → event.Priced ∧
      ((∃ plan ∈ db.plans, plan.name = "pro") → db.Accepts (checkoutSubscription event))) := by
  rw [handle_checkout ht ho hc, ← h.priced ho, getTenantByCustomerId]
  rcases hf : db.tenants.filter (·.stripeCustomerId = customer) with _ | ⟨tenant, _ | ⟨_, _⟩⟩
  case nil =>
    have hn : ¬∃ tenant ∈ db.tenants, tenant.stripeCustomerId = customer :=
      Rows.filter_eq_nil.mp hf
    simp [hf, scalarOneOrNone, hn, flush_empty]
  case cons.cons => simp [hf, scalarOneOrNone]
  case cons.nil =>
    have he : ∃ tenant ∈ db.tenants, tenant.stripeCustomerId = customer :=
      ⟨tenant, Rows.of_filter_singleton hf⟩
    have hlength := Rows.length_filter_key hu.plans (k := "pro")
    cases hp : priceId event.object
    case error => simp [hf, scalarOneOrNone, he]
    case ok price =>
      simp only [hf, scalarOneOrNone, getPlanByStripePrice]
      rcases hg : db.plans.filter (·.name = "pro") with _ | ⟨plan, _ | ⟨_, _⟩⟩
      case nil =>
        have hn : ¬∃ plan ∈ db.plans, plan.name = "pro" := Rows.filter_eq_nil.mp hg
        simp [hg, he, hn, flush_empty]
      case cons.cons => simp [hg] at hlength
      case cons.nil =>
        have hp' : ∃ plan ∈ db.plans, plan.name = "pro" := ⟨plan, Rows.of_filter_singleton hg⟩
        simp only [hg, he, hp', Except.ok.injEq, Prod.mk.injEq, exists_and_left, and_assoc,
          exists_eq_left', List.length_singleton, le_refl, true_and]
        simpa using @flushSubscription_isOk db _ ⟨_, checkoutSubscription event, _, _, _⟩ rfl

theorem WebhookEvent.Documented.text (h : event.Documented)
    (ht : dispatch event.type = some .checkoutCompleted) :
    ∃ customer, (checkoutCustomer event).text = .ok customer := by
  obtain ⟨d, ho, h⟩ := h
  simp only [ht] at h
  simp only [checkoutCustomer, ho]
  cases hl : d.lookup "customer"
  case none => exact ⟨none, rfl⟩
  case some j => rcases h.customer j hl with rfl | ⟨s, rfl⟩ <;> exact ⟨_, rfl⟩

-- What a delivery does between its marker and its commit.
theorem flushes_iff (hu : db.Unique) (h : event.Documented) (hp : ¬db.Processed event.id)
    (hm : ∃ m, marker event = .ok m) :
    (∃ work result write, handle db event now = .ok (work, result) ∧
      flushSubscription db work = .ok write) ↔ db.Handles event := by
  obtain ⟨hid, htype⟩ := marker_isOk.mp hm
  have hdoc := h
  obtain ⟨d, ho, h⟩ := h
  have flushes {work : UnitOfWork} (hi : work.insert = none) :
      ∃ write, flushSubscription db work = .ok write := by
    simp only [flushSubscription, hi]
    exact ⟨_, rfl⟩
  have subscription (h : WebhookEvent.SubscriptionShape d)
      (ht : dispatch event.type = some .subscriptionUpdated ∨
        dispatch event.type = some .subscriptionDeleted) :
      (∃ work result write, handle db event now = .ok (work, result) ∧
        flushSubscription db work = .ok write) ↔ db.Handles event := by
    obtain ⟨work, result, hh, hi⟩ := handle_subscription hu h ho ht
    obtain ⟨write, hw⟩ := flushes hi
    refine iff_of_true ⟨work, result, write, hh, hw⟩ ⟨hid, htype, fun _ hn => ?_⟩
    rcases ht with ht | ht <;> cases ht.symm.trans hn
  cases ht : dispatch event.type
  case none =>
    refine iff_of_true ?_ ⟨hid, htype, fun _ hn => by cases ht.symm.trans hn⟩
    exact ⟨{}, .ignoredUnhandledType event.type, none, by simp [handle, ht], rfl⟩
  case some kind =>
    simp only [ht] at h
    cases kind
    case subscriptionUpdated => exact subscription h (.inl ht)
    case subscriptionDeleted => exact subscription h (.inr ht)
    case checkoutCompleted =>
      obtain ⟨customer, hc⟩ := hdoc.text ht
      rw [handle_checkout_isOk hu h ho ht hc]
      constructor
      case mp =>
        rintro ⟨hlength, hfound⟩
        refine ⟨hid, htype, fun _ _ => ⟨fun hnull => ?_, fun customer' hc' => ?_⟩⟩
        · cases hc.symm.trans (text_eq_none.mpr hnull)
          exact hlength
        · cases hc.symm.trans hc'
          exact hfound
      case mpr =>
        intro hh
        obtain ⟨hnull, hfound⟩ := hh.checkout hp ht
        refine ⟨?_, hfound customer hc⟩
        cases customer
        case none   => exact hnull (text_eq_none.mp hc)
        case some _ => exact Rows.length_filter_unique hu.customers

theorem Delivers.succeeds_iff {result} (hd : Delivers db event now result db') (hu : db.Unique)
    (h : event.Documented) :
    (∃ r, result = .ok r) ∧ db'.Processed event.id ↔ db.Handles event := by
  cases hd
  case unstorable hm =>
    refine iff_of_false (by simp) fun hh => ?_
    obtain ⟨m, hm'⟩ := marker_isOk.mpr ⟨hh.id, hh.type⟩
    cases hm.symm.trans hm'
  case duplicate hm hp =>
    obtain ⟨hid, htype⟩ := marker_isOk.mp ⟨_, hm⟩
    exact iff_of_true ⟨⟨_, rfl⟩, hp⟩ ⟨hid, htype, fun hn => absurd hp hn⟩
  case fail hm hp hh =>
    refine iff_of_false (by simp) fun hs => ?_
    obtain ⟨_, _, _, hh', _⟩ := flushes_iff hu h hp ⟨_, hm⟩ |>.mpr hs
    cases hh.symm.trans hh'
  case violate hm hp hh hw =>
    refine iff_of_false (by simp) fun hs => ?_
    obtain ⟨_, _, _, hh', hw'⟩ := flushes_iff hu h hp ⟨_, hm⟩ |>.mpr hs
    cases hh.symm.trans hh'
    cases hw.symm.trans hw'
  case apply m work _ write hm hp hh hw =>
    refine iff_of_true ⟨⟨_, rfl⟩, m, by simp, marker_eventId hm⟩ ?_
    exact flushes_iff hu h hp ⟨_, hm⟩ |>.mp ⟨_, _, _, hh, hw⟩

end StripeWebhookHandler

namespace Execution

variable {s : State} {plans : List Plan} {event : WebhookEvent} {now : Instant}

-- An event of the documented shape is handled, or is retried by Stripe.
theorem handled_iff (hp : plans.map (·.name) |>.Nodup)
    (h : engine.Reach (.boot <| .migrated plans) s) (hd : event.Documented) :
    (∃ result, (handleEvent s.db event now).1 = .ok result) ∧
      (handleEvent s.db event now).2.Processed event.id ↔ s.db.Handles event :=
  (delivers s.db event now).succeeds_iff (unique (.migrated hp) h) hd

theorem handled_first_checkout : ∃ (s : State), engine.Reach (.boot <| .migrated Plan.seeds) s ∧
    ∃ result, (handleEvent s.db (.checkout "evt_1" "cus" "sub") 1).1 = .ok result := by
  let as : List Label :=
    [.env <| .createTenant 1 { name := "acme" } 0, .env <| .linkCustomer 1 "cus"]
  have hs : Transition.run engine.step (.boot <| .migrated Plan.seeds) as |>.isSome := rfl
  let s : State := (Transition.run engine.step (.boot <| .migrated Plan.seeds) as).get hs
  have hr : engine.Reach (.boot <| .migrated Plan.seeds) s := .get_run hs
  have hd : (WebhookEvent.checkout "evt_1" "cus" "sub").Documented := ⟨_, rfl, {
    customer     := by rintro _ ⟨⟩; exact .inr ⟨_, rfl⟩
    subscription := by rintro _ ⟨⟩; exact .inr ⟨_, rfl⟩
    lineItems    := by rintro _ ⟨⟩
  }⟩
  have hsubs : s.db.subscriptions = [⟨1, 1, none, 1, .active, 0, thirtyDays⟩] := rfl
  refine ⟨s, hr, handled_iff (by decide) hr hd |>.mpr ?_ |>.left⟩
  refine ⟨by decide, by decide, fun _ _ => ⟨fun hn => (by cases hn), fun customer _ _ => ⟨?_, ?_⟩⟩⟩
  case refine_1 => exact WebhookEvent.priced_of_none rfl rfl
  case refine_2 => exact fun _ => .inr ⟨"sub", rfl, by decide, by simp [Database.Claimed, hsubs]⟩

-- A checkout whose list of line items is empty.
def emptyCheckout : WebhookEvent where
  id     := "evt"
  type   := "checkout.session.completed"
  object := .obj [("customer", .str "cus"), ("line_items", .obj [("data", .arr [])])]

-- A checkout without line items fails, and so does a second checkout for the same subscription.
theorem not_handled : emptyCheckout.Documented ∧ ∃ (s : State),
    engine.Reach (.boot <| .migrated Plan.seeds) s ∧
    (handleEvent s.db emptyCheckout 2).1 = .error .indexError ∧
    ¬(handleEvent s.db emptyCheckout 2).2.Processed emptyCheckout.id ∧
    (handleEvent s.db (.checkout "evt_2" "cus" "sub") 2).1 = .error .integrityError := by
  let as := [.env <| .createTenant 1 { name := "acme" } 0, .env <| .linkCustomer 1 "cus"] ++
    deliveryLabels 10 (.checkout "evt_1" "cus" "sub") 1
  have hs : Transition.run engine.step (.boot <| .migrated Plan.seeds) as |>.isSome := rfl
  let s : State := (Transition.run engine.step (.boot <| .migrated Plan.seeds) as).get hs
  have hd : emptyCheckout.Documented := ⟨_, rfl, {
    customer     := by rintro _ ⟨⟩; exact .inr ⟨_, rfl⟩
    subscription := by rintro _ ⟨⟩
    lineItems    := by rintro _ ⟨⟩; exact ⟨_, _, rfl, rfl⟩
  }⟩
  have hp : (handleEvent s.db emptyCheckout 2).2.processedWebhooks =
      [⟨"evt_1", "checkout.session.completed"⟩] := rfl
  have hn : ¬(handleEvent s.db emptyCheckout 2).2.Processed emptyCheckout.id := by
    rw [Database.Processed, hp]
    decide
  exact ⟨hd, s, .get_run hs, rfl, hn, rfl⟩

end Execution
