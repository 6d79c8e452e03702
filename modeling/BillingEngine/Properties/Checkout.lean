import BillingEngine.Execution.Serial
import BillingEngine.Execution.Theorems.Keys

open StripeWebhookHandler

namespace Database

-- A checkout leaves tenants and subscriptions alone, or it upgrades the customer that paid.
inductive UpgradesPayer (db : Database) (event : WebhookEvent) (db' : Database) : Prop
  | unchanged (tenants : db'.tenants = db.tenants)
    (subscriptions : db'.subscriptions = db.subscriptions)
  | upgrade {customer tenant sub} (names : checkoutCustomer event = .str customer)
    (payer : db.tenants.filter (·.stripeCustomerId = some customer) = [tenant])
    (tenants : db'.tenants =
      Rows.modify Tenant.id tenant.id ({ · with planType := .pro }) db.tenants)
    (subscriptions : db'.subscriptions = db.subscriptions ++ [sub])
    (owner : sub.tenantId = tenant.id)

-- The event names no customer, exactly one tenant has no customer id, and nothing else keeps the
-- event from being applied.
structure Misdirects (db : Database) (event : WebhookEvent) : Prop where
  anonymous    : checkoutCustomer event = .null
  tenant       : ∃ tenant, db.tenants.filter (·.stripeCustomerId = none) = [tenant]
  plan         : ∃ plan, db.plans.filter (·.name = "pro") = [plan]
  price        : ∃ price, priceId event.object = .ok price
  subscription : db.Accepts (checkoutSubscription event)
  id           : event.id.length ≤ 255
  fresh        : ¬db.Processed event.id

variable {db db' : Database} {event : WebhookEvent} {now : Instant} {tenant : Tenant}

-- The assignment of a plan to a tenant, whether or not it leads to an `UPDATE`.
theorem tenants_setPlanType {m write} {planType : PlanType} (hk : db.tenants.map (·.id) |>.Nodup)
    (ht : tenant ∈ db.tenants) :
    (db.applyWebhook m (UnitOfWork.setPlanType tenant planType) write).tenants =
      Rows.modify Tenant.id tenant.id ({ · with planType }) db.tenants := by
  rw [applyWebhook_tenants]
  unfold UnitOfWork.setPlanType
  split
  case isFalse => rfl
  case isTrue he =>
    refine (Rows.modify_eq_self fun t hm hi => ?_).symm
    rw [List.inj_on_of_nodup_map hk hm ht hi, he]

end Database

namespace StripeWebhookHandler

variable {db db' : Database} {event : WebhookEvent} {now : Instant}

theorem text_eq_none {j : Json} : j.text = .ok none ↔ j = .null := by
  cases j <;> simp [Json.text]

theorem dispatch_checkout (ht : dispatch event.type = some .checkoutCompleted) :
    event.type = "checkout.session.completed" := by
  unfold dispatch at ht
  split at ht <;> try assumption
  split at ht <;> try contradiction
  split at ht <;> contradiction

theorem marker_checkout (ht : dispatch event.type = some .checkoutCompleted) :
    (∃ m, marker event = .ok m) ↔ event.id.length ≤ 255 := by
  have hl : event.type.length ≤ 100 := by rw [dispatch_checkout ht]; decide
  unfold marker
  split <;> simp_all

theorem priceId_object {j price : Json} (h : priceId j = .ok price) : ∃ d, j = .obj d := by
  obtain ⟨_, hl, _⟩ := Except.bind_eq_ok.mp h
  cases j <;> first | exact ⟨_, rfl⟩ | cases hl

end StripeWebhookHandler

open Database

variable {db db' : Database} {event : WebhookEvent} {now : Instant} {result}

theorem Database.Misdirects.not_upgrades (h : db.Misdirects event)
    (ht : dispatch event.type = some .checkoutCompleted) :
    ¬db.UpgradesPayer event (handleEvent db event now).2 := by
  obtain ⟨tenant, htenant⟩ := h.tenant
  obtain ⟨plan, hplan⟩ := h.plan
  obtain ⟨price, hprice⟩ := h.price
  obtain ⟨m, hm⟩ := marker_checkout ht |>.mpr h.id
  obtain ⟨d, ho⟩ := priceId_object hprice
  obtain ⟨work, result, row, hh, hi, hrow⟩ : ∃ work result row, handle db event now =
      .ok (work, result) ∧ work.insert = some row ∧
      row.stripeSubscriptionId = checkoutSubscription event := by
    have hh : handle db event now = _ := handle_checkout ht ho (text_eq_none.mpr h.anonymous)
    simp only [getTenantByCustomerId, htenant, hprice, getPlanByStripePrice, hplan, scalarOneOrNone]
      at hh
    exact ⟨_, _, _, hh, rfl, rfl⟩
  obtain ⟨write, hw⟩ := flushSubscription_isOk hi |>.mpr <| hrow ▸ h.subscription
  rw [Delivers.apply hm h.fresh hh hw |>.eq]
  intro hu
  cases hu
  case upgrade hn _ _ _ _ => cases h.anonymous.symm.trans hn
  case unchanged hs =>
    rcases flushSubscription_ok hw with ⟨hn, _⟩ | ⟨_, _, _, _, rfl⟩
    · cases hi.symm.trans hn
    · simp [applyWebhook_subscriptions, writeSubscription] at hs

-- A checkout that gets to an insertion has read the customer and the price.
theorem handle_insert {work result row} (ht : dispatch event.type = some .checkoutCompleted)
    (h : handle db event now = .ok (work, result)) (hi : work.insert = some row) :
    ∃ price, priceId event.object = .ok price := by
  simp only [handle, ht, handleCheckoutCompleted, Except.bind_eq_ok, Except.map_eq_ok,
    Json.toDict_ok] at h
  obtain ⟨_, ⟨d, ho, rfl⟩, _, _, _, _, _, _, tenant?, _, h⟩ := h
  cases tenant?
  case none => cases h; cases hi
  case some =>
    obtain ⟨price, hp, _⟩ := Except.bind_eq_ok.mp h
    exact ⟨price, ho ▸ hp⟩

theorem StripeWebhookHandler.Delivers.upgrades (h : Delivers db event now result db')
    (hk : db.tenants.map (·.id) |>.Nodup) (ht : dispatch event.type = some .checkoutCompleted)
    (hn : ¬db.Misdirects event) : db.UpgradesPayer event db' := by
  cases h
  case apply hm hp hh hw =>
    cases Handles.of_handle hh
    case unhandled hn      => cases ht.symm.trans hn
    case noTenant          => cases flush_none hw; exact .unchanged rfl rfl
    case noPlan            => cases flush_none hw; exact .unchanged rfl rfl
    case noSubscription hn _ _ => rcases hn with hn | hn <;> cases ht.symm.trans hn
    case updated hn _ _ _  => cases ht.symm.trans hn
    case deleted hn _ _    => cases ht.symm.trans hn
    case checkout customer tenant plan _ hj htenant hplan =>
      have hfilter := scalarOneOrNone_mem htenant
      cases customer
      case none =>
        refine absurd ?_ hn
        exact {
          anonymous    := text_eq_none.mp hj
          tenant       := ⟨tenant, hfilter⟩
          plan         := ⟨plan, scalarOneOrNone_mem hplan⟩
          price        := handle_insert ht hh rfl
          subscription := flushSubscription_isOk rfl |>.mp ⟨_, hw⟩
          id           := marker_checkout ht |>.mp ⟨_, hm⟩
          fresh        := hp
        }
      case some customer =>
        rcases flushSubscription_ok hw with ⟨hi, _⟩ | ⟨row, id, hi, _, rfl⟩
        case inl => cases hi
        case inr =>
          cases hi
          refine .upgrade (Json.text_eq_some.mp hj) hfilter ?_ applyWebhook_subscriptions rfl
          exact tenants_setPlanType hk <| mem_of_getTenant htenant
  all_goals exact .unchanged rfl rfl

-- A checkout upgrades the customer that paid, or nobody, unless it is misdirected.
theorem upgrades_payer (hk : db.tenants.map (·.id) |>.Nodup)
    (ht : dispatch event.type = some .checkoutCompleted) :
    db.UpgradesPayer event (handleEvent db event now).2 ↔ ¬db.Misdirects event :=
  ⟨fun hu h => h.not_upgrades ht hu, (delivers db event now).upgrades hk ht⟩

theorem upgrades_payer_named : ∃ (db : Database) (db' : Database), db.tenants ≠ db'.tenants ∧
    db'.subscriptions.length = 1 ∧ db.UpgradesPayer (.checkout "evt" "cus" "sub") db' := by
  let db : Database := { Database.migrated Plan.seeds with
    tenants := [⟨1, "acme", .free, none, .active⟩, ⟨2, "umbrella", .free, some "cus", .active⟩] }
  refine ⟨db, (handleEvent db (.checkout "evt" "cus" "sub") 1).2, by decide, rfl, ?_⟩
  exact upgrades_payer (by decide) rfl |>.mpr fun h => by cases h.anonymous

-- The lookup of `None` finds the only tenant that is not linked to a customer.
theorem not_upgrades_payer : ∃ (db : Database) (event : WebhookEvent) (tenant : Tenant),
    (db.tenants.map (·.id)).Nodup ∧ (db.tenants.filterMap (·.stripeCustomerId)).Nodup ∧
    dispatch event.type = some .checkoutCompleted ∧ checkoutCustomer event = .null ∧
    tenant ∈ (handleEvent db event 1).2.tenants ∧ tenant.planType = .pro ∧
    ¬db.UpgradesPayer event (handleEvent db event 1).2 := by
  let db : Database := { Database.migrated Plan.seeds with
    tenants := [⟨1, "acme", .free, none, .active⟩, ⟨2, "umbrella", .free, some "cus", .active⟩] }
  let event : WebhookEvent := {
    id     := "evt"
    type   := "checkout.session.completed"
    object := .obj [("customer", .null), ("subscription", .str "sub")]
  }
  refine ⟨db, event, ⟨1, "acme", .pro, none, .active⟩, by decide, by decide, rfl, rfl, by decide,
    rfl, fun hu => ?_⟩
  cases hu
  case unchanged hs   => exact absurd hs (by decide)
  case upgrade hn _ _ _ _ => cases hn
