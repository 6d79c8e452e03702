import BillingEngine.Execution.Inputs
import BillingEngine.Execution.Serial
import BillingEngine.Properties.Edits

open Sessions StripeWebhookHandler

-- Other numbers for the subscriptions that are not in `db`. They are drawn from a sequence when a
-- checkout is flushed, whether or not it is committed afterwards, so that they do not follow from
-- the order of the commits.
structure Database.Numbering (db : Database) where
  number    : Nat → Nat
  injective : number.Injective
  fixes     : ∀ s ∈ db.subscriptions, number s.id = s.id

namespace Database.Numbering

def refl (db : Database) : db.Numbering where
  number      := id
  injective   := Function.injective_id
  fixes _ _   := rfl

variable {db : Database}

def result (n : db.Numbering) : WebhookResult → WebhookResult
  | .subscriptionUpdated id  => .subscriptionUpdated (n.number id)
  | .subscriptionCanceled id => .subscriptionCanceled (n.number id)
  | result                   => result

-- The rows of `db'` in the numbering. The sequence itself is left as it is in `db''`.
def rows (n : db.Numbering) (db' db'' : Database) : Database :=
  { db' with
    subscriptions      := db'.subscriptions.map fun s => { s with id := n.number s.id }
    nextSubscriptionId := db''.nextSubscriptionId }

@[simp]
theorem refl_result {result : WebhookResult} : (refl db).result result = result := by
  cases result <;> rfl

@[simp]
theorem refl_rows {db' : Database} : (refl db).rows db' db' = db' := by
  simp [rows, refl]

end Database.Numbering

namespace WebhookEvent

-- The plan type that an event is going to give to a tenant.
inductive Sets (db : Database) (event : WebhookEvent) (tenantId : Uuid) : PlanType → Prop
  | pro {customer tenant} (ht : dispatch event.type = some .checkoutCompleted)
    (hj : (checkoutCustomer event).text = .ok customer)
    (hc : getTenantByCustomerId db customer = .ok (some tenant)) (hi : tenant.id = tenantId) :
    Sets db event tenantId .pro
  | free {s} (hl : Webhook.Loads db event s) (hi : s.tenantId = tenantId) :
    Sets db event tenantId .free

-- An event which has been read for its effects can not be handled as planned after the other one.
inductive Clashes (db : Database) (event event' : WebhookEvent) : Prop
  | subscription {id} (hc : event.Concerns id) (hn : event'.Names id) : Clashes db event event'
  | plan {tenantId planType planType'} (hs : event.Sets db tenantId planType)
    (hs' : event'.Sets db tenantId planType') (hne : planType ≠ planType') : Clashes db event event'

variable {db : Database} {id id' customer stripeId stripeId' : String}

theorem checkout_not_clashes (h : ∀ tenant s,
    getTenantByCustomerId db customer = .ok (some tenant) →
    getSubscription db stripeId' = .ok (some s) → tenant.id ≠ s.tenantId) :
    ¬(checkout id customer stripeId).Clashes db (deleted id' stripeId') := by
  rintro (⟨hc, _⟩ | ⟨hs, hs', hne⟩)
  · exact absurd hc.left <| by simp [checkout, dispatch]
  · cases hs <;> cases hs'
    case pro.pro   => exact hne rfl
    case free.free => exact hne rfl
    case free.pro hl _ _ _ _ _ _ _ => exact absurd hl.left <| by simp [checkout, dispatch]
    case pro.free hj hc hi _ hl hi' =>
      cases hj
      obtain ⟨_, _, ⟨⟩, hs⟩ := hl
      exact h _ _ hc hs <| hi.trans hi'.symm

end WebhookEvent

namespace StripeWebhookHandler

variable {db db' : Database} {event event' : WebhookEvent} {now : Instant} {e e' : Edit}
  {result : WebhookResult} {m : ProcessedWebhook} {work work' : UnitOfWork}
  {write : Option SubscriptionWrite} {c : Uuid × PlanType}

-- A tenant is found under its customer, whatever else has changed.
theorem getTenant_modify {customer : Option String} {id : Uuid} {f : Tenant → Tenant}
    (ht : db'.tenants = Rows.modify Tenant.id id f db.tenants) (hi : ∀ t, (f t).id = t.id)
    (hc : ∀ t, (f t).stripeCustomerId = t.stripeCustomerId) :
    Option.map Tenant.id <$> getTenantByCustomerId db' customer =
      Option.map Tenant.id <$> getTenantByCustomerId db customer := by
  have hf : db'.tenants.filter (·.stripeCustomerId = customer) =
      Rows.modify Tenant.id id f (db.tenants.filter (·.stripeCustomerId = customer)) := by
    rw [ht]
    exact Rows.filter_modify_iff fun t => by rw [hc]
  rw [getTenantByCustomerId, hf, getTenantByCustomerId, ← scalarOneOrNone_map,
    ← scalarOneOrNone_map, Rows.modify_map hi]

theorem handle_checkout_congr (ht : dispatch event.type = some .checkoutCompleted)
    (hc : ∀ customer, Option.map Tenant.id <$> getTenantByCustomerId db' customer =
      Option.map Tenant.id <$> getTenantByCustomerId db customer)
    (hp : db'.plans = db.plans) (h : handle db event now = .ok (work, result)) :
    ∃ planType, handle db' event now = .ok ({ work with planType }, result) := by
  simp only [handle, ht, handleCheckoutCompleted, Except.bind_eq_ok] at h ⊢
  obtain ⟨obj, ho, j, hj, customer, htext, sub, hsub, tenant?, htenant, h⟩ := h
  obtain ⟨tenant?', htenant', hid⟩ := Except.map_eq_ok.mp <| (hc customer).trans <|
    Except.map_eq_ok.mpr ⟨tenant?, htenant, rfl⟩
  cases tenant?
  case none =>
    cases Option.map_eq_none_iff.mp hid
    cases h
    exact ⟨_, obj, ho, j, hj, customer, htext, sub, hsub, none, htenant', rfl⟩
  case some tenant =>
    obtain ⟨tenant', rfl, hid'⟩ := Option.map_eq_some_iff.mp hid
    simp only [Except.bind_eq_ok] at h
    obtain ⟨price, hprice, plan?, hplan, h⟩ := h
    have hplan' : getPlanByStripePrice db' price = .ok plan? := by
      rwa [getPlanByStripePrice, hp, ← getPlanByStripePrice]
    cases plan?
    case none =>
      cases h
      exact ⟨none, obj, ho, j, hj, customer, htext, sub, hsub, tenant', htenant',
        Except.bind_eq_ok.mpr ⟨price, hprice, Except.bind_eq_ok.mpr ⟨none, hplan', rfl⟩⟩⟩
    case some plan =>
      cases h
      refine ⟨UnitOfWork.setPlanType tenant' .pro, obj, ho, j, hj, customer, htext, sub, hsub,
        tenant', htenant',
        Except.bind_eq_ok.mpr ⟨price, hprice, Except.bind_eq_ok.mpr ⟨plan, hplan', ?_⟩⟩⟩
      simp only [hid']
      rfl

-- A flush depends on the Stripe ids which are in use.
theorem flushSubscription_imp (h : flushSubscription db work = .ok write)
    (hi : work'.insert = work.insert) (hu : work'.update = work.update)
    (hc : ∀ row stripeId, write = some (.insert row <| some stripeId) → ¬db'.Claimed stripeId) :
    flushSubscription db' work' = .ok write := by
  unfold flushSubscription at h ⊢
  rw [hi, hu]
  split at h
  case h_1 => exact h
  case h_2 row _ =>
    obtain ⟨id, hb, h⟩ := Except.bind_eq_ok.mp h
    split at h <;> cases h
    refine Except.bind_eq_ok.mpr ⟨id, hb, if_neg ?_⟩
    rintro ⟨hs, hm⟩
    obtain ⟨stripeId, rfl⟩ := Option.isSome_iff_exists.mp hs
    exact hc row stripeId rfl hm

-- What an edit depends on.
theorem edit_congr (hc : ∀ customer, Option.map Tenant.id <$> getTenantByCustomerId db' customer =
      Option.map Tenant.id <$> getTenantByCustomerId db customer)
    (hp : db'.plans = db.plans)
    (hs : ∀ id, event.Concerns id → getSubscription db' id = getSubscription db id)
    (hf : ∀ row stripeId, e = .insert row (some stripeId) → ¬db'.Claimed stripeId)
    (h : edit db event now = .ok (e, result)) : edit db' event now = .ok (e, result) := by
  unfold edit at h ⊢
  split at h
  case h_1 => exact h
  case h_2 ht =>
    simp only [Except.bind_eq_ok] at h
    obtain ⟨⟨work, _⟩, hh, write, hw, h⟩ := h
    obtain ⟨planType, hh'⟩ := handle_checkout_congr ht hc hp hh
    have hw' : flushSubscription db' { work with planType } = .ok write := by
      refine flushSubscription_imp hw rfl rfl ?_
      rintro row stripeId rfl
      cases h
      exact hf row stripeId rfl
    simp only [hh', hw', bind, Except.bind]
    exact h
  case h_3 ht =>
    obtain ⟨id, hi, h⟩ := Except.bind_eq_ok.mp h
    exact Except.bind_eq_ok.mpr ⟨id, hi, by rw [hs id ⟨.inl ht, hi⟩]; exact h⟩
  case h_4 ht =>
    obtain ⟨id, hi, h⟩ := Except.bind_eq_ok.mp h
    exact Except.bind_eq_ok.mpr ⟨id, hi, by rw [hs id ⟨.inr ht, hi⟩]; exact h⟩

theorem edit_sets (h : edit db event now = .ok (e, result)) (hc : e.planType = some c) :
    event.Sets db c.1 c.2 := by
  cases Edits.of_edit h <;> cases hc
  case cancel ht hi hs      => exact .free ⟨ht, _, hi, hs⟩ rfl
  case insert ht _ hj hc hr => exact .pro ht hj hc hr.symm

variable {pt : Option (Uuid × PlanType)}

-- What a delivery is going to commit is what its event does to the database.
def Prepared (db : Database) (event : WebhookEvent) (now : Instant) (pt : Option (Uuid × PlanType))
    (write : Option SubscriptionWrite) (result : WebhookResult) : Prop :=
  ∃ e, edit db event now = .ok (e, result) ∧ e.Flushed db pt write

theorem Prepared.handleEvent (h : Prepared db event now pt write result) (hw : db.WellFormed)
    (hu : db.Unique) (hm : marker event = .ok m) (hp : ¬db.Processed event.id) :
    handleEvent db event now = (.ok result, db.applyWebhook m pt write) := by
  obtain ⟨e, he, hf⟩ := h
  rw [handleEvent_outcome hw hu, hf.applyWebhook hw]
  simp only [outcome, hm, hp, he, if_false, Option.elim_some]

end StripeWebhookHandler

-- What the event looks at is the same in both databases.
structure WebhookEvent.Unaffected (event : WebhookEvent) (db db' : Database) : Prop where
  customers     : ∀ customer, Option.map Tenant.id <$> getTenantByCustomerId db' customer =
    Option.map Tenant.id <$> getTenantByCustomerId db customer
  plans         : db'.plans = db.plans
  subscriptions : ∀ id, event.Concerns id → getSubscription db' id = getSubscription db id
  planTypes     : ∀ tenantId planType, event.Sets db tenantId planType → ∀ t' ∈ db'.tenants,
    t'.id = tenantId → t'.planType = planType ∨
      ∃ t ∈ db.tenants, t.id = tenantId ∧ t'.planType = t.planType

namespace WebhookEvent.Unaffected

variable {event event' : WebhookEvent} {db db' : Database} {now : Instant} {e : Edit}
  {result : WebhookResult} {m : ProcessedWebhook}

theorem of_eq (ht : db'.tenants = db.tenants) (hp : db'.plans = db.plans)
    (hs : db'.subscriptions = db.subscriptions) : event.Unaffected db db' where
  customers _       := by rw [getTenantByCustomerId, ht, ← getTenantByCustomerId]
  plans             := hp
  subscriptions _ _ := by rw [getSubscription, hs, ← getSubscription]
  planTypes _ _ _ t' hm hi := .inr ⟨t', ht ▸ hm, hi, rfl⟩

theorem setTenantStatus {id : Uuid} {status : TenantStatus} : event.Unaffected db { db with
    tenants := Rows.modify Tenant.id id ({ · with status }) db.tenants } where
  customers _       := getTenant_modify rfl (fun _ => rfl) (fun _ => rfl)
  plans             := rfl
  subscriptions _ _ := rfl
  planTypes tenantId _ _ t' hm hi := by
    obtain ⟨t, ht, rfl⟩ := Rows.mem_modify.mp hm
    refine .inr ⟨t, ht, ?_, ?_⟩
    · split at hi <;> exact hi
    · split <;> rfl

-- An event is unaffected by others which it does not clash with.
theorem apply (h : edit db event' now = .ok (e, result)) (hc : ¬event.Clashes db event') :
    event.Unaffected db (e.apply db m) := by
  have ht : (e.apply db m).tenants = _ := e.tenants_eq
  constructor
  case plans => rfl
  case subscriptions =>
    exact fun id hi => getSubscription_apply (edit_by h) fun hn => hc <| .subscription hi hn
  case customers =>
    intro customer
    cases he : e.planType <;> rw [he] at ht
    case none   => rw [getTenantByCustomerId, ht]; rfl
    case some c => exact getTenant_modify ht (fun _ => rfl) (fun _ => rfl)
  case planTypes =>
    intro tenantId planType hs t' hm hi
    cases he : e.planType <;> rw [he] at ht <;> rw [ht] at hm
    case none   => exact .inr ⟨t', hm, hi, rfl⟩
    case some c =>
      obtain ⟨t, hmem, rfl⟩ := Rows.mem_modify.mp hm
      by_cases hid : t.id = c.1
      case neg => rw [if_neg hid] at hi ⊢; exact .inr ⟨t, hmem, hi, rfl⟩
      case pos =>
        rw [if_pos hid] at hi ⊢
        left
        by_contra hne
        have hs' := edit_sets h he
        exact hc <| .plan hs ((hid.symm.trans hi) ▸ hs') (Ne.symm hne)

theorem loads (h : event.Unaffected db db') {s : Subscription} (hl : Webhook.Loads db event s) :
    Webhook.Loads db' event s := by
  obtain ⟨ht, id, hi, hs⟩ := hl
  exact ⟨ht, id, hi, (h.subscriptions id ⟨.inr ht, hi⟩).trans hs⟩

theorem prepared (h : event.Unaffected db db') {pt : Option (Uuid × PlanType)}
    {write : Option SubscriptionWrite}
    (hf : ∀ row stripeId, write = some (.insert row <| some stripeId) → ¬db'.Claimed stripeId)
    (hp : Prepared db event now pt write result) : Prepared db' event now pt write result := by
  obtain ⟨e, he, hpt, hw⟩ := hp
  refine ⟨e, edit_congr h.customers h.plans h.subscriptions ?insert he, ?plan, ?write⟩
  case insert => rintro row stripeId rfl; exact hf row stripeId hw
  case plan   => exact hpt.congr fun c hc => h.planTypes c.1 c.2 <| edit_sets he hc
  case write  =>
    cases e <;> simp only [Edit.Writes] at hw ⊢
    case write id c _ =>
      cases edit_by he
      case write hc _ => rwa [h.subscriptions id hc]
    all_goals exact hw

end WebhookEvent.Unaffected

namespace Webhook

-- A delivery which has read what its event looks at is going to do what it would do now.
def Phase.Current (db : Database) (now : Instant) (event : WebhookEvent) : Phase → Prop
  | marked m     => marker event = .ok m
  | deleting m s => marker event = .ok m ∧ Loads db event s
  | flushingTenant m work result | flushingSubscription m work result => marker event = .ok m ∧
    ∀ write, StripeWebhookHandler.flushSubscription db work = .ok write →
      Prepared db event now work.planType write result
  | committing m pt write result => marker event = .ok m ∧ Prepared db event now pt write result
  | skipping => (∃ m, marker event = .ok m) ∧ db.Processed event.id
  | _        => True

-- The answer that a step gives.
def Phase.answer (event : WebhookEvent) : Phase → Action → Option WebhookResult
  | committing _ _ _ result, .commit => some result
  | skipping, .rollback              => some (.duplicateIgnored event.id)
  | _, _                             => none

variable {db db' : Database} {i : Inputs} {event : WebhookEvent} {p p' : Phase} {a : Action}
  {e : Effect Resource Write}

theorem Next.current (h : Next db event p a p' e) (hu : db.Unique) (ha : i.Allows (.webhook a))
    (hc : p.Current db i.now event) : p'.Current db i.now event := by
  cases h <;> simp only [Phase.Current] at hc ⊢
  case duplicate hm hp        => exact ⟨⟨_, hm⟩, marker_eventId hm ▸ hp⟩
  case mark hm _              => exact hm
  case handle now _ _ hh _    => exact ⟨hc, fun _ => edit_of_flush hu <| (ha : now = _) ▸ hh⟩
  case load hl                => exact ⟨hc, hl⟩
  case flushTenant            => exact hc
  case flushSubscription hw   => exact ⟨hc.left, hc.right _ hw⟩
  case getTenant ht =>
    subst ht
    have hh : StripeWebhookHandler.handle db event i.now = _ := hc.right.handle
    exact ⟨hc.left, fun _ => edit_of_flush hu hh⟩

theorem Next.answer {result : WebhookResult} (h : Next db event p a p' e) :
    p.answer event a = some result ↔ p' = .answered result := by
  cases h
  case raise => cases p <;> simp [Phase.answer]
  all_goals simp [Phase.answer]

theorem Phase.Current.congr {now : Instant} (h : p.Current db now event)
    (ha : p.decided → event.Unaffected db db')
    (hp : db.Processed event.id → db'.Processed event.id)
    (hc : ∀ stripeId, db.Claimed stripeId → db'.Claimed stripeId)
    (hf : ∀ m pt row stripeId result,
      p = committing m pt (some <| .insert row <| some stripeId) result → ¬db'.Claimed stripeId) :
    p.Current db' now event := by
  cases p <;> simp only [Current] at h ⊢
  case marked   => exact h
  case deleting => exact ⟨h.left, ha rfl |>.loads h.right⟩
  case flushingTenant | flushingSubscription =>
    refine ⟨h.left, fun write hw => ?_⟩
    have hn row stripeId (he : write = some (.insert row <| some stripeId)) :
        ¬db'.Claimed stripeId := flushSubscription_insert <| he ▸ hw
    have hw' := flushSubscription_imp hw rfl rfl fun row stripeId he hcl =>
      hn row stripeId he <| hc stripeId hcl
    exact ha rfl |>.prepared hn <| h.right write hw'
  case committing =>
    refine ⟨h.left, ha rfl |>.prepared ?_ h.right⟩
    rintro row stripeId rfl
    exact hf _ _ row stripeId _ rfl
  case skipping => exact ⟨h.left, hp h.right⟩

end Webhook

namespace Execution

-- A delivery is committed only while no other one has read what it is going to change, and tenants
-- are created and linked only while no delivery is being handled.
def Apart (s : State) : Label → Prop
  | .act id (.webhook .commit) => ∀ ⦃event' p'⦄, s.session id = some (.webhook event' p') →
    ∀ ⦃id' event p⦄, id' ≠ id → s.session id' = some (.webhook event p) → p.decided →
      ¬event.Clashes s.db event'
  | .env (.setTenantStatus ..) => True
  | .env _ => ∀ ⦃id event p⦄, s.session id = some (.webhook event p) → p.decided = false
  | _ => True

-- What a run does to the database, besides the answers to its deliveries: usage requests are
-- committed, and other operations are performed.
inductive Entry
  | delivery (id : Uuid) (event : WebhookEvent) (result : WebhookResult)
  | usage (event : UsageEvent) (record : IdempotencyRecord)
  | operation (op : Operation)

def Entry.renumber {db : Database} (n : db.Numbering) : Entry → Entry
  | delivery id event result => delivery id event (n.result result)
  | entry                    => entry

@[simp]
theorem Entry.renumber_refl {db : Database} : Entry.renumber (.refl db) = id := by
  funext entry
  cases entry <;> simp [renumber]

-- The entry that a step adds, if it adds one.
def State.entries (s : State) : Label → List Entry
  | .act id (.webhook a) =>
    match s.session id with
    | some (.webhook event p) => p.answer event a |>.toList.map (.delivery id event)
    | _                       => []
  | .act id (.usage .commit) =>
    match s.session id with
    | some (.usage _ <| .committing _ _ event record) => [.usage event record]
    | _                                               => []
  | .env op => [.operation op]
  | _       => []

abbrev Apart.Path : State × List Entry → List Label → State × List Entry → Prop :=
  Transition.Path (Transition.logged engine.step State.entries) fun t => Apart t.1

-- The runs in which the sessions read the given inputs.
abbrev Apart.Reading (inputs : Uuid → Inputs) : State → State → Prop :=
  Transition.Reach engine.step fun s l => Apart s l ∧ Reads inputs l

variable {db : Database} {inputs : Uuid → Inputs} {s s' : State} {l : Label}

theorem Step.claimed_mono {stripeId : String} (h : Step s l s') (hc : s.db.Claimed stripeId) :
    s'.db.Claimed stripeId := by
  rw [Database.claimed_iff] at hc ⊢
  exact hc.imp fun _ hm => h.stripeIds.subset hm

-- Every delivery stays up to date.
theorem delivery_current (hw : db.WellFormed) (hu : db.Unique)
    (h : Apart.Reading inputs (.boot db) s) {id event p}
    (hs : s.session id = some (.webhook event p)) : p.Current s.db (inputs id).now event := by
  refine h.invariant_of (I := fun s => ∀ id event p, s.session id = some (.webhook event p) →
    p.Current s.db (inputs id).now event) (J := engine.Reach (.boot db)) (·.weaken) ?init ?step
    id event p hs
  case init => simp [Sessions.State.boot]
  case step =>
    intro s l s' hr hi hok hst id event p hs'
    have hr' := hr.tail trivial hst
    replace hst := Step.of_step hst
    rcases hst.webhook_session hs' with ⟨ht, hs⟩ | ⟨rfl, _⟩ | ⟨p₀, a, e, rfl, hs, hn, hd⟩
    case inr.inl => trivial
    case inr.inr =>
      cases hn.writes
      case commit   => trivial
      case none hwr => rw [hd, hwr]; exact hn.current (unique hu hr) hok.right <| hi _ _ _ hs
    case inl =>
      refine (hi _ _ _ hs).congr ?_ hst.processed_mono (fun _ => hst.claimed_mono) ?_
      case refine_2 =>
        rintro m pt row stripeId result rfl
        exact committing_unclaimed hr' hs'
      case refine_1 =>
        intro hp
        cases hst.commits
        case none hd  => exact .of_eq (by rw [hd]) (by rw [hd]) (by rw [hd])
        case usage hd => exact .of_eq (by rw [hd]; rfl) (by rw [hd]; rfl) (by rw [hd]; rfl)
        case operation op ho =>
          cases op
          case setTenantStatus => exact Option.some.inj ho ▸ .setTenantStatus
          all_goals exact absurd hp <| by simp [hok.left hs]
        case webhook id' event' m pt w r hs₀ hd _ =>
          obtain ⟨hm, e, he, hf⟩ := hi _ _ _ hs₀
          rw [hd, hf.applyWebhook (wellFormed hw hr)]
          have hne : id ≠ id' := by
            rintro rfl
            exact ht rfl
          exact .apply he <| hok.left hs₀ hne hs hp

-- Deliveries that are served one after another, with what else changes the database in between.
inductive Served (inputs : Uuid → Inputs) (db : Database) : List Entry → Database → Prop
  | nil : Served inputs db [] db
  | deliver {log db₁ id event result db₂} (h : Served inputs db log db₁)
    (hd : handleEvent db₁ event (inputs id).now = (.ok result, db₂)) :
    Served inputs db (log ++ [.delivery id event result]) db₂
  | usage {log db₁ event record} (h : Served inputs db log db₁) :
    Served inputs db (log ++ [.usage event record]) ((Write.usage event record).apply db₁)
  | operation {log db₁ db₂ op} (h : Served inputs db log db₁) (ho : op.apply db₁ = some db₂) :
    Served inputs db (log ++ [.operation op]) db₂

theorem State.entries_usage {id a} (ha : a ≠ .commit) :
    s.entries (.act id <| .usage a) = [] := by
  cases a <;> first | rfl | exact absurd rfl ha

theorem State.entries_commit {id request skipped check event record}
    (hs : s.session id = some (.usage request <| .committing skipped check event record)) :
    s.entries (.act id <| .usage .commit) = [.usage event record] := by
  simp only [State.entries, hs]

-- The answer to a delivery is the one of the sequential code, and other steps change nothing.
theorem Apart.serves (hw : db.WellFormed) (hu : db.Unique)
    (h : Apart.Reading inputs (.boot db) s) {id event p a p' e}
    (hs : s.session id = some (.webhook event p)) (hn : Webhook.Next s.db event p a p' e) :
    p.answer event a = none ∧ engine.write e s.db = s.db ∨
    ∃ result, p.answer event a = some result ∧
      handleEvent s.db event (inputs id).now = (.ok result, engine.write e s.db) := by
  have hc := delivery_current hw hu h hs
  cases hr : p.answer event a
  case none =>
    cases hn.writes
    case none hwr => exact .inl ⟨rfl, hwr _⟩
    case commit   => cases hr
  case some result =>
    refine .inr ⟨result, rfl, ?_⟩
    rcases hn.answer.mp hr with rfl
    cases hn
    case commit =>
      exact hc.right.handleEvent (wellFormed hw h.weaken) (unique hu h.weaken) hc.left <|
        committing_unprocessed h.weaken hs
    case skip =>
      obtain ⟨⟨m, hm⟩, hp⟩ := hc
      exact Delivers.duplicate hm hp |>.eq

theorem Step.served {log} (hw : db.WellFormed) (hu : db.Unique)
    (h : Apart.Reading inputs (.boot db) s) (hst : Step s l s')
    (hs : Served inputs db log s.db) : Served inputs db (log ++ s.entries l) s'.db := by
  have quiet (ha : s.entries l = []) (hs : Served inputs db log s'.db) :
      Served inputs db (log ++ s.entries l) s'.db := by
    rwa [ha, List.append_nil]
  cases hst
  case receive      => exact quiet rfl hs
  case deliver      => exact quiet rfl hs
  case operation ho => exact hs.operation ho
  case usage hp hn _ =>
    cases hn.writes
    case none ha hwr =>
      exact quiet (State.entries_usage ha) <| by rwa [Program.perform, hwr]
    case commit =>
      rw [State.entries_commit hp]
      exact hs.usage
  case webhook id event p a p' e hp hn _ =>
    have ha : s.entries (.act id <| .webhook a) =
        (p.answer event a).toList.map (.delivery id event) := by
      simp only [State.entries, hp]
    rcases Apart.serves hw hu h hp hn with ⟨hr, hwr⟩ | ⟨result, hr, hd⟩
    · exact quiet (by rw [ha, hr]; rfl) <| by rwa [Program.perform, hwr]
    · rw [ha, hr]
      exact hs.deliver hd

theorem path_served (hw : db.WellFormed) (hu : db.Unique) {as t}
    (h : Apart.Path (.boot db, []) as t) (hi : ∀ l ∈ as, Reads inputs l) :
    Served inputs db t.2 t.1.db := by
  induction h
  case nil => exact .nil
  case snoc h _ hst hs =>
    obtain ⟨hi, _⟩ := List.forall_mem_append.mp hi
    obtain ⟨hst, hlog⟩ := Transition.logged_some.mp hst
    have hr : Apart.Reading inputs (.boot db) _ := (h.unlogged.and_all hi).reach
    exact hlog ▸ (Step.of_step hst).served hw hu hr (hs hi)

-- Every answer is in the log.
theorem answered_logged {t} (h : Transition.Reach (Transition.logged engine.step State.entries)
      Transition.always (.boot db, []) t) {id event result}
    (hs : t.1.session id = some (.webhook event <| .answered result)) :
    .delivery id event result ∈ t.2 := by
  induction h
  case refl => cases hs
  case tail t t' l h _ hst hi =>
    obtain ⟨hst, hlog⟩ := Transition.logged_some.mp hst
    replace hst := Step.of_step hst
    rw [hlog, List.mem_append]
    rcases hst.webhook_session hs with ⟨_, hs⟩ | ⟨hp, _⟩ | ⟨p, a, e, rfl, hs, hn, _⟩
    case inl     => exact .inl <| hi hs
    case inr.inl => cases hp
    case inr.inr => exact .inr <| by simp [State.entries, hs, hn.answer.mpr rfl]

-- Concurrent deliveries are answered, and leave the database behind, as if each of them had been
-- handled at once when it was answered, up to the numbers of new subscriptions.
theorem deliveries_served (hw : db.WellFormed) (hu : db.Unique) {as t}
    (h : Apart.Path (.boot db, []) as t) :
    ∃ inputs, (∀ l ∈ as, Reads inputs l) ∧
      (∃ (n : db.Numbering) (log : List Entry) (db' : Database), Served inputs db log db' ∧
        t.2 = log.map (.renumber n) ∧ t.1.db = n.rows db' t.1.db) ∧
      ∀ id event result, t.1.session id = some (.webhook event <| .answered result) →
        .delivery id event result ∈ t.2 := by
  obtain ⟨inputs, hi⟩ := exists_inputs h.unlogged
  refine ⟨inputs, hi, ⟨.refl db, t.2, t.1.db, path_served hw hu h hi, by simp, by simp⟩, ?_⟩
  exact fun _ _ _ => answered_logged h.reach.weaken

-- A subscription is deleted after a checkout of another tenant has been read, and before it is
-- committed.
theorem deliveries_served_overlap : ∃ (db : Database) (inputs : Uuid → Inputs)
    (t : State × List Entry) (n : db.Numbering) (log : List Entry) (db' : Database),
    t.2 = [.delivery 20 (.deleted "evt_1" "sub_2") (.subscriptionCanceled 1),
      .delivery 21 (.checkout "evt_2" "cus" "sub") (.subscriptionCreated 1)] ∧
    Served inputs db log db' ∧ t.2 = log.map (.renumber n) ∧ t.1.db = n.rows db' t.1.db := by
  let db : Database := { Database.migrated Plan.seeds with
    tenants            :=
      [⟨1, "acme", .free, some "cus", .active⟩, ⟨2, "umbrella", .pro, some "cus_2", .active⟩]
    subscriptions      := [⟨1, 2, some "sub_2", 2, .active, 0, 10⟩]
    nextSubscriptionId := 2 }
  let step := Transition.logged engine.step State.entries
  let as : List Label := [.start 20 <| .webhook (.deleted "evt_1" "sub_2") .received,
    .start 21 <| .webhook (.checkout "evt_2" "cus" "sub") .received,
    .act 20 <| .webhook .insertMarker, .act 21 <| .webhook .insertMarker,
    .act 20 <| .webhook <| .handle 1, .act 21 <| .webhook <| .handle 2,
    .act 20 <| .webhook .getTenant, .act 20 <| .webhook .flushTenant,
    .act 20 <| .webhook .flushSubscription]
  let as' : List Label := [.act 21 <| .webhook .flushTenant, .act 21 <| .webhook .flushSubscription]
  have h₁ : Transition.run step (.boot db, []) as |>.isSome := rfl
  let t₁ := (Transition.run step (.boot db, []) as).get h₁
  have h₂ : Transition.run step t₁ [.act 20 <| .webhook .commit] |>.isSome := rfl
  let t₂ := (Transition.run step t₁ [.act 20 <| .webhook .commit]).get h₂
  have h₃ : Transition.run step t₂ as' |>.isSome := rfl
  let t₃ := (Transition.run step t₂ as').get h₃
  have h₄ : Transition.run step t₃ [.act 21 <| .webhook .commit] |>.isSome := rfl
  let t := (Transition.run step t₃ [.act 21 <| .webhook .commit]).get h₄
  have hr₁ : Apart.Path (.boot db, []) as t₁ :=
    .of_run_all (Option.some_get h₁).symm <| by simp [as, Apart]
  have hr₃ : Apart.Path t₂ as' t₃ := .of_run_all (Option.some_get h₃).symm <| by simp [as', Apart]
  have hids {id session} (hs : t₁.1.session id = some session) : id = 20 ∨ id = 21 := by
    rcases session_of_run (Transition.run_logged (Option.some_get h₁).symm) hs with hs | ⟨l, hm, hl⟩
    · cases hs
    · simp only [as, List.mem_cons, List.not_mem_nil, or_false] at hm
      rcases hm with rfl | rfl | rfl | rfl | rfl | rfl | rfl | rfl | rfl <;> cases hl <;> simp
  have hr₂ : Apart.Path t₁ [.act 20 <| .webhook .commit] t₂ := by
    refine .single ?_ rfl
    intro event' p' hs' id event p hne hs _
    obtain rfl := (hids hs).resolve_left hne
    cases hs'
    cases hs
    refine WebhookEvent.checkout_not_clashes ?_
    rintro _ _ ⟨⟩ ⟨⟩
    decide
  have hr₄ : Apart.Path t₃ [.act 21 <| .webhook .commit] t := by
    refine .single ?_ rfl
    intro event' p' _ id event p hne hs hp
    rcases session_of_run (Transition.run_logged (Option.some_get h₃).symm) hs with
      hs₂ | ⟨l, hm, hl⟩
    case inr =>
      simp only [as', List.mem_cons, List.not_mem_nil, or_false] at hm
      rcases hm with rfl | rfl <;> cases hl <;> exact absurd rfl hne
    case inl =>
      obtain rfl : id = 20 := by
        rcases session_of_run (Transition.run_logged (Option.some_get h₂).symm) hs₂ with
          hs₁ | ⟨l, hm, hl⟩
        · exact (hids hs₁).resolve_right hne
        · cases List.mem_singleton.mp hm
          cases hl
          rfl
      cases hs₂
      cases hp
  have hw : db.WellFormed := ⟨by simp [db], by simp [db]⟩
  have hu : db.Unique :=
    ⟨by simp [db], by simp [db], by simp [db, Database.migrated, Plan.seeds], by simp [db]⟩
  obtain ⟨inputs, _, ⟨n, log, db', hs, hlog, hdb⟩, _⟩ :=
    deliveries_served hw hu <| hr₁.trans <| hr₂.trans <| hr₃.trans hr₄
  exact ⟨db, inputs, t, n, log, db', rfl, hs, hlog, hdb⟩

end Execution
