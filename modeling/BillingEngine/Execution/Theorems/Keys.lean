import BillingEngine.Execution.Theorems.Statuses

open Sessions StripeWebhookHandler

-- What the unique keys of the tables protect.

namespace Database

-- The row of a Stripe subscription exists.
def Claimed (db : Database) (stripeId : String) : Prop :=
  ∃ sub ∈ db.subscriptions, sub.stripeSubscriptionId = some stripeId

instance {db : Database} {stripeId : String} : Decidable (db.Claimed stripeId) :=
  inferInstanceAs <| Decidable (∃ sub ∈ db.subscriptions, sub.stripeSubscriptionId = some stripeId)

-- The rows of a Stripe subscription.
def stripeRows (db : Database) (stripeId : String) : List Subscription :=
  db.subscriptions.filter (·.stripeSubscriptionId = some stripeId)

-- The primary key of `tenants`, and the `UNIQUE` columns.
structure Unique (db : Database) : Prop where
  tenants   : db.tenants.map (·.id) |>.Nodup
  customers : db.tenants.filterMap (·.stripeCustomerId) |>.Nodup
  plans     : db.plans.map (·.name) |>.Nodup
  stripe    : db.subscriptions.filterMap (·.stripeSubscriptionId) |>.Nodup

theorem Unique.migrated {plans : List Plan} (hp : plans.map (·.name) |>.Nodup) :
    (Database.migrated plans).Unique where
  tenants   := by simp [Database.migrated]
  customers := by simp [Database.migrated]
  plans     := hp
  stripe    := by simp [Database.migrated]

variable {db db' : Database} {m : ProcessedWebhook} {pt : Option (Uuid × PlanType)}
  {write : Option SubscriptionWrite} {stripeId : String} {sub : Subscription}

theorem Unique.rows (h : db.Unique) (hm : sub ∈ db.subscriptions)
    (hi : sub.stripeSubscriptionId = some stripeId) : db.stripeRows stripeId = [sub] :=
  Rows.filter_unique h.stripe hm hi

theorem claimed_iff : db.Claimed stripeId ↔ ∃ row, (row, some stripeId) ∈ db.stripeIds := by
  simp only [Claimed, stripeIds, List.mem_map, Prod.mk.injEq]
  constructor
  case mp  => rintro ⟨sub, hm, hi⟩; exact ⟨_, sub, hm, rfl, hi⟩
  case mpr => rintro ⟨_, sub, hm, _, hi⟩; exact ⟨sub, hm, hi⟩

-- The column `stripe_subscription_id` after the commit of a delivery.
theorem applyWebhook_stripe :
    (db.applyWebhook m pt write).subscriptions.filterMap (·.stripeSubscriptionId) =
      db.subscriptions.filterMap (·.stripeSubscriptionId) ++
        match write with
        | some (.insert _ (some stripeId)) => [stripeId]
        | _                                => [] := by
  rw [applyWebhook_subscriptions]
  rcases write with _ | ⟨_, _ | _⟩ | _
  case none             => simp
  case some.insert.none => simp [writeSubscription, NewSubscription.inserted]
  case some.insert.some => simp [writeSubscription, NewSubscription.inserted]
  case some.update      =>
    rw [List.append_nil]
    exact Rows.filterMap_modify fun _ => rfl

theorem claimed_applyWebhook (h : (db.applyWebhook m pt write).Claimed stripeId) :
    db.Claimed stripeId ∨ ∃ row, write = some (.insert row <| some stripeId) := by
  have hm : stripeId ∈ _ := List.mem_filterMap.mpr h
  rw [applyWebhook_stripe, List.mem_append, List.mem_filterMap] at hm
  cases hm
  case inl hm => exact .inl hm
  case inr hm =>
    split at hm
    case h_1 row stripeId' => exact .inr ⟨row, List.mem_singleton.mp hm ▸ rfl⟩
    case h_2               => cases hm

theorem Unique.applyWebhook (h : db.Unique)
    (hw : ∀ row stripeId, write = some (.insert row <| some stripeId) → ¬db.Claimed stripeId) :
    (db.applyWebhook m pt write).Unique where
  tenants := by rw [applyWebhook_tenant_ids]; exact h.tenants
  plans   := by rw [applyWebhook_plans]; exact h.plans
  customers := by
    rw [applyWebhook_tenants]
    cases pt
    case none   => exact h.customers
    case some c =>
      have hc : (Rows.modify Tenant.id c.1 ({ · with planType := c.2 }) db.tenants).filterMap
          (·.stripeCustomerId) = _ := Rows.filterMap_modify fun _ => rfl
      exact hc ▸ h.customers
  stripe := by
    rw [applyWebhook_stripe]
    split
    case h_2 => rw [List.append_nil]; exact h.stripe
    case h_1 row stripeId =>
      refine List.nodup_append.mpr ⟨h.stripe, by simp, ?_⟩
      rintro _ hm _ hm' rfl
      rw [List.mem_singleton] at hm'
      exact hw row stripeId rfl <| hm' ▸ List.mem_filterMap.mp hm

end Database

theorem Operation.unique {op : Operation} {db db' : Database} (h : op.apply db = some db')
    (hu : db.Unique) : db'.Unique := by
  cases Applies.of_apply h
  case createTenant hf h =>
    obtain ⟨_, _, rfl⟩ := Router.createTenant_ok h
    exact ⟨by simpa [List.nodup_append, hu.tenants] using hf, by simpa using hu.customers, hu.plans,
      by simpa using hu.stripe⟩
  case linkCustomer id customer hf =>
    refine ⟨?tenants, ?customers, hu.plans, hu.stripe⟩
    case tenants   => rw [Rows.modify_map (by intro; rfl)]; exact hu.tenants
    case customers => exact Rows.nodup_filterMap_modify hu.tenants hu.customers hf fun _ => rfl
  case setTenantStatus id status =>
    refine ⟨?tenants, ?customers, hu.plans, hu.stripe⟩
    case tenants   => rw [Rows.modify_map (by intro; rfl)]; exact hu.tenants
    case customers => rw [Rows.filterMap_modify (by intro; rfl)]; exact hu.customers

-- The column `stripe_subscription_id` of a new row can get the value.
def Database.Accepts (db : Database) (value : Json) : Prop :=
  value = .null ∨ ∃ stripeId, value = .str stripeId ∧ stripeId.length ≤ 255 ∧ ¬db.Claimed stripeId

namespace StripeWebhookHandler

theorem flushSubscription_isOk {db work row} (hi : work.insert = some row) :
    (∃ write, flushSubscription db work = .ok write) ↔ db.Accepts row.stripeSubscriptionId := by
  simp only [flushSubscription, hi, bindStripeSubscriptionId, Database.Accepts]
  cases row.stripeSubscriptionId
  case null => simp [Json.text, bind, Except.bind, pure, Except.pure]
  case str stripeId =>
    by_cases hl : stripeId.length ≤ 255
    case neg => simp [Json.text, bind, Except.bind, throw, throwThe, MonadExceptOf.throw, hl]
    case pos =>
      by_cases hc : db.Claimed stripeId
      case pos =>
        have hc' : ∃ s ∈ db.subscriptions, s.stripeSubscriptionId = some stripeId := hc
        simp [Json.text, bind, Except.bind, pure, Except.pure, throw, throwThe,
          MonadExceptOf.throw, hl, hc, hc']
      case neg =>
        have hc' : ¬∃ s ∈ db.subscriptions, s.stripeSubscriptionId = some stripeId := hc
        simp [Json.text, bind, Except.bind, pure, Except.pure, hl, hc, hc']
  all_goals simp [Json.text, bind, Except.bind]

theorem flushSubscription_insert {db work row} {stripeId : String}
    (h : flushSubscription db work = .ok (some <| .insert row <| some stripeId)) :
    ¬db.Claimed stripeId := by
  rcases flushSubscription_ok h with ⟨_, hu⟩ | ⟨row, id, hi, ht, hw⟩
  case inl => cases hu' : work.update <;> rw [hu'] at hu <;> cases hu
  case inr =>
    cases hw
    have hj := Json.text_eq_some.mp ht
    rcases flushSubscription_isOk hi |>.mp ⟨_, h⟩ with hn | ⟨_, hs, _, hc⟩
    · cases hj.symm.trans hn
    · cases hj.symm.trans hs
      exact hc

-- The handlers of updates and deletions leave the assignments of the event to the loaded row.
theorem handle_concerns {db event} {now : Instant} {stripeId : String} {sub : Subscription}
    (hc : event.Concerns (some stripeId)) (hr : db.stripeRows stripeId = [sub]) :
    ∃ f : SubscriptionChanges → UnitOfWork × WebhookResult,
      handle db event now = f <$> assignments event ∧ ∀ c, (f c).1.insert = none ∧
        (assignments event = .ok c → (f c).1.update = UnitOfWork.setSubscription sub (c.apply sub))
    := by
  have hs : getSubscription db (some stripeId) = .ok (some sub) := by
    rw [getSubscription, ← Database.stripeRows, hr, scalarOneOrNone]
  rcases hc with ⟨ht | ht, hi⟩
  case inl =>
    refine ⟨fun c => ({ update := UnitOfWork.setSubscription sub (c.apply sub) },
      .subscriptionUpdated sub.id), ?_, fun _ => ⟨rfl, fun _ => rfl⟩⟩
    simp [handle, ht, handleSubscriptionUpdated, hi, hs, updateSubscription_eq ht, bind,
      Except.bind, Functor.map, Except.map, pure, Except.pure]
    cases assignments event <;> rfl
  case inr =>
    refine ⟨fun _ => cancelSubscription sub (db.tenant? sub.tenantId), ?_, fun c => ⟨rfl, ?_⟩⟩
    · simp [handle, ht, handleSubscriptionDeleted, hi, hs, assignments, bind, Except.bind,
        Functor.map, Except.map, pure, Except.pure]
    · intro hc
      simp only [assignments, ht] at hc
      cases hc
      rfl

end StripeWebhookHandler

-- While a delivery holds the key of a Stripe subscription, there is no row of it.

theorem Webhook.Next.stripeKey {db event p a p' e} {stripeId : String}
    (h : Webhook.Next db event p a p' e) (hh : .stripeSubscriptionId stripeId ∈ p'.held) :
    .stripeSubscriptionId stripeId ∈ p.held ∨ ¬db.Claimed stripeId := by
  rw [h.held] at hh
  cases h
  case mark           => simp_all [Effect.held]
  case flushTenant work _ =>
    cases hw : work.planType <;> simp_all [Webhook.acquire, Effect.held]
  case flushSubscription write hw =>
    simp only [Webhook.acquire_held] at hh
    rcases write with _ | ⟨_, _ | _⟩ | _
    case some.insert.some =>
      refine hh.symm.imp_right fun hk => ?_
      obtain rfl : stripeId = _ := by simpa [Webhook.writeLock] using hk
      exact flushSubscription_insert hw
    all_goals simp_all [Webhook.writeLock]
  all_goals simp_all [Effect.held]

namespace Execution

variable {s s' : State} {l : Label} {db : Database} {stripeId : String}

theorem Step.claimed (h : Step s l s') (hc : s'.db.Claimed stripeId) :
    s.db.Claimed stripeId ∨ ∃ id event marker planType row result, l = .act id (.webhook .commit) ∧
      s.session id = some (.webhook event <| .committing marker planType
        (some <| .insert row <| some stripeId) result) := by
  cases h.commits
  case none hd      => exact .inl <| hd ▸ hc
  case usage hd     => exact .inl <| by rwa [hd] at hc
  case operation ho =>
    obtain ⟨sub, hm, hi⟩ := hc
    exact .inl ⟨sub, Operation.mem_stripe ho hm hi, hi⟩
  case webhook hs hd _ =>
    cases Database.claimed_applyWebhook (hd ▸ hc)
    case inl hc => exact .inl hc
    case inr hr =>
      obtain ⟨row, rfl⟩ := hr
      exact .inr ⟨_, _, _, _, _, _, rfl, hs⟩

theorem unclaimed (h : engine.Reach (.boot db) s) {id event p}
    (hs : s.session id = some (.webhook event p)) :
    .stripeSubscriptionId stripeId ∈ p.held → ¬s.db.Claimed stripeId := by
  refine webhook_reach h (I := fun db _ _ p => .stripeSubscriptionId stripeId ∈ p.held →
    ¬db.Claimed stripeId) ?init ?received ?acts ?others hs
  case init     => simp [Sessions.State.boot]
  case received => simp [Webhook.Phase.held]
  case acts =>
    intro s s' id event p a p' e _ _ hn hd _ hi hh
    cases hn.writes
    case none hw => rw [hd, hw]; exact (hn.stripeKey hh).elim hi fun h => h
    case commit  => simp [Webhook.Phase.held] at hh
  case others =>
    intro s s' l id event p hr hst _ ht hs hi hh hc
    rcases hst.claimed hc with hc | ⟨id', event', m, pt, row, r, rfl, hs'⟩
    · exact hi hh hc
    · refine ht <| congrArg some <| (agrees hr).unique (x := .stripeSubscriptionId stripeId)
        hs' hs ?_ ?_
      · simp [holds, Session.held, Webhook.Phase.held, Webhook.writeLock]
      · exact hh

-- An insertion that is committed does not violate the key.
theorem committing_unclaimed (h : engine.Reach (.boot db) s) {id event m pt row r}
    (hs : s.session id = some (.webhook event <|
      .committing m pt (some <| .insert row <| some stripeId) r)) : ¬s.db.Claimed stripeId :=
  unclaimed h hs <| by simp [Webhook.Phase.held, Webhook.writeLock]

theorem unique (hu : db.Unique) (h : engine.Reach (.boot db) s) : s.db.Unique := by
  refine h.invariant_of (I := fun s => s.db.Unique) (J := engine.Reach (.boot db)) id hu ?_
  intro s l s' h hu hok hs
  cases (Step.of_step hs).commits
  case none hd      => exact hd ▸ hu
  case usage hd     => rw [hd]; exact ⟨hu.tenants, hu.customers, hu.plans, hu.stripe⟩
  case operation ho => exact Operation.unique ho hu
  case webhook hp hd _ =>
    rw [hd]
    refine hu.applyWebhook ?_
    rintro row stripeId rfl
    exact committing_unclaimed h hp

end Execution
