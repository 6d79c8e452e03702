import BillingEngine.Execution.Serial
import BillingEngine.Execution.Theorems.Renewals
import BillingEngine.Execution.Theorems.Statuses

open QuotaEnforcer StripeWebhookHandler

-- Rows of subscriptions exist, of which those that end last all satisfy `P`.
def Lasts (rows : List Subscription) (P : Subscription → Prop) : Prop :=
  rows ≠ [] ∧ ∀ sub ∈ rows, (∀ sub' ∈ rows, sub'.currentPeriodEnd ≤ sub.currentPeriodEnd) → P sub

theorem Lasts.imp {rows : List Subscription} {P P' : Subscription → Prop} (h : Lasts rows P)
    (hp : ∀ sub ∈ rows, P sub → P' sub) : Lasts rows P' :=
  ⟨h.left, fun sub hm hl => hp sub hm <| h.right sub hm hl⟩

namespace Database

def planName? (db : Database) (planId : Nat) : Option String :=
  db.plan? planId |>.map (·.name)

-- The subscriptions of the tenant which `_get_locked_active_subscription` may select are on the
-- plan with the given name.
def OnPlan (db : Database) (tenantId : Uuid) (name : String) : Prop :=
  Lasts (activeSubscriptions db tenantId) fun sub => db.planName? sub.planId = some name

-- All tenants are held to the limits of their plans.
def InSync (db : Database) : Prop :=
  ∀ tenant ∈ db.tenants, db.OnPlan tenant.id tenant.planType.value

-- The primary and the foreign keys of the tables.
structure Keyed (db : Database) : Prop where
  rows    : db.WellFormed
  tenants : db.tenants.map (·.id) |>.Nodup
  owners  : ∀ sub ∈ db.subscriptions, sub.tenantId ∈ db.tenants.map (·.id)
  plans   : db.plans.map (·.id) |>.Nodup

variable {db db' : Database} {tenantId : Uuid} {name : String} {tenant : Tenant}

theorem OnPlan.selected (h : db.OnPlan tenantId name) (o : OrderBy) : ∃ sub plan,
    getLockedActiveSubscription db o tenantId = some sub ∧
    db.plan? sub.planId = some plan ∧ plan.name = name := by
  cases hs : getLockedActiveSubscription db o tenantId
  case none => exact absurd (Rows.Descending.head_none.mp hs) h.left
  case some sub =>
    have hp := h.right sub (Rows.Descending.head_mem hs) fun _ => Rows.Descending.head_max hs
    have ⟨plan, hp, hn⟩ := Option.map_eq_some_iff.mp hp
    exact ⟨sub, plan, rfl, hp, hn⟩

theorem OnPlan.congr (h : db.OnPlan tenantId name)
    (hs : activeSubscriptions db' tenantId = activeSubscriptions db tenantId)
    (hp : db'.plans = db.plans) : db'.OnPlan tenantId name := by
  rw [OnPlan, hs]
  exact h.imp fun sub _ hn => by rwa [planName?, plan?, hp]

theorem Keyed.tenant_eq (h : db.Keyed) {tenant'} (ht : tenant ∈ db.tenants)
    (ht' : tenant' ∈ db.tenants) (hi : tenant.id = tenant'.id) : tenant = tenant' :=
  List.inj_on_of_nodup_map h.tenants ht ht' hi

theorem Keyed.planName?_eq (h : db.Keyed) {plan : Plan}
    (hf : db.plans.filter (·.name = name) = [plan]) : db.planName? plan.id = some name := by
  have ⟨hm, hn⟩ := Rows.of_filter_singleton hf
  rw [planName?, plan?, Rows.find?_key h.plans hm]
  exact congrArg some hn

-- The tenants after the assignment of a plan to one of them.
theorem Keyed.setPlanType (h : db.Keyed) (ht : tenant ∈ db.tenants) {planType : PlanType} {tenant'}
    (hm : tenant' ∈ (UnitOfWork.setPlanType tenant planType).elim db.tenants
      fun c => Rows.modify Tenant.id c.1 ({ · with planType := c.2 }) db.tenants) :
    ∃ t ∈ db.tenants, tenant'.id = t.id ∧
      tenant'.planType = if t.id = tenant.id then planType else t.planType := by
  unfold UnitOfWork.setPlanType at hm
  split at hm
  case isTrue he =>
    refine ⟨tenant', hm, rfl, ?_⟩
    split
    case isTrue hi => rw [h.tenant_eq hm ht hi, he]
    case isFalse   => rfl
  case isFalse =>
    obtain ⟨t, ht', rfl⟩ := Rows.mem_modify.mp hm
    refine ⟨t, ht', ?_⟩
    split <;> exact ⟨rfl, rfl⟩

-- The other tenants do not see the assignments to a row.
theorem Keyed.activeSubscriptions_modify (h : db.Keyed) {sub assigned : Subscription}
    (hm : sub ∈ db.subscriptions) (ha : assigned.tenantId = sub.tenantId)
    (ht : tenantId ≠ sub.tenantId) :
    (Rows.modify Subscription.id sub.id (fun _ => assigned) db.subscriptions).filter
      (Eligible tenantId ·) = activeSubscriptions db tenantId := by
  rw [Rows.filter_modify fun r _ _ he => ht <| he.left.symm.trans ha]
  refine List.filter_eq_self.mpr fun r hr => decide_eq_true fun hi => ht ?_
  have ⟨hr, he⟩ := mem_activeSubscriptions.mp hr
  rw [← he.left, List.inj_on_of_nodup_map h.rows.ids hr hm hi]

end Database

namespace Execution

-- (1) A checkout leaves no row of another plan than "pro" among the active ones of its tenant that
--     end at least as late as the new one,
-- (2) the active rows that end last after an update are on the plan of those before it, and
-- (3) after a deletion, the tenant still has active rows, the last of which are on the plan "free".
def Change.KeepsPlan (db : Database) : Change → Prop
  | .operation _ => True
  | .deliver event now => ¬db.Processed event.id →
    match dispatch event.type with
    | some .checkoutCompleted => ∀ {customer tenant},
      (checkoutCustomer event).text = .ok customer →
      getTenantByCustomerId db customer = .ok (some tenant) →
      ∀ sub ∈ activeSubscriptions db tenant.id, now + thirtyDays ≤ sub.currentPeriodEnd →
        db.planName? sub.planId = some "pro"
    | some .subscriptionUpdated => ∀ {id sub assigned}, subscriptionId event = .ok id →
      getSubscription db id = .ok (some sub) → updateSubscription event sub = .ok assigned →
      let rows := Rows.modify Subscription.id sub.id (fun _ => assigned) db.subscriptions
      Lasts (rows.filter (Eligible sub.tenantId ·)) fun sub' => ∀ {name},
        db.OnPlan sub.tenantId name → db.planName? sub'.planId = some name
    | some .subscriptionDeleted => ∀ {id sub}, subscriptionId event = .ok id →
      getSubscription db id = .ok (some sub) →
      Lasts ((activeSubscriptions db sub.tenantId).filter (·.id ≠ sub.id)) fun sub' =>
        db.planName? sub'.planId = some "free"
    | none => True

variable {db db' : Database} {event : WebhookEvent} {now : Instant} {c : Change}

theorem keyed_operation {op : Operation} (h : op.apply db = some db') (hk : db.Keyed) :
    db'.Keyed := by
  have hr := (Operation.rowChange h).wellFormed hk.rows
  have modify {f : Tenant → Tenant} (hf : ∀ t, (f t).id = t.id) (id : Uuid) :
      (Rows.modify Tenant.id id f db.tenants).map (·.id) = db.tenants.map (·.id) :=
    Rows.modify_map hf
  cases Operation.Applies.of_apply h
  case createTenant hf h =>
    obtain ⟨_, _, rfl⟩ := Router.createTenant_ok h
    refine ⟨hr, ?_, ?_, hk.plans⟩
    · simpa [List.nodup_append, hk.tenants] using hf
    · intro sub hm
      rw [List.map_append, List.mem_append]
      cases List.mem_append.mp hm
      case inl hm => exact .inl <| hk.owners sub hm
      case inr hm => exact .inr <| by simp [List.mem_singleton.mp hm]
  case linkCustomer id customer _ =>
    have hm := modify (f := ({ · with stripeCustomerId := customer })) (fun _ => rfl) id
    exact ⟨hr, hm ▸ hk.tenants, hm ▸ hk.owners, hk.plans⟩
  case setTenantStatus id status =>
    have hm := modify (f := ({ · with status })) (fun _ => rfl) id
    exact ⟨hr, hm ▸ hk.tenants, hm ▸ hk.owners, hk.plans⟩

theorem keyed_applyWebhook {m pt} {write : Option SubscriptionWrite} (hk : db.Keyed)
    (hi : ∀ row id, write = some (.insert row id) → row.tenantId ∈ db.tenants.map (·.id)) :
    (db.applyWebhook m pt write).Keyed where
  rows    := Database.applyWebhook_rowChange.wellFormed hk.rows
  tenants := by rw [Database.applyWebhook_tenant_ids]; exact hk.tenants
  plans   := by rw [Database.applyWebhook_plans]; exact hk.plans
  owners  := by
    intro sub hm
    rw [Database.applyWebhook_subscriptions] at hm
    rw [Database.applyWebhook_tenant_ids]
    rcases write with _ | ⟨row, id⟩ | ⟨row, changes⟩
    case none => exact hk.owners sub hm
    case some.insert =>
      cases List.mem_append.mp hm
      case inl hm => exact hk.owners sub hm
      case inr hm => exact List.mem_singleton.mp hm ▸ hi row id rfl
    case some.update =>
      obtain ⟨r, hr, rfl⟩ := Rows.mem_modify.mp hm
      split <;> exact hk.owners r hr

theorem inSync_operation {op : Operation} (h : op.apply db = some db') (hk : db.Keyed)
    (hi : db.InSync) : db'.InSync := by
  cases Operation.Applies.of_apply h
  case createTenant id payload now hf h =>
    obtain ⟨plan, hp, rfl⟩ := Router.createTenant_ok h
    intro tenant ht
    rcases List.mem_append.mp ht with ht | ht
    case inl =>
      have hne : id ≠ tenant.id := fun he => hf <| he ▸ List.mem_map_of_mem ht
      refine (hi tenant ht).congr ?_ rfl
      simp [activeSubscriptions, Eligible, hne]
    case inr =>
      obtain rfl := List.mem_singleton.mp ht
      have hnone : db.subscriptions.filter (Eligible id ·) = [] :=
        List.filter_eq_nil_iff.mpr fun sub hm he =>
          hf <| (of_decide_eq_true he).left ▸ hk.owners sub hm
      simp only [Database.OnPlan, activeSubscriptions, List.filter_append, hnone, List.nil_append]
      refine ⟨by simp [Eligible], fun sub hm _ => ?_⟩
      rw [List.mem_singleton.mp <| List.mem_of_mem_filter hm]
      exact hk.planName?_eq hp
  case linkCustomer =>
    intro tenant' ht
    obtain ⟨tenant, hm, rfl⟩ := Rows.mem_modify.mp ht
    split <;> exact (hi tenant hm).congr rfl rfl
  case setTenantStatus =>
    intro tenant' ht
    obtain ⟨tenant, hm, rfl⟩ := Rows.mem_modify.mp ht
    split <;> exact (hi tenant hm).congr rfl rfl

variable {m : ProcessedWebhook} {write : Option SubscriptionWrite} {tenant : Tenant}
  {sub assigned : Subscription} {work : UnitOfWork}

-- The plan type of a tenant and the subscriptions of this tenant are written together.
theorem inSync_applyWebhook {planType : PlanType} (hk : db.Keyed) (hi : db.InSync)
    (ht : tenant ∈ db.tenants)
    (own : (db.applyWebhook m (UnitOfWork.setPlanType tenant planType) write).OnPlan tenant.id
      planType.value)
    (others : ∀ id ≠ tenant.id, activeSubscriptions
      (db.applyWebhook m (UnitOfWork.setPlanType tenant planType) write) id =
        activeSubscriptions db id) :
    (db.applyWebhook m (UnitOfWork.setPlanType tenant planType) write).InSync := by
  intro tenant' hm
  rw [Database.applyWebhook_tenants] at hm
  obtain ⟨t, ht', hid, hp⟩ := hk.setPlanType ht hm
  rw [hid, hp]
  split
  case isTrue he  => exact he ▸ own
  case isFalse he => exact (hi t ht').congr (others _ he) Database.applyWebhook_plans

theorem activeSubscriptions_applyWebhook {pt id} :
    activeSubscriptions (db.applyWebhook m pt write) id =
      (write.elim db.subscriptions fun w => (db.writeSubscription w).subscriptions).filter
        (Eligible id ·) := by
  rw [activeSubscriptions, Database.applyWebhook_subscriptions]

theorem inSync_same (hk : db.Keyed) (hi : db.InSync) (h : flushSubscription db {} = .ok write) :
    (db.applyWebhook m none write).Keyed ∧ (db.applyWebhook m none write).InSync := by
  obtain rfl := flush_none h
  exact ⟨keyed_applyWebhook hk nofun, fun t ht => (hi t ht).congr rfl rfl⟩

theorem planName?_applyWebhook {pt id} :
    (db.applyWebhook m pt write).planName? id = db.planName? id := by
  simp [Database.planName?, Database.plan?]

theorem inSync_checkout {row : NewSubscription} {sid} (hk : db.Keyed) (hi : db.InSync)
    (ht : tenant ∈ db.tenants) (hr : row.tenantId = tenant.id)
    (hp : db.planName? row.planId = some "pro")
    (hc : ∀ sub ∈ activeSubscriptions db tenant.id, row.currentPeriodEnd ≤ sub.currentPeriodEnd →
      db.planName? sub.planId = some "pro") :
    (db.applyWebhook m (UnitOfWork.setPlanType tenant .pro) (some <| .insert row sid)).InSync := by
  have hactive (id) : activeSubscriptions (db.applyWebhook m (UnitOfWork.setPlanType tenant .pro)
        (some <| .insert row sid)) id = activeSubscriptions db id ++
          [row.inserted db.nextSubscriptionId sid].filter (Eligible id ·) := by
    rw [activeSubscriptions_applyWebhook]
    exact List.filter_append ..
  refine inSync_applyWebhook hk hi ht ?own ?others
  case own =>
    have hown : [row.inserted db.nextSubscriptionId sid].filter (Eligible tenant.id ·) =
        [row.inserted db.nextSubscriptionId sid] := by
      simp [Eligible, NewSubscription.inserted, hr]
    rw [Database.OnPlan, hactive, hown]
    refine ⟨by simp, fun sub hsub hlast => ?_⟩
    refine planName?_applyWebhook.trans ?_
    rcases List.mem_append.mp hsub with hsub | hsub
    case inl => exact hc sub hsub <| hlast _ <| List.mem_append_right _ (List.mem_singleton_self _)
    case inr => exact List.mem_singleton.mp hsub ▸ hp
  case others =>
    intro id hne
    rw [hactive]
    simp [Eligible, NewSubscription.inserted, hr, Ne.symm hne]

-- The assignments to a subscription, together with one to the plan type of its tenant.
theorem inSync_update {planType : PlanType} (hk : db.Keyed) (hi : db.InSync)
    (ht : tenant ∈ db.tenants) (hm : sub ∈ db.subscriptions) (hs : tenant.id = sub.tenantId)
    (ha : ∃ status periodStart periodEnd, assigned = { sub with
      status, currentPeriodStart := periodStart, currentPeriodEnd := periodEnd })
    (own : Lasts ((Rows.modify Subscription.id sub.id (fun _ => assigned) db.subscriptions).filter
      (Eligible sub.tenantId ·)) fun sub' => db.planName? sub'.planId = some planType.value)
    (hw : write = (UnitOfWork.setSubscription sub assigned).map fun (id, changes) =>
      .update id changes) :
    (db.applyWebhook m (UnitOfWork.setPlanType tenant planType) write).Keyed ∧
    (db.applyWebhook m (UnitOfWork.setPlanType tenant planType) write).InSync := by
  have hactive (id) : activeSubscriptions (db.applyWebhook m
        (UnitOfWork.setPlanType tenant planType) write) id =
      (Rows.modify Subscription.id sub.id (fun _ => assigned) db.subscriptions).filter
        (Eligible id ·) := by
    rw [activeSubscriptions_applyWebhook, hw, hk.rows.setSubscription hm ha]
  constructor
  case left =>
    refine keyed_applyWebhook hk fun row id he => ?_
    cases hu : UnitOfWork.setSubscription sub assigned <;> simp [hw, hu] at he
  case right =>
    refine inSync_applyWebhook hk hi ht ?_ fun id hne => ?_
    · rw [Database.OnPlan, hactive, hs]
      exact own.imp fun _ _ hp => planName?_applyWebhook.trans hp
    · rw [hactive]
      obtain ⟨_, _, _, rfl⟩ := ha
      exact hk.activeSubscriptions_modify hm rfl (hs ▸ hne)

theorem inSync_deliver {result} (hk : db.Keyed) (hi : db.InSync)
    (hc : Change.KeepsPlan db (.deliver event now)) (hd : Delivers db event now result db') :
    db'.Keyed ∧ db'.InSync := by
  cases hd
  case apply m work write hm hp hh hw =>
    replace hc := hc hp
    cases Handles.of_handle hh
    case unhandled      => exact inSync_same hk hi hw
    case noTenant       => exact inSync_same hk hi hw
    case noPlan         => exact inSync_same hk hi hw
    case noSubscription => exact inSync_same hk hi hw
    case checkout customer tenant plan ht hj htenant hplan =>
      simp only [ht] at hc
      have hm := mem_of_getTenant htenant
      rcases flushSubscription_ok hw with ⟨h, _⟩ | ⟨row, id, hrow, _, rfl⟩
      case inl => cases h
      obtain rfl := Option.some.inj hrow
      refine ⟨keyed_applyWebhook hk ?_, inSync_checkout hk hi hm rfl ?_ (hc hj htenant)⟩
      · rintro _ _ ⟨⟩
        exact List.mem_map_of_mem hm
      · exact hk.planName?_eq (scalarOneOrNone_mem hplan)
    case updated id sub assigned ht hid hs ha =>
      simp only [ht] at hc
      have hm := mem_of_getSubscription hs
      obtain ⟨tenant, htenant, hti⟩ := List.mem_map.mp <| hk.owners sub hm
      have hnone : none = UnitOfWork.setPlanType tenant tenant.planType := by
        simp [UnitOfWork.setPlanType]
      have hon : db.OnPlan sub.tenantId tenant.planType.value := hti ▸ hi tenant htenant
      rcases flushSubscription_ok hw with ⟨_, hw⟩ | ⟨_, _, h, _⟩
      case inr => cases h
      rw [hnone]
      refine inSync_update hk hi htenant hm hti ?_ ((hc hid hs ha).imp fun _ _ hp => hp hon) hw
      obtain ⟨_, _, _, _, h⟩ := updateSubscription_ok ha
      exact ⟨_, _, _, h⟩
    case deleted id sub ht hid hs =>
      simp only [ht] at hc
      have hm := mem_of_getSubscription hs
      obtain ⟨tenant, htenant⟩ := Option.isSome_iff_exists.mp <|
        Database.tenant?_isSome.mpr <| hk.owners sub hm
      obtain ⟨hmt, hti⟩ := Rows.find?_key_mem htenant
      rcases flushSubscription_ok hw with ⟨_, hw⟩ | ⟨_, _, h, _⟩
      case inr => cases h
      rw [htenant] at hw ⊢
      refine inSync_update hk hi hmt hm hti ⟨.canceled, _, _, rfl⟩ ?_ hw
      rw [Rows.filter_modify fun _ _ _ he => absurd he.right (by simp)]
      exact hc hid hs
  all_goals exact ⟨hk, hi⟩

theorem in_sync {plans : List Plan} (hp : plans.map (·.id) |>.Nodup)
    (h : Transition.Reach Change.apply Change.KeepsPlan (.migrated plans) db) :
    db.Keyed ∧ db.InSync := by
  refine h.invariant (I := fun db => db.Keyed ∧ db.InSync) ?init ?step
  case init =>
    exact ⟨⟨.migrated, by simp [Database.migrated], by simp [Database.migrated], hp⟩,
      by simp [Database.InSync, Database.migrated]⟩
  case step =>
    rintro db c db' ⟨hk, hi⟩ hc hs
    cases c
    case operation    => exact ⟨keyed_operation hs hk, inSync_operation hs hk hi⟩
    case deliver _ _  => cases hs; exact inSync_deliver hk hi hc (delivers ..)

-- A tenant is held to the limits of the plan it is on.
theorem plan_enforced {plans : List Plan} (hp : plans.map (·.id) |>.Nodup)
    (h : Transition.Reach Change.apply Change.KeepsPlan (.migrated plans) db)
    (ht : tenant ∈ db.tenants) (o : OrderBy) :
    ∃ sub plan, getLockedActiveSubscription db o tenant.id = some sub ∧
      db.plan? sub.planId = some plan ∧ plan.name = tenant.planType.value :=
  (in_sync hp h).right tenant ht |>.selected o

theorem plan_enforced_upgrade : ∃ (db : Database) (tenant : Tenant), tenant.planType = .pro ∧
    ∃ sub plan, getLockedActiveSubscription db (.stable _) tenant.id = some sub ∧
      db.plan? sub.planId = some plan ∧ plan.name = tenant.planType.value := by
  let cs : List Change := [
    .operation <| .createTenant 1 { name := "acme" } 0,
    .operation <| .linkCustomer 1 "cus"
  ]
  let db : Database := { Database.migrated Plan.seeds with
    tenants            := [⟨1, "acme", .free, some "cus", .active⟩]
    subscriptions      := [⟨1, 1, none, 1, .active, 0, thirtyDays⟩]
    nextSubscriptionId := 2 }
  have hrun : Transition.run Change.apply (.migrated Plan.seeds) cs = some db := rfl
  have hr : Transition.Reach Change.apply Change.KeepsPlan _ db := .of_run_all hrun <| by
    simp [cs, Change.KeepsPlan]
  have hc : Change.KeepsPlan db (.deliver (.checkout "evt" "cus" "sub") 1) := by
    intro _ customer tenant hj ht sub hm hle
    cases hj
    cases ht
    cases List.mem_singleton.mp hm
    contradiction
  exact ⟨_, ⟨1, "acme", .pro, some "cus", .active⟩, rfl,
    plan_enforced (by decide) (hr.tail hc rfl) (.head _) (.stable _)⟩

-- A canceled subscription leaves the tenant on "pro", but held to the limits of "free".
theorem not_plan_enforced : ∃ (db : Database) (tenant : Tenant) (sub : Subscription) (plan : Plan),
    Transition.Reach Change.apply Transition.always (.migrated Plan.seeds) db ∧
    tenant ∈ db.tenants ∧ getLockedActiveSubscription db (.stable _) tenant.id = some sub ∧
    db.plan? sub.planId = some plan ∧ plan.name ≠ tenant.planType.value := by
  let cs : List Change := [
    .operation <| .createTenant 1 { name := "acme" } 0,
    .operation <| .linkCustomer 1 "cus",
    .deliver (.checkout "evt_1" "cus" "sub") 1,
    .deliver (.updated "evt_2" "sub" "canceled") 2
  ]
  have hs : Transition.run Change.apply (.migrated Plan.seeds) cs |>.isSome := rfl
  exact ⟨_, ⟨1, "acme", .pro, some "cus", .active⟩, _, _, .get_run hs, .head _, rfl, rfl, by decide⟩

end Execution
