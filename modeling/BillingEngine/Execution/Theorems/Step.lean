import BillingEngine.Execution.System

open Sessions

theorem prefix_of_eq {xs ys : List ρ} (h : xs = ys) : xs <+: ys :=
  h ▸ List.prefix_rfl

-- What the writes leave alone.

namespace Database

variable {db : Database} {m : ProcessedWebhook} {pt : Option (Uuid × PlanType)}
  {w : Option SubscriptionWrite}

theorem applyWebhook_eq : db.applyWebhook m pt w = { db with
    processedWebhooks := db.processedWebhooks ++ [m]
    tenants := pt.elim db.tenants fun c =>
      Rows.modify Tenant.id c.1 ({ · with planType := c.2 }) db.tenants
    subscriptions := w.elim db.subscriptions fun w => (db.writeSubscription w).subscriptions
    nextSubscriptionId :=
      w.elim db.nextSubscriptionId fun w => (db.writeSubscription w).nextSubscriptionId } := by
  cases pt <;> rcases w with _ | ⟨_ | _⟩ <;> rfl

@[simp]
theorem applyWebhook_usageEvents : (db.applyWebhook m pt w).usageEvents = db.usageEvents := by
  rw [applyWebhook_eq]

@[simp]
theorem applyWebhook_records :
    (db.applyWebhook m pt w).idempotencyRecords = db.idempotencyRecords := by
  rw [applyWebhook_eq]

@[simp]
theorem applyWebhook_plans : (db.applyWebhook m pt w).plans = db.plans := by
  rw [applyWebhook_eq]

@[simp]
theorem applyWebhook_processed :
    (db.applyWebhook m pt w).processedWebhooks = db.processedWebhooks ++ [m] := by
  rw [applyWebhook_eq]

theorem applyWebhook_tenants : (db.applyWebhook m pt w).tenants = pt.elim db.tenants fun c =>
    Rows.modify Tenant.id c.1 ({ · with planType := c.2 }) db.tenants := by
  rw [applyWebhook_eq]

theorem applyWebhook_tenant_ids :
    (db.applyWebhook m pt w).tenants.map (·.id) = db.tenants.map (·.id) := by
  rw [applyWebhook_tenants]
  cases pt
  case none => rfl
  case some => exact Rows.modify_map fun _ => rfl

theorem applyWebhook_subscriptions : (db.applyWebhook m pt w).subscriptions =
    w.elim db.subscriptions fun w => (db.writeSubscription w).subscriptions := by
  rw [applyWebhook_eq]

theorem applyWebhook_nextSubscriptionId : (db.applyWebhook m pt w).nextSubscriptionId =
    w.elim db.nextSubscriptionId fun w => (db.writeSubscription w).nextSubscriptionId := by
  rw [applyWebhook_eq]

theorem tenant?_isSome {id : Uuid} : (db.tenant? id).isSome ↔ id ∈ db.tenants.map (·.id) := by
  simp [tenant?, List.find?_isSome]

-- The tables that only usage requests write, and those that nothing writes.
structure SameUsage (db db' : Database) : Prop where
  usageEvents : db'.usageEvents = db.usageEvents
  records     : db'.idempotencyRecords = db.idempotencyRecords

end Database

-- What `POST /v1/tenants` does to the database.
theorem Router.createTenant_ok {db db' : Database} {id : Uuid} {payload : TenantCreate}
    {now : Instant} (h : Router.createTenant db id payload now = .ok db') :
    ∃ plan, db.plans.filter (·.name = payload.planType.value) = [plan] ∧ db' = { db with
      tenants := db.tenants ++ [⟨id, payload.name, payload.planType, none, .active⟩]
      subscriptions := db.subscriptions ++ [⟨db.nextSubscriptionId, id, none, plan.id, .active, now,
        now + StripeWebhookHandler.thirtyDays⟩]
      nextSubscriptionId := db.nextSubscriptionId + 1 } := by
  unfold Router.createTenant at h
  split at h <;> try contradiction
  case h_3 plan hp =>
    split at h <;> cases h
    exact ⟨plan, scalarOneOrNone_mem hp, rfl⟩

namespace Operation

variable {op : Operation} {db db' : Database}

-- The operations, case by case.
inductive Applies (db : Database) : Operation → Database → Prop
  | createTenant {id payload now db'} (hf : id ∉ db.tenants.map (·.id))
    (h : Router.createTenant db id payload now = .ok db') :
    Applies db (.createTenant id payload now) db'
  | linkCustomer {tenantId customer}
    (hf : ∀ t ∈ db.tenants, t.stripeCustomerId ≠ some customer) :
    Applies db (.linkCustomer tenantId customer) { db with
      tenants := db.tenants |> Rows.modify Tenant.id tenantId
        ({ · with stripeCustomerId := customer }) }
  | setTenantStatus {tenantId status} :
    Applies db (.setTenantStatus tenantId status) { db with
      tenants := Rows.modify Tenant.id tenantId ({ · with status }) db.tenants }

theorem Applies.of_apply (h : op.apply db = some db') : Applies db op db' := by
  unfold apply at h
  split at h
  case h_1 =>
    split at h <;> try contradiction
    refine .createTenant ‹_› ?_
    cases hc : Router.createTenant db _ _ _ <;> simp_all [Except.toOption]
  case h_2 =>
    split at h <;> cases h
    case isFalse hf => exact .linkCustomer <| by simpa using hf
  case h_3 => cases h; exact .setTenantStatus

theorem sameUsage (h : op.apply db = some db') : db.SameUsage db' := by
  cases Applies.of_apply h
  case createTenant h => obtain ⟨_, _, rfl⟩ := Router.createTenant_ok h; exact ⟨rfl, rfl⟩
  all_goals exact ⟨rfl, rfl⟩

theorem plans (h : op.apply db = some db') : db'.plans = db.plans := by
  cases Applies.of_apply h
  case createTenant h => obtain ⟨_, _, rfl⟩ := Router.createTenant_ok h; rfl
  all_goals rfl

theorem tenants (h : op.apply db = some db') :
    db.tenants.map (·.id) <+: db'.tenants.map (·.id) := by
  cases Applies.of_apply h
  case createTenant h =>
    obtain ⟨_, _, rfl⟩ := Router.createTenant_ok h
    simp
  all_goals exact prefix_of_eq <| Eq.symm <| Rows.modify_map (by intro; rfl)

-- New rows belong to new tenants.

theorem mem_subscriptions (h : op.apply db = some db') {s : Subscription}
    (hs : s ∈ db'.subscriptions) : s ∈ db.subscriptions ∨ s.tenantId ∉ db.tenants.map (·.id) := by
  cases Applies.of_apply h
  case createTenant hf h =>
    obtain ⟨_, _, rfl⟩ := Router.createTenant_ok h
    cases List.mem_append.mp hs
    case inl hs => exact .inl hs
    case inr hs => exact .inr <| List.mem_singleton.mp hs ▸ hf
  all_goals exact .inl hs

theorem mem_stripe (h : op.apply db = some db') {s : Subscription} {id : String}
    (hs : s ∈ db'.subscriptions) (hi : s.stripeSubscriptionId = some id) :
    s ∈ db.subscriptions := by
  cases Applies.of_apply h
  case createTenant h =>
    obtain ⟨_, _, rfl⟩ := Router.createTenant_ok h
    cases List.mem_append.mp hs
    case inl hs => exact hs
    case inr hs =>
      cases List.mem_singleton.mp hs
      cases hi
  all_goals exact hs

theorem activeSubscriptions (h : op.apply db = some db') {tenantId : Uuid}
    (ht : (db.tenant? tenantId).isSome) :
    QuotaEnforcer.activeSubscriptions db' tenantId =
      QuotaEnforcer.activeSubscriptions db tenantId := by
  cases Applies.of_apply h
  case createTenant id _ _ hf h =>
    obtain ⟨_, _, rfl⟩ := Router.createTenant_ok h
    have hi : id ≠ tenantId := by
      rintro rfl
      exact hf <| Database.tenant?_isSome.mp ht
    simp [QuotaEnforcer.activeSubscriptions, QuotaEnforcer.Eligible, hi]
  all_goals rfl

theorem processed (h : op.apply db = some db') : db'.processedWebhooks = db.processedWebhooks := by
  cases Applies.of_apply h
  case createTenant h => obtain ⟨_, _, rfl⟩ := Router.createTenant_ok h; rfl
  all_goals rfl

end Operation

-- Only the commit of a usage request writes, when a request moves, and likewise for a delivery.

inductive Usage.Next.Writes :
    Usage.Phase → Usage.Action → Usage.Phase → Effect Resource Write → Prop
  | none {p a p' e} (hw : ∀ db, engine.write e db = db) (ha : a ≠ .commit) : Writes p a p' e
  | commit {skipped check event record} :
    Writes (.committing skipped check event record) .commit
      (.responding <| Router.resultResponse <| MeteringEngine.created record.responseBody)
      (.commit <| .usage event record)

theorem Usage.Next.writes {db id request p a p' e} (h : Usage.Next db id request p a p' e) :
    Writes p a p' e := by
  cases h
  case commit => exact .commit
  all_goals exact .none (fun _ => rfl) nofun

theorem Webhook.write_acquire {x? : Option Resource} {db} :
    engine.write (Webhook.acquire x?) db = db := by
  cases x? <;> rfl

inductive Webhook.Next.Writes :
    Webhook.Phase → Webhook.Action → Webhook.Phase → Effect Resource Write → Prop
  | none {p a p' e} (hw : ∀ db, engine.write e db = db) (ha : a ≠ .commit) : Writes p a p' e
  | commit {marker planType write result} :
    Writes (.committing marker planType write result) .commit (.answered result)
      (.commit <| .webhook marker planType write)

theorem Webhook.Next.writes {db event p a p' e} (h : Webhook.Next db event p a p' e) :
    Writes p a p' e := by
  cases h
  case commit => exact .commit
  case flushTenant | flushSubscription => exact .none (fun _ => Webhook.write_acquire) nofun
  all_goals exact .none (fun _ => rfl) nofun

namespace Execution

namespace Step

-- The effects of a step on the committed data.
inductive Commits (s : State) : Label → State → Prop
  | none {l} {s' : State} (hl : ∀ id, l ≠ .act id (.webhook .commit)) (hd : s'.db = s.db) :
    Commits s l s'
  | usage {id request skipped check event record} {s' : State}
    (hs : s.session id = some (.usage request <| .committing skipped check event record))
    (hd : s'.db = (Write.usage event record).apply s.db) : Commits s (.act id <| .usage .commit) s'
  | webhook {id event marker planType write result} {s' : State}
    (hs : s.session id = some (.webhook event <| .committing marker planType write result))
    (hd : s'.db = s.db.applyWebhook marker planType write)
    (ha : s'.session id = some (.webhook event <| .answered result)) :
    Commits s (.act id <| .webhook .commit) s'
  | operation {op} {s' : State} (ho : op.apply s.db = some s'.db) : Commits s (.env op) s'

variable {s s' : State} {l : Label}

theorem session_eq (h : Step s l s') {id} (ht : l.session? ≠ some id) :
    s'.session id = s.session id :=
  h.steps.session_eq ht

theorem finished_eq (h : Step s l s') {id session} (hs : s.session id = some session)
    (hf : session.finished) : s'.session id = s.session id := by
  by_cases ht : l.session? = some id
  case neg => exact h.session_eq ht
  case pos =>
    cases h <;> cases ht
    case receive idle       => cases hs.symm.trans idle
    case deliver idle       => cases hs.symm.trans idle
    case usage session hn _ =>
      cases hs.symm.trans session
      exact absurd hf <| by simp [Session.finished, hn.unfinished]
    case webhook hn session _ =>
      cases hs.symm.trans session
      exact absurd hf <| by simp [Session.finished, hn.unfinished]

theorem persists (h : Step s l s') {id session} (hs : s.session id = some session) :
    ∃ session', s'.session id = some session' ∧ session'.input = session.input := by
  by_cases ht : l.session? = some id
  case neg => exact ⟨session, h.session_eq ht |>.trans hs, rfl⟩
  case pos =>
    cases h <;> cases ht
    case receive idle        => cases hs.symm.trans idle
    case deliver idle        => cases hs.symm.trans idle
    case usage session _ _   =>
      cases hs.symm.trans session
      exact ⟨_, Function.update_self .., rfl⟩
    case webhook _ session _ =>
      cases hs.symm.trans session
      exact ⟨_, Function.update_self .., rfl⟩

theorem commits (h : Step s l s') : Commits s l s' := by
  cases h
  case receive => exact .none nofun rfl
  case deliver => exact .none nofun rfl
  case operation h => exact .operation h
  case usage hs hn _ =>
    cases hn.writes
    case none hw => exact .none nofun <| hw _
    case commit  => exact .usage hs rfl
  case webhook hs hn _ =>
    cases hn.writes
    case none ha hw => exact .none (by simp [ha]) <| hw _
    case commit     => exact .webhook hs rfl <| by simp [Program.perform]

-- Tenants are never removed.
theorem tenants (h : Step s l s') :
    s.db.tenants.map (·.id) <+: s'.db.tenants.map (·.id) := by
  cases h.commits
  case none hd      => exact prefix_of_eq <| by rw [hd]
  case usage hd     => exact prefix_of_eq <| by rw [hd]; rfl
  case webhook hd _ => exact prefix_of_eq <| by rw [hd, Database.applyWebhook_tenant_ids]
  case operation ho => exact Operation.tenants ho

theorem plans (h : Step s l s') : s'.db.plans = s.db.plans := by
  cases h.commits
  case none hd          => rw [hd]
  case usage hd         => rw [hd]; rfl
  case webhook hd _     => rw [hd, Database.applyWebhook_plans]
  case operation op ho  => exact op.plans ho

-- Only the commit of a usage request writes the tables of usage requests.
inductive Records (s : State) : Label → State → Prop
  | same {l : Label} {s' : State} (hu : s.db.SameUsage s'.db) : Records s l s'
  | commit {id request skipped check event record} {s' : State}
    (hs : s.session id = some (.usage request <| .committing skipped check event record))
    (hd : s'.db = (Write.usage event record).apply s.db) : Records s (.act id <| .usage .commit) s'

theorem records (h : Step s l s') : Records s l s' := by
  cases h.commits
  case none hd      => exact .same ⟨by rw [hd], by rw [hd]⟩
  case usage hs hd  => exact .commit hs hd
  case webhook hd _ => exact .same ⟨by simp [hd], by simp [hd]⟩
  case operation ho => exact .same <| Operation.sameUsage ho

theorem mem_usageEvents {e : UsageEvent} (h : Step s l s') (he : e ∈ s'.db.usageEvents) :
    e ∈ s.db.usageEvents ∨ ∃ id request skipped check record, l = .act id (.usage .commit) ∧
      s.session id = some (.usage request <| .committing skipped check e record) := by
  cases h.records
  case same hu => exact .inl <| hu.usageEvents ▸ he
  case commit hs hd =>
    simp only [hd, Write.apply, List.mem_append, List.mem_singleton] at he
    cases he
    case inl he => exact .inl he
    case inr he => exact .inr ⟨_, _, _, _, _, rfl, he ▸ hs⟩

-- How a session of a usage request has come to where it is after a step.
theorem usage_session (h : Step s l s') {id request p'}
    (hp : s'.session id = some (.usage request p')) :
    (l.session? ≠ some id ∧ s.session id = some (.usage request p')) ∨
    (p' = .received ∧ s'.db = s.db) ∨
    ∃ p a e, l = .act id (.usage a) ∧ s.session id = some (.usage request p) ∧
      Usage.Next s.db id request p a p' e ∧ s'.db = engine.write e s.db := by
  rcases h.steps.session_cases hp with ho | ⟨hi, hd⟩ | ⟨_, _, e, rfl, hs, hn, hd⟩
  case inl => exact .inl ho
  case inr.inl => cases p' <;> cases hi; exact .inr <| .inl ⟨rfl, hd⟩
  case inr.inr =>
    cases Session.Next.of_next hn
    case usage hn => exact .inr <| .inr ⟨_, _, e, rfl, hs, hn, hd⟩

-- The same for the sessions of deliveries.
theorem webhook_session (h : Step s l s') {id event p'}
    (hp : s'.session id = some (.webhook event p')) :
    (l.session? ≠ some id ∧ s.session id = some (.webhook event p')) ∨
    (p' = .received ∧ s'.db = s.db) ∨
    ∃ p a e, l = .act id (.webhook a) ∧ s.session id = some (.webhook event p) ∧
      Webhook.Next s.db event p a p' e ∧ s'.db = engine.write e s.db := by
  rcases h.steps.session_cases hp with ho | ⟨hi, hd⟩ | ⟨_, _, e, rfl, hs, hn, hd⟩
  case inl => exact .inl ho
  case inr.inl => cases p' <;> cases hi; exact .inr <| .inl ⟨rfl, hd⟩
  case inr.inr =>
    cases Session.Next.of_next hn
    case webhook hn => exact .inr <| .inr ⟨_, _, e, rfl, hs, hn, hd⟩

-- A rule for invariants of the sessions of usage requests, which relate them to the database.
theorem usage_invariant {I : Database → Uuid → UsageRequest → Usage.Phase → Prop} (h : Step s l s')
    (inv : ∀ {id request p}, s.session id = some (.usage request p) → I s.db id request p)
    (received : ∀ {id request}, s'.db = s.db → I s'.db id request .received)
    (acts : ∀ {id request p a p' e}, l = .act id (.usage a) →
      s.session id = some (.usage request p) → Usage.Next s.db id request p a p' e →
      s'.db = engine.write e s.db → I s.db id request p → I s'.db id request p')
    (others : ∀ {id request p}, l.session? ≠ some id → s.session id = some (.usage request p) →
      I s.db id request p → I s'.db id request p)
    {id request p} (hp : s'.session id = some (.usage request p)) : I s'.db id request p := by
  rcases h.usage_session hp with ⟨ht, hs⟩ | ⟨rfl, hd⟩ | ⟨_, _, _, hl, hs, hn, hd⟩
  · exact others ht hs (inv hs)
  · exact received hd
  · exact acts hl hs hn hd (inv hs)

end Step

theorem finished_eq {ok : State → Label → Prop} {s s' : State}
    (h : Transition.Reach engine.step ok s s') {id session} (hs : s.session id = some session)
    (hf : session.finished) : s'.session id = some session :=
  h.invariant (I := fun s => s.session id = some session) hs fun hi _ h =>
    (Step.of_step h).finished_eq hi hf |>.trans hi

-- A session keeps its request or event.
theorem persists {ok : State → Label → Prop} {s s' : State}
    (h : Transition.Reach engine.step ok s s') {id session} (hs : s.session id = some session) :
    ∃ session', s'.session id = some session' ∧ session'.input = session.input :=
  h.invariant (I := fun s => ∃ session', s.session id = some session' ∧
      session'.input = session.input) ⟨session, hs, rfl⟩ fun ⟨_, hs, he⟩ _ h =>
    have ⟨_, hs', he'⟩ := (Step.of_step h).persists hs
    ⟨_, hs', he'.trans he⟩

theorem usage_persists {ok : State → Label → Prop} {s s' : State}
    (h : Transition.Reach engine.step ok s s') {id request p}
    (hs : s.session id = some (.usage request p)) :
    ∃ p', s'.session id = some (.usage request p') := by
  have ⟨session, hs', he⟩ := persists h hs
  cases session <;> cases he
  exact ⟨_, hs'⟩

theorem webhook_persists {ok : State → Label → Prop} {s s' : State}
    (h : Transition.Reach engine.step ok s s') {id event p}
    (hs : s.session id = some (.webhook event p)) :
    ∃ p', s'.session id = some (.webhook event p') := by
  have ⟨session, hs', he⟩ := persists h hs
  cases session <;> cases he
  exact ⟨_, hs'⟩

theorem run_session_eq {as : List Label} {s s' : State} {id : Uuid}
    (h : Transition.run engine.step s as = some s') (hl : ∀ l ∈ as, Label.session? l ≠ some id) :
    s'.session id = s.session id :=
  (Transition.Reach.of_run h).invariant (I := fun s' => s'.session id = s.session id) rfl
    fun hi hm hs => (Step.of_step hs).session_eq (hl _ hm) |>.trans hi

theorem session_eq_none {as : List Label} {db : Database} {s : State} {id : Uuid}
    (h : Transition.run engine.step (.boot db) as = some s)
    (hl : ∀ l ∈ as, Label.session? l ≠ some id) : s.session id = none :=
  run_session_eq h hl

-- The sessions of a run.
theorem session_of_run {as : List Label} {s s' : State} {id : Uuid} {session : Session}
    (h : Transition.run engine.step s as = some s') (hs : s'.session id = some session) :
    s.session id = some session ∨ ∃ l ∈ as, Label.session? l = some id := by
  by_contra hn
  obtain ⟨hne, hl⟩ := not_or.mp hn
  simp only [not_exists, not_and] at hl
  exact hne <| (run_session_eq h hl).symm.trans hs

-- The same rule for runs, and for the sessions of deliveries.

theorem usage_reach {ok : State → Label → Prop}
    {I : Database → Uuid → UsageRequest → Usage.Phase → Prop} {s₀ s : State}
    (h : Transition.Reach engine.step ok s₀ s)
    (init : ∀ {id request p}, s₀.session id = some (.usage request p) → I s₀.db id request p)
    (received : ∀ {db id request}, I db id request .received)
    (acts : ∀ {s s' : State} {id request p a p' e}, Transition.Reach engine.step ok s₀ s →
      s.session id = some (.usage request p) → Usage.Next s.db id request p a p' e →
      s'.db = engine.write e s.db → ok s (.act id <| .usage a) → I s.db id request p →
      I s'.db id request p')
    (others : ∀ {s s' : State} {l id request p}, Transition.Reach engine.step ok s₀ s →
      Step s l s' → ok s l → l.session? ≠ some id → s.session id = some (.usage request p) →
      I s.db id request p → I s'.db id request p) :
    ∀ {id request p}, s.session id = some (.usage request p) → I s.db id request p := by
  intro id request p hp
  refine Program.session_reach (I := fun db id l => ∀ request p, l = .usage request p →
    I db id request p) h ?init ?starts ?acts ?others hp _ _ rfl
  case init   => rintro _ _ hs _ _ rfl; exact init hs
  case starts => rintro _ _ _ hi _ p rfl; cases p <;> cases hi; exact received
  case acts =>
    rintro _ _ _ _ _ _ _ hr hs hn hd hok hi _ _ rfl
    cases Session.Next.of_next hn
    case usage hn => exact acts hr hs hn hd hok <| hi _ _ rfl
  case others =>
    rintro _ _ _ _ _ hr hst hok ht hs hi _ _ rfl
    exact others hr (.of_step <| Program.step_iff.mpr hst) hok ht hs <| hi _ _ rfl

theorem webhook_reach {ok : State → Label → Prop}
    {I : Database → Uuid → WebhookEvent → Webhook.Phase → Prop} {s₀ s : State}
    (h : Transition.Reach engine.step ok s₀ s)
    (init : ∀ {id event p}, s₀.session id = some (.webhook event p) → I s₀.db id event p)
    (received : ∀ {db id event}, I db id event .received)
    (acts : ∀ {s s' : State} {id event p a p' e}, Transition.Reach engine.step ok s₀ s →
      s.session id = some (.webhook event p) → Webhook.Next s.db event p a p' e →
      s'.db = engine.write e s.db → ok s (.act id <| .webhook a) → I s.db id event p →
      I s'.db id event p')
    (others : ∀ {s s' : State} {l id event p}, Transition.Reach engine.step ok s₀ s →
      Step s l s' → ok s l → l.session? ≠ some id → s.session id = some (.webhook event p) →
      I s.db id event p → I s'.db id event p) :
    ∀ {id event p}, s.session id = some (.webhook event p) → I s.db id event p := by
  intro id event p hp
  refine Program.session_reach (I := fun db id l => ∀ event p, l = .webhook event p →
    I db id event p) h ?init ?starts ?acts ?others hp _ _ rfl
  case init   => rintro _ _ hs _ _ rfl; exact init hs
  case starts => rintro _ _ _ hi _ p rfl; cases p <;> cases hi; exact received
  case acts =>
    rintro _ _ _ _ _ _ _ hr hs hn hd hok hi _ _ rfl
    cases Session.Next.of_next hn
    case webhook hn => exact acts hr hs hn hd hok <| hi _ _ rfl
  case others =>
    rintro _ _ _ _ _ hr hst hok ht hs hi _ _ rfl
    exact others hr (.of_step <| Program.step_iff.mpr hst) hok ht hs <| hi _ _ rfl

end Execution
