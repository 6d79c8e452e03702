import BillingEngine.Execution.Serial

open Sessions QuotaEnforcer

namespace Database

-- The rows which `_get_locked_active_subscription` may select.
def Latest (db : Database) (tenantId : Uuid) (sid : Nat) : Prop :=
  ∃ s ∈ activeSubscriptions db tenantId, s.id = sid ∧
    ∀ s' ∈ activeSubscriptions db tenantId, s'.currentPeriodEnd ≤ s.currentPeriodEnd

variable {db db' : Database} {tenantId : Uuid} {sid : Nat} {sub : Subscription}

theorem Latest.eligible (h : db.Latest tenantId sid) (hw : db.WellFormed)
    (hs : db.subscription? sid = some sub) : Eligible tenantId sub := by
  have ⟨s, hm, hi, _⟩ := h
  have ⟨hm, he⟩ := mem_activeSubscriptions.mp hm
  have hs' := hw.subscription?_of_mem hm
  rw [hi] at hs'
  rwa [Option.some.inj <| hs.symm.trans hs']

theorem Latest.exists_row (h : db.Latest tenantId sid) (hw : db.WellFormed) :
    ∃ sub, db.subscription? sid = some sub := by
  have ⟨s, hm, hi, _⟩ := h
  exact ⟨s, hi ▸ hw.subscription?_of_mem (mem_activeSubscriptions.mp hm).left⟩

theorem Latest.congr (h : activeSubscriptions db' tenantId = activeSubscriptions db tenantId) :
    db'.Latest tenantId sid ↔ db.Latest tenantId sid := by
  simp only [Latest, h]

end Database

namespace Usage

-- The request waits for the row `sid`, or holds it.
def Phase.Targets (sid : Nat) : Phase → Prop
  | locking _ skipped (candidate :: _) => sid ∈ candidate :: skipped
  | p => .subscription sid ∈ p.held

variable {db : Database} {id : Uuid} {request : UsageRequest} {p p' : Phase} {a : Action}
  {e : Effect Resource Write} {sid : Nat}

theorem Phase.targets_of_held (h : .subscription sid ∈ p.held) : p.Targets sid := by
  cases p
  case locking candidates =>
    cases candidates
    case nil  => exact h
    case cons => exact List.mem_cons_of_mem _ <| by simpa [held] using h
  all_goals exact h

theorem Phase.Targets.in_progress (h : p.Targets sid) : p ≠ .received ∧ p.finished = false := by
  cases p <;> simp_all [Targets, finished, held]

-- A request starts to wait for a row by selecting it, or by skipping another one.
theorem Next.targets (h : Next db id request p a p' e) (ht : p'.Targets sid) :
    p.Targets sid ∨
    (∃ tenant o, p = .selecting tenant ∧ a = .select o ∧ db.Latest tenant.id sid) ∨
    ∃ tenant skipped candidate candidates, p = .locking tenant skipped (candidate :: candidates) ∧
      ∀ s, db.subscription? candidate = some s → ¬Eligible tenant.id s := by
  cases h
  case select tenant o =>
    cases hs : o.sort (activeSubscriptions db tenant.id)
    case nil => simp [hs, Phase.Targets, Phase.held] at ht
    case cons s _ =>
      rw [hs] at ht
      have ht : s.id = sid := (List.mem_singleton.mp ht).symm
      have hh : (o.sort <| activeSubscriptions db tenant.id).head? = some s := by simp [hs]
      exact .inr <| .inl ⟨tenant, o, rfl, rfl, s, Rows.Descending.head_mem hh, ht,
        fun _ => Rows.Descending.head_max hh⟩
  case skip hs => exact .inr <| .inr ⟨_, _, _, _, rfl, hs⟩
  case lock hs _ =>
    simp only [Phase.Targets, Phase.held, List.mem_map, Resource.subscription.injEq,
      exists_eq_right, Rows.find?_key_mem hs |>.right] at ht
    exact .inl ht
  case reserve hc =>
    simp only [Phase.Targets, Phase.held, check_subscription hc] at ht
    exact .inl ht
  all_goals simp_all [Phase.Targets, Phase.held]

end Usage

namespace Execution

-- A usage request of the tenant is about to lock a row, or has locked one and not finished.
def State.InProgress (s : State) (tenantId : Uuid) : Prop :=
  ∃ id request p sid, s.session id = some (.usage request p) ∧
    request.payload.tenantId = tenantId ∧ p.Targets sid

-- While a usage request of a tenant is in progress,
-- (1) no other one selects a row if several subscriptions of the tenant end last, and
-- (2) no webhook makes another subscription of the tenant the last one.
def Undisturbed (s : State) : Label → Prop
  | .act id (.usage (.select _)) => ∀ {request p}, s.session id = some (.usage request p) →
    s.InProgress request.payload.tenantId → ∀ {sid sid'},
      s.db.Latest request.payload.tenantId sid → s.db.Latest request.payload.tenantId sid' →
      sid = sid'
  | .act id (.webhook .commit) => ∀ {event marker planType write result},
    s.session id = some (.webhook event <| .committing marker planType write result) →
    ∀ {tenantId}, s.InProgress tenantId → ∀ {sid}, s.db.Latest tenantId sid →
      (s.db.applyWebhook marker planType write).Latest tenantId sid
  | _ => True

abbrev Undisturbed.Reach : State → State → Prop :=
  Transition.Reach engine.step Undisturbed

-- At most one usage request of a tenant holds a row lock.
def State.Serialized (s : State) : Prop :=
  ∀ ⦃id id' request request' p p' sid sid'⦄, s.session id = some (.usage request p) →
    s.session id' = some (.usage request' p') →
    request.payload.tenantId = request'.payload.tenantId →
    .subscription sid ∈ p.held → .subscription sid' ∈ p'.held → id = id'

-- The rollups of requests in progress include all events that have been committed.
def State.RollupsCurrent (s : State) : Prop :=
  ∀ ⦃id request p check⦄, s.session id = some (.usage request p) → p.check? = some check →
    ∀ type, check.used type = usedQuantity s.db.usageEvents request.payload.tenantId
      check.subscription.currentPeriodStart check.subscription.currentPeriodEnd type

variable {db : Database} {s s' : State} {l : Label}

theorem Step.latest (h : Step s l s') (hu : Undisturbed s l) {tenantId sid}
    (hp : s.InProgress tenantId) (ht : (s.db.tenant? tenantId).isSome)
    (hl : s.db.Latest tenantId sid) : s'.db.Latest tenantId sid := by
  cases h.commits
  case none hd         => rwa [hd]
  case usage hd        => rwa [hd]
  case webhook hs hd _ => rw [hd]; exact hu hs hp hl
  case operation ho    =>
    exact Database.Latest.congr (Operation.activeSubscriptions ho ht) |>.mpr hl

namespace State

-- The requests in progress target rows that end last.
def Aims (s : State) : Prop :=
  ∀ ⦃id request p sid⦄, s.session id = some (.usage request p) → p.Targets sid →
    s.db.Latest request.payload.tenantId sid

-- The requests in progress of a tenant target the same row.
def Aligned (s : State) : Prop :=
  ∀ ⦃id id' request request' p p' sid sid'⦄, id ≠ id' → s.session id = some (.usage request p) →
    s.session id' = some (.usage request' p') →
    request.payload.tenantId = request'.payload.tenantId →
    p.Targets sid → p'.Targets sid' → sid = sid'

end State

-- A request which targets a row has targeted it before, or has just selected it.
theorem Step.targets {id request p' sid} (h : Step s l s') (hw : s.db.WellFormed) (ha : s.Aims)
    (hl : ∀ {request p}, s.session id = some (.usage request p) → p.Local id request)
    (hs : s'.session id = some (.usage request p')) (ht : p'.Targets sid) :
    (∃ p, s.session id = some (.usage request p) ∧ p.Targets sid) ∨
    ∃ o p, l = .act id (.usage <| .select o) ∧ s.session id = some (.usage request p) ∧
      s.db.Latest request.payload.tenantId sid := by
  rcases h.usage_session hs with ⟨_, hs⟩ | ⟨rfl, _⟩ | ⟨p, a, e, rfl, hs, hn, _⟩
  case inl    => exact .inl ⟨_, hs, ht⟩
  case inr.inl => simp [Usage.Phase.Targets, Usage.Phase.held] at ht
  case inr.inr =>
    rcases hn.targets ht with ht | ⟨tenant, o, rfl, rfl, hlat⟩ | ⟨tenant, _, c, cs, rfl, hsk⟩
    · exact .inl ⟨_, hs, ht⟩
    · exact .inr ⟨o, _, rfl, hs, (hl hs : tenant.id = _) ▸ hlat⟩
    · -- A row that ends last is not skipped.
      have hlat : s.db.Latest _ c := ha hs List.mem_cons_self
      obtain ⟨sub, hsub⟩ := hlat.exists_row hw
      exact absurd (hlat.eligible hw hsub) <| (hl hs : tenant.id = _) ▸ hsk sub hsub

theorem aims (hw : db.WellFormed) (h : Undisturbed.Reach (.boot db) s) : s.Aims := by
  refine h.invariant_of (J := engine.Reach (.boot db)) (·.weaken) ?_ ?_
  case refine_1 => simp [State.Aims, Sessions.State.boot]
  case refine_2 =>
    intro s l s' hr ha hu hs id request p sid hp ht
    have hs := Step.of_step hs
    rcases hs.targets (wellFormed hw hr) ha (locals hr) hp ht with
      ⟨q, hq, htq⟩ | ⟨o, q, rfl, hq, hl⟩
    case inl =>
      obtain ⟨hne, hf⟩ := htq.in_progress
      exact hs.latest hu ⟨id, request, q, sid, hq, rfl, htq⟩ (known_tenant hr hq hne hf) (ha hq htq)
    case inr =>
      cases hs.commits
      rwa [‹s'.db = s.db›]

theorem aligned (hw : db.WellFormed) (h : Undisturbed.Reach (.boot db) s) : s.Aligned := by
  refine h.invariant_of (J := Undisturbed.Reach (.boot db)) (fun h => h) ?_ ?_
  case refine_1 => simp [State.Aligned, Sessions.State.boot]
  case refine_2 =>
    intro s l s' hr ha hu hs id id' request request' p p' sid sid' hne hp hp' ht htg htg'
    have hs := Step.of_step hs
    have htgt {id request p' sid} (hp : s'.session id = some (.usage request p'))
        (ht : p'.Targets sid) :=
      hs.targets (wellFormed hw hr.weaken) (aims hw hr) (locals hr.weaken) hp ht
    rcases htgt hp htg with ⟨q, hq, hqt⟩ | ⟨o, q, rfl, hq, hl⟩ <;>
      rcases htgt hp' htg' with ⟨q', hq', hqt'⟩ | ⟨o', q', hl', hq', hlat'⟩
    case inl.inl => exact ha hne hq hq' ht hqt hqt'
    case inl.inr =>
      subst hl'
      exact hu hq' ⟨id, request, q, sid, hq, ht, hqt⟩ (ht ▸ aims hw hr hq hqt) hlat'
    case inr.inl =>
      exact hu hq ⟨id', request', q', sid', hq', ht.symm, hqt'⟩ hl (ht ▸ aims hw hr hq' hqt')
    case inr.inr => cases hl'; contradiction

theorem serialized (hw : db.WellFormed) (h : Undisturbed.Reach (.boot db) s) : s.Serialized := by
  intro id id' request request' p p' sid sid' hp hp' ht hh hh'
  by_contra hne
  have he := aligned hw h hne hp hp' ht (Usage.Phase.targets_of_held hh)
    (Usage.Phase.targets_of_held hh')
  exact hne <| (agrees h.weaken).unique hp hp' hh (he ▸ hh')

theorem rollups_current (hw : db.WellFormed) (h : Undisturbed.Reach (.boot db) s) :
    s.RollupsCurrent := by
  intro id request p check hs
  refine usage_reach h (I := fun db _ request p => p.check? = some check → ∀ type, check.used type =
    usedQuantity db.usageEvents request.payload.tenantId check.subscription.currentPeriodStart
      check.subscription.currentPeriodEnd type) ?init ?received ?acts ?others hs
  case init     => simp [Sessions.State.boot]
  case received => simp [Usage.Phase.check?]
  case acts =>
    intro s s' id request p a p' e hr hp hn hd _ hi hc
    cases hn.writes
    case commit => cases hc
    case none hw =>
      rw [hd, hw]
      rcases hn.check? hc with hc | ⟨tenant, _, _, _, rfl, ha⟩
      · exact hi hc
      · have ht : tenant.id = _ := locals hr.weaken hp |>.left
        rw [ha.selected, ← ht]
        exact ha.used
  case others =>
    intro s s' l id request p hr hs hu hl hp hi hc type
    rw [hi hc]
    cases hs.records
    case same hu => rw [hu.usageEvents]
    case commit id' request' skipped check' event record hp' hd =>
      -- Another request of the same tenant would hold a row as well.
      have ht : event.tenantId ≠ request.payload.tenantId := by
        intro ht
        rw [locals hr.weaken hp' |>.right.left.tenant] at ht
        have hh : .subscription check'.subscription.id ∈
            (Usage.Phase.committing skipped check' event record).held := by
          simp [Usage.Phase.held]
        exact hl <| congrArg some <| serialized hw hr hp' hp ht hh
          (Usage.Phase.held_of_subscription? <| Usage.Phase.subscription?_of_check? hc)
      rw [hd, Write.apply, usedQuantity_append, if_neg fun h => ht h.left, Nat.add_zero]

end Execution

-- Every tenant has one subscription, as `POST /v1/tenants` leaves it.
structure Database.OneEach (db : Database) : Prop where
  tenantIds : db.tenants.map (·.id) |>.Nodup
  rows      : db.subscriptions.map (·.tenantId) = db.tenants.map (·.id)
  plans     : ∀ s ∈ db.subscriptions, (db.plan? s.planId).isSome

namespace Database.OneEach

variable {db db' : Database} {s s' : Subscription}

theorem migrated {plans : List Plan} : (Database.migrated plans).OneEach where
  tenantIds := by simp [Database.migrated]
  rows      := by simp [Database.migrated]
  plans     := by simp [Database.migrated]

theorem unique (h : db.OneEach) (hs : s ∈ db.subscriptions) (hs' : s' ∈ db.subscriptions)
    (ht : s.tenantId = s'.tenantId) : s = s' :=
  List.inj_on_of_nodup_map (h.rows ▸ h.tenantIds) hs hs' ht

theorem congr (h : db.OneEach) (ht : db'.tenants.map (·.id) = db.tenants.map (·.id))
    (hs : db'.subscriptions = db.subscriptions) (hp : db'.plans = db.plans) : db'.OneEach where
  tenantIds := ht ▸ h.tenantIds
  rows      := by rw [hs, ht, h.rows]
  plans     := by simpa only [hs, plan?, hp] using h.plans

theorem operation {op : Operation} (h : db.OneEach) (ho : op.apply db = some db') :
    db'.OneEach := by
  cases Operation.Applies.of_apply ho
  case createTenant hf hc =>
    obtain ⟨plan, hp, rfl⟩ := Router.createTenant_ok hc
    constructor
    case tenantIds => simpa [List.nodup_append, h.tenantIds] using hf
    case rows      => simp [h.rows]
    case plans     =>
      intro s hs
      cases List.mem_append.mp hs
      case inl hs => exact h.plans s hs
      case inr hs =>
        rw [List.mem_singleton.mp hs, plan?, List.find?_isSome]
        exact ⟨plan, (Rows.of_filter_singleton hp).left, by simp⟩
  case linkCustomer    => exact h.congr (Rows.modify_map <| by intro; rfl) rfl rfl
  case setTenantStatus => exact h.congr (Rows.modify_map <| by intro; rfl) rfl rfl

end Database.OneEach

namespace Execution

-- Runs without webhooks.
def NoWebhook (_ : State) : Label → Prop
  | .start _ (.webhook ..) => False
  | _                      => True

abbrev NoWebhook.Reach : State → State → Prop :=
  Transition.Reach engine.step NoWebhook

variable {db : Database} {s s' : State} {l : Label} {plans : List Plan}

theorem no_webhook (h : NoWebhook.Reach (.boot db) s) :
    ∀ id event p, s.session id ≠ some (.webhook event p) := by
  refine h.invariant (I := fun s => ∀ id event p, s.session id ≠ some (.webhook event p)) ?_ ?_
  case refine_1 => simp [Sessions.State.boot]
  case refine_2 =>
    intro s l s' hi hok hs id event p
    have hs := Step.of_step hs
    by_cases ht : l.session? = some id
    case neg => rw [hs.session_eq ht]; exact hi id event p
    case pos =>
      cases hs <;> cases ht
      case receive           => simp
      case deliver           => cases hok
      case usage             => simp [Program.perform]
      case webhook           => exact (hi _ _ _ ‹_›).elim

theorem one_each (h : NoWebhook.Reach (.boot <| .migrated plans) s) : s.db.OneEach := by
  refine h.invariant_of (I := fun s => s.db.OneEach) (J := NoWebhook.Reach _) (fun h => h)
    .migrated ?_
  intro s l s' hr hi _ hst
  cases (Step.of_step hst).commits
  case none hd        => rwa [hd]
  case usage hd       => rw [hd]; exact hi.congr rfl rfl rfl
  case webhook        => exact (no_webhook hr _ _ _ ‹_›).elim
  case operation ho   => exact hi.operation ho

theorem NoWebhook.undisturbed (h : NoWebhook.Reach (.boot <| .migrated plans) s) :
    Undisturbed.Reach (.boot <| .migrated plans) s := by
  refine h.imp fun {s l} hr _ => ?_
  unfold Undisturbed
  split
  case h_1 =>
    intro _ _ _ _ sid sid' hl hl'
    have ⟨r, hm, hi, _⟩   := hl
    have ⟨r', hm', hi', _⟩ := hl'
    have ⟨hm, he⟩   := mem_activeSubscriptions.mp hm
    have ⟨hm', he'⟩ := mem_activeSubscriptions.mp hm'
    rw [← hi, ← hi', one_each hr |>.unique hm hm' (he.left.trans he'.left.symm)]
  case h_2 => intro _ _ _ _ _ hs; exact (no_webhook hr _ _ _ hs).elim
  case h_3 => trivial

theorem checks_serialized (hw : db.WellFormed) (h : Undisturbed.Reach (.boot db) s) :
    s.Serialized ∧ s.RollupsCurrent :=
  ⟨serialized hw h, rollups_current hw h⟩

-- The second request waits for the row that the first one has locked.
theorem checks_serialized_waiting :
    ∃ s : State, s.InProgress 1 ∧ s.Serialized ∧ s.RollupsCurrent := by
  let as := .env (.createTenant 1 { name := "acme" } 0) ::
    checkLabels 10 (.apiCall 1 "a" (by decide)) (.stable _) 1 ++
    (checkLabels 11 (.apiCall 1 "b" (by decide)) (.stable _) 1).take 4
  have hs : Transition.run engine.step (.boot <| .migrated Plan.seeds) as |>.isSome := rfl
  have hr : NoWebhook.Reach _ _ := .of_run_all (Option.some_get hs).symm <| by
    simp [as, checkLabels, NoWebhook]
  exact ⟨_, ⟨10, _, _, 1, rfl, rfl, by exact List.Mem.head _⟩,
    checks_serialized .migrated <| NoWebhook.undisturbed hr⟩

-- A checkout adds a row that ends last, and the next request locks that one.
theorem not_serialized : ∃ s : State, engine.Reach (.boot <| .migrated Plan.seeds) s ∧
    ¬s.Serialized := by
  let as := [.env <| .createTenant 1 { name := "acme" } 0, .env <| .linkCustomer 1 "cus"] ++
    checkLabels 10 (.apiCall 1 "a" (by decide)) (.stable _) 1 ++
    deliveryLabels 20 (.checkout "evt" "cus" "sub") 2 ++
    checkLabels 11 (.apiCall 1 "b" (by decide)) (.stable _) 3
  have hs : Transition.run engine.step (.boot <| .migrated Plan.seeds) as |>.isSome := rfl
  refine ⟨_, .get_run hs, fun h => ?_⟩
  have := @h 10 11 _ _ _ _ _ _ rfl rfl rfl (.head _) (.head _)
  contradiction

end Execution
