import BillingEngine.Execution.Inputs
import BillingEngine.Properties.Serialization

open Sessions QuotaEnforcer MeteringEngine

-- What the sequential code does, once it is known what a request finds.
namespace Router

variable {db : Database} {o : OrderBy} {id : Uuid} {request : UsageRequest} {tenant : Tenant}
  {now timestamp : Instant} {r : IdempotencyRecord} {check : QuotaCheckResult} {error : QuotaError}

theorem recordUsage_unknown (ht : db.tenant? request.payload.tenantId = none) :
    recordUsage db o id request now timestamp =
      (tenantNotFound request.payload.tenantId, db) := by
  simp only [recordUsage, ht]

theorem recordUsage_replay (ht : db.tenant? request.payload.tenantId = some tenant)
    (hr : db.record? request.idempotencyKey = some r) :
    recordUsage db o id request now timestamp = (resultResponse <| replay r, db) := by
  simp only [recordUsage, ht, MeteringEngine.recordUsage, hr, usageResponse]

theorem recordUsage_refuse (ht : db.tenant? request.payload.tenantId = some tenant)
    (hr : db.record? request.idempotencyKey = none)
    (hc : checkAndReserve db o tenant request.payload.eventType (Usage.requested request) now =
      .error error) :
    recordUsage db o id request now timestamp = (raisedResponse <| .quota error, db) := by
  rw [Usage.requested] at hc
  simp only [recordUsage, ht, MeteringEngine.recordUsage, hr, hc, usageResponse]

theorem recordUsage_overflow (ht : db.tenant? request.payload.tenantId = some tenant)
    (hr : db.record? request.idempotencyKey = none)
    (hc : checkAndReserve db o tenant request.payload.eventType (Usage.requested request) now =
      .ok check) (hs : ¬(Usage.event id request tenant timestamp).Storable) :
    recordUsage db o id request now timestamp = (raisedResponse <| .database .dataError, db) := by
  rw [Usage.requested] at hc
  rw [Usage.event] at hs
  simp only [recordUsage, ht, MeteringEngine.recordUsage, hr, hc, hs, not_false_eq_true, if_true,
    usageResponse]

theorem recordUsage_create (ht : db.tenant? request.payload.tenantId = some tenant)
    (hr : db.record? request.idempotencyKey = none) (hk : ¬db.HasKey request.idempotencyKey)
    (hc : checkAndReserve db o tenant request.payload.eventType (Usage.requested request) now =
      .ok check) (hs : (Usage.event id request tenant timestamp).Storable) :
    let e := Usage.event id request tenant timestamp
    recordUsage db o id request now timestamp =
      (resultResponse <| created <| responseBody e check.plan.name,
        (Write.usage e <| newRecord e check.plan.name).apply db) := by
  rw [Usage.requested] at hc
  rw [Usage.event] at hs
  simp only [recordUsage, ht, MeteringEngine.recordUsage, hr, hc, hs, hk, not_true_eq_false,
    if_false, usageResponse]
  rfl

end Router

namespace QuotaEnforcer

variable {db db' : Database} {o : OrderBy} {tenant tenant' : Tenant} {type : EventType}
  {quantity : Nat} {now : Instant}

-- A check depends on the id and the status of the tenant,
theorem checkAndReserve_tenant (hi : tenant'.id = tenant.id) (hs : tenant'.status = tenant.status) :
    checkAndReserve db o tenant' type quantity now =
      checkAndReserve db o tenant type quantity now := by
  simp only [checkAndReserve, inactiveTenant, checkSubscription, hi, hs]

-- and on the tenant's subscriptions and usage, and the plans.
theorem checkAndReserve_congr
    (ha : activeSubscriptions db' tenant.id = activeSubscriptions db tenant.id)
    (hp : db'.plans = db.plans)
    (hu : ∀ periodStart periodEnd type,
      usedQuantity db'.usageEvents tenant.id periodStart periodEnd type =
        usedQuantity db.usageEvents tenant.id periodStart periodEnd type) :
    checkAndReserve db' o tenant type quantity now =
      checkAndReserve db o tenant type quantity now := by
  simp only [checkAndReserve, getLockedActiveSubscription, checkSubscription, Database.plan?,
    sumPeriodUsage, ha, hp, hu]

end QuotaEnforcer

namespace Usage

-- The tenant that a request has loaded still has the same status.
def Loaded (db : Database) (tenant : Tenant) : Prop :=
  ∃ t, db.tenant? tenant.id = some t ∧ t.status = tenant.status

-- The request is going to be admitted.
def Admissible (db : Database) (i : Inputs) (id : Uuid) (request : UsageRequest)
    (check : QuotaCheckResult) (event : UsageEvent) : Prop :=
  ∃ tenant, tenant.id = request.payload.tenantId ∧ Loaded db tenant ∧
    event = Usage.event id request tenant i.timestamp ∧ event.Storable ∧
    checkAndReserve db i.order tenant request.payload.eventType (requested request) i.now =
      .ok check

-- What a request has read is what it would read now, if it started now.
def Phase.Current (db : Database) (i : Inputs) (id : Uuid) (request : UsageRequest) : Phase → Prop
  | reading tenant => Loaded db tenant
  | selecting tenant => Loaded db tenant ∧ tenant.status = .active
  | locking tenant _ candidates => Loaded db tenant ∧ tenant.status = .active ∧
    candidates = (i.order.sort (activeSubscriptions db tenant.id)).map (·.id)
  | checking tenant _ subscription => Loaded db tenant ∧ tenant.status = .active ∧
    getLockedActiveSubscription db i.order tenant.id = some subscription
  | inserting tenant _ check _ => Loaded db tenant ∧
    checkAndReserve db i.order tenant request.payload.eventType (requested request) i.now =
      .ok check
  | recording _ check event => Admissible db i id request check event
  | committing _ check event record => Admissible db i id request check event ∧
    record = newRecord event check.plan.name
  | conflicting _ | rereading => False
  | _ => True

-- The request has selected the rows that it may lock, and has not been answered yet.
def Phase.selected : Phase → Bool
  | locking .. | checking .. | inserting .. | recording .. | committing .. | refusing ..
  | conflicting _ => true
  | _ => false

-- The request has found its key unused, and has not been decided yet.
def Phase.fresh : Phase → Bool
  | selecting _ | locking .. | checking .. | inserting .. | recording .. | committing .. => true
  | _ => false

variable {db db' : Database} {i : Inputs} {id : Uuid} {request : UsageRequest} {p p' : Phase}
  {a : Action} {e : Effect Resource Write} {tenant : Tenant} {op : Operation}
  {check : QuotaCheckResult} {event : UsageEvent}

theorem Loaded.tenant?_isSome (h : Loaded db tenant) : (db.tenant? tenant.id).isSome := by
  have ⟨_, ht, _⟩ := h
  simp [ht]

theorem event_congr {t : Tenant} {timestamp : Instant} (hi : t.id = tenant.id) :
    Usage.event id request t timestamp = Usage.event id request tenant timestamp := by
  rw [Usage.event, Usage.event, hi]

-- A check of the loaded tenant is a check of its current row.
theorem Loaded.current (h : Loaded db tenant) (hi : tenant.id = request.payload.tenantId) :
    ∃ t, db.tenant? request.payload.tenantId = some t ∧ t.id = tenant.id ∧
      ∀ o type quantity now, checkAndReserve db o t type quantity now =
        checkAndReserve db o tenant type quantity now := by
  obtain ⟨t, ht, hs⟩ := h
  have hid : t.id = tenant.id := Rows.find?_key_mem ht |>.right
  exact ⟨t, hi ▸ ht, hid, fun _ _ _ _ => checkAndReserve_tenant hid hs⟩

theorem Loaded.modify {tenantId : Uuid} {f : Tenant → Tenant} (h : Loaded db tenant)
    (ht : db'.tenants = Rows.modify Tenant.id tenantId f db.tenants) (hi : ∀ t, (f t).id = t.id)
    (hs : tenantId = tenant.id → ∀ t, (f t).status = t.status) : Loaded db' tenant := by
  obtain ⟨t, hm, hst⟩ := h
  refine ⟨if t.id = tenantId then f t else t, ?_, ?_⟩
  · rw [Database.tenant?, ht, Rows.find?_modify hi, ← Database.tenant?, hm]
    rfl
  · split
    case isTrue he => rw [hs (he.symm.trans <| Rows.find?_key_mem hm |>.right), hst]
    case isFalse   => exact hst

theorem Loaded.operation (h : Loaded db tenant) (ho : op.apply db = some db')
    (hs : ∀ status, op ≠ .setTenantStatus tenant.id status) : Loaded db' tenant := by
  cases Operation.Applies.of_apply ho
  case createTenant hc =>
    have ⟨t, ht, hst⟩ := h
    obtain ⟨_, _, rfl⟩ := Router.createTenant_ok hc
    exact ⟨t, by simpa [Database.tenant?, List.find?_append] using .inl ht, hst⟩
  case linkCustomer => exact h.modify rfl (fun _ => rfl) fun _ _ => rfl
  case setTenantStatus status =>
    refine h.modify rfl (fun _ => rfl) fun hi => ?_
    subst hi
    exact absurd rfl <| hs status

theorem Loaded.applyWebhook {m pt w} (h : Loaded db tenant) :
    Loaded (db.applyWebhook m pt w) tenant := by
  have ht : (db.applyWebhook m pt w).tenants = _ := Database.applyWebhook_tenants
  cases pt
  case none =>
    have ⟨t, hm, hst⟩ := h
    exact ⟨t, by rw [Database.tenant?, ht]; exact hm, hst⟩
  case some => exact h.modify ht (fun _ => rfl) fun _ _ => rfl

theorem Admissible.congr (h : Admissible db i id request check event)
    (hl : ∀ {tenant}, tenant.id = request.payload.tenantId → Loaded db tenant → Loaded db' tenant)
    (ha : activeSubscriptions db' request.payload.tenantId =
      activeSubscriptions db request.payload.tenantId)
    (hp : db'.plans = db.plans)
    (hu : ∀ periodStart periodEnd type,
      usedQuantity db'.usageEvents request.payload.tenantId periodStart periodEnd type =
        usedQuantity db.usageEvents request.payload.tenantId periodStart periodEnd type) :
    Admissible db' i id request check event := by
  have ⟨tenant, hi, ht, he, hs, hc⟩ := h
  exact ⟨tenant, hi, hl hi ht, he, hs, (checkAndReserve_congr (hi ▸ ha) hp (hi ▸ hu)).trans hc⟩

-- A request relies on what it has loaded, on the rows that it has selected, and once it has been
-- checked, on the usage of its tenant.
theorem Phase.Current.congr (h : p.Current db i id request) (hlocal : p.Local id request)
    (hl : ∀ {tenant}, tenant.id = request.payload.tenantId → Loaded db tenant → Loaded db' tenant)
    (ha : p.selected → activeSubscriptions db' request.payload.tenantId =
      activeSubscriptions db request.payload.tenantId)
    (hp : db'.plans = db.plans)
    (hu : p.check?.isSome → ∀ periodStart periodEnd type,
      usedQuantity db'.usageEvents request.payload.tenantId periodStart periodEnd type =
        usedQuantity db.usageEvents request.payload.tenantId periodStart periodEnd type) :
    p.Current db' i id request := by
  cases p <;> simp only [Current] at h ⊢
  case reading   => exact hl hlocal h
  case selecting => exact ⟨hl hlocal h.left, h.right⟩
  case locking   =>
    obtain ⟨ht, hs, hc⟩ := h
    exact ⟨hl hlocal ht, hs, by rw [hlocal, ha rfl, ← hlocal, hc]⟩
  case checking tenant _ _ =>
    obtain ⟨ht, hs, hc⟩ := h
    have ha : activeSubscriptions db' tenant.id = _ := hlocal.left ▸ ha rfl
    exact ⟨hl hlocal.left ht, hs, by rw [getLockedActiveSubscription, ha]; exact hc⟩
  case inserting =>
    obtain ⟨ht, hc⟩ := h
    exact ⟨hl hlocal.left ht,
      (checkAndReserve_congr (hlocal.left ▸ ha rfl) hp (hlocal.left ▸ hu rfl)).trans hc⟩
  case recording  => exact h.congr hl (ha rfl) hp (hu rfl)
  case committing => exact ⟨h.left.congr hl (ha rfl) hp (hu rfl), h.right⟩

-- The first candidate can be locked.
theorem exists_candidate {o : OrderBy} {tenantId : Uuid} {candidate : Nat} {candidates : List Nat}
    (hw : db.WellFormed)
    (h : candidate :: candidates = (o.sort (activeSubscriptions db tenantId)).map (·.id)) :
    ∃ s, getLockedActiveSubscription db o tenantId = some s ∧
      db.subscription? candidate = some s ∧ Eligible tenantId s := by
  obtain ⟨s, tl, hs, rfl, _⟩ := List.map_eq_cons_iff.mp h.symm
  have hl : getLockedActiveSubscription db o tenantId = some s := by
    rw [getLockedActiveSubscription, hs, List.head?_cons]
  obtain ⟨hm, he⟩ := mem_activeSubscriptions.mp <| Rows.Descending.head_mem hl
  exact ⟨s, hl, hw.subscription?_of_mem hm, he⟩

theorem Next.current (h : Next db id request p a p' e) (hw : db.WellFormed) (hd : db.Ledger)
    (hlocal : p.Local id request) (hf : p.fresh → db.record? request.idempotencyKey = none)
    (ha : i.Allows (.usage a)) (hc : p.Current db i id request) : p'.Current db i id request := by
  have hkey (hf : db.record? request.idempotencyKey = none) : ¬db.HasKey request.idempotencyKey :=
    fun hk => by simpa [Database.responses, hf] using hd.responses_isSome.mpr hk
  cases h <;> simp only [Phase.Current] at hc ⊢
  case getTenant ht => exact ⟨_, by rw [Rows.find?_key_mem ht |>.right]; exact ht, rfl⟩
  case miss hs      => exact ⟨hc, hs⟩
  case select o     => exact ⟨hc.left, hc.right, by rw [(ha : o = _)]⟩
  case skip hs =>
    obtain ⟨_, _, hc⟩ := hc
    obtain ⟨sub, _, hsub, he⟩ := exists_candidate hw hc
    exact absurd he <| hs sub hsub
  case lock hs _ =>
    obtain ⟨ht, hst, hc⟩ := hc
    obtain ⟨sub, hl, hsub, _⟩ := exists_candidate hw hc
    exact ⟨ht, hst, hl.trans <| hsub.symm.trans hs⟩
  case reserve now _ hr =>
    obtain ⟨ht, hst, hc⟩ := hc
    rw [(ha : now = _)] at hr
    exact ⟨ht, by simpa [checkAndReserve, hst, hc] using hr⟩
  case insertEvent timestamp hn hs _ =>
    rw [(ha : timestamp = _)] at hs ⊢
    exact ⟨_, hlocal.left, hc.left, rfl, hs, hc.right⟩
  case duplicateEvent hk => exact hkey (hf rfl) hk
  case duplicateRecord hr =>
    rw [hlocal.right.key] at hr
    cases (hf rfl).symm.trans hr
  case insertRecord => exact ⟨hc, trivial⟩

theorem Next.fresh (h : Next db id request p a p' e)
    (hf : p.fresh → db.record? request.idempotencyKey = none) :
    p'.fresh → db.record? request.idempotencyKey = none := by
  intro hp
  cases h
  case miss hr _ => exact hr
  all_goals first | exact hf rfl | cases hp

theorem Phase.unfinished_of_fresh (h : p.fresh) : p.finished = false := by
  cases p <;> first | rfl | cases h

-- The answer that has been decided on.
def Phase.response : Phase → Option HttpResponse
  | refusing _ raised                       => Router.raisedResponse raised
  | responding response | answered response => response
  | _                 => none

-- A step decides on an answer, which is the one of the sequential code, or changes nothing.
inductive Next.Serves (db : Database) (i : Inputs) (id : Uuid) (request : UsageRequest)
    (p p' : Phase) (e : Effect Resource Write) : Prop
  | served {response} (hp : p.response = none) (hr : p'.response = some response)
    (hs : Router.recordUsage db i.order id request i.now i.timestamp =
      (response, engine.write e db)) : Serves db i id request p p' e
  | quiet (hr : p'.response = p.response) (hw : engine.write e db = db) :
    Serves db i id request p p' e
  | crashed (hc : p' = .crashed) (hw : engine.write e db = db) : Serves db i id request p p' e

theorem Next.serves (h : Next db id request p a p' e) (hd : db.Ledger)
    (hlocal : p.Local id request) (hf : p.fresh → db.record? request.idempotencyKey = none)
    (ha : i.Allows (.usage a)) (hc : p.Current db i id request) :
    Serves db i id request p p' e := by
  cases h
  case unknownTenant ht => exact .served rfl rfl (Router.recordUsage_unknown ht)
  case replay hr =>
    obtain ⟨t, ht, _⟩ := hc.current hlocal
    exact .served rfl rfl (Router.recordUsage_replay ht hr)
  case inactive hr hs =>
    obtain ⟨t, ht, _, hcheck⟩ := hc.current hlocal
    have hno := hcheck i.order request.payload.eventType (requested request) i.now |>.trans <|
      if_pos hs
    exact .served rfl rfl (Router.recordUsage_refuse ht hr hno)
  case noCandidate =>
    obtain ⟨hl, hactive, hnil⟩ := hc
    obtain ⟨t, ht, _, hcheck⟩ := hl.current hlocal
    have hno : checkAndReserve db i.order t request.payload.eventType (requested request) i.now =
        .error noActiveSubscription := by
      rw [hcheck]
      simp [checkAndReserve, hactive, getLockedActiveSubscription, List.map_eq_nil_iff.mp hnil.symm]
    exact .served rfl rfl (Router.recordUsage_refuse ht (hf rfl) hno)
  case refuse now error hno =>
    obtain ⟨hl, hactive, hlock⟩ := hc
    obtain ⟨t, ht, _, hcheck⟩ := hl.current hlocal.left
    rw [(ha : now = _)] at hno
    have hno : checkAndReserve db i.order t request.payload.eventType (requested request) i.now =
        .error error := by
      rw [hcheck]
      simpa [checkAndReserve, hactive, hlock] using hno
    exact .served rfl rfl (Router.recordUsage_refuse ht (hf rfl) hno)
  case overflow timestamp hn hstore =>
    obtain ⟨hl, hok⟩ := hc
    obtain ⟨t, ht, hi, hcheck⟩ := hl.current hlocal.left
    rw [(ha : timestamp = _), ← event_congr hi] at hstore
    exact .served rfl rfl
      (Router.recordUsage_overflow ht (hf rfl) (hcheck .. |>.trans hok) hstore)
  case commit =>
    obtain ⟨⟨tenant, hid, hl, rfl, hstore, hok⟩, rfl⟩ := hc
    obtain ⟨t, ht, hi, hcheck⟩ := hl.current hid
    rw [← event_congr hi] at hstore ⊢
    have hk : ¬db.HasKey request.idempotencyKey :=
      fun hk => by simpa [Database.responses, hf rfl] using hd.responses_isSome.mpr hk
    exact .served rfl rfl
      (Router.recordUsage_create ht (hf rfl) hk (hcheck .. |>.trans hok) hstore)
  case reread => exact hc.elim
  case crash  => exact .crashed rfl rfl
  all_goals exact .quiet rfl rfl

end Usage
namespace Execution

-- (1) Requests with the same key do not overlap,
-- (2) a tenant is not suspended or reactivated while it has a request in progress,
-- (3) no request selects a row if several subscriptions of the tenant end last, while another one
--     of the tenant is in progress, and
-- (4) no webhook changes the active subscriptions of a tenant of which a request has selected a
--     row.
def Steady (s : State) : Label → Prop
  | .start _ (.usage request _) => ∀ ⦃id request' p⦄, s.session id = some (.usage request' p) →
    request'.idempotencyKey = request.idempotencyKey → p.finished
  | .env (.setTenantStatus tenantId _) => ∀ ⦃id request p⦄,
    s.session id = some (.usage request p) → request.payload.tenantId = tenantId → p.finished
  | .act id (.usage (.select _)) => ∀ ⦃request p⦄, s.session id = some (.usage request p) →
    s.InProgress request.payload.tenantId → ∀ ⦃sid sid'⦄,
      s.db.Latest request.payload.tenantId sid → s.db.Latest request.payload.tenantId sid' →
      sid = sid'
  | .act id (.webhook .commit) => ∀ ⦃event m pt write result⦄,
    s.session id = some (.webhook event <| .committing m pt write result) →
    ∀ ⦃id request p⦄, s.session id = some (.usage request p) → p.selected →
      activeSubscriptions (s.db.applyWebhook m pt write) request.payload.tenantId =
        activeSubscriptions s.db request.payload.tenantId
  | _ => True

abbrev Steady.Reach : State → State → Prop :=
  Transition.Reach engine.step Steady

-- The runs in which the sessions read the given inputs.
abbrev Steady.Reading (inputs : Uuid → Inputs) : State → State → Prop :=
  Transition.Reach engine.step fun s l => Steady s l ∧ Reads inputs l

variable {db : Database} {inputs : Uuid → Inputs} {s s' : State} {l : Label} {id : Uuid}
  {request : UsageRequest} {p : Usage.Phase}

theorem Steady.Reading.reach (h : Steady.Reading inputs s s') : Steady.Reach s s' :=
  h.imp fun _ ho => ho.left

theorem Steady.undisturbed (h : Steady.Reach (.boot db) s) : Undisturbed.Reach (.boot db) s := by
  refine h.imp fun {s l} _ hs => ?_
  unfold Undisturbed
  split
  case h_1 => exact fun hr hp _ _ hl hl' => hs hr hp hl hl'
  case h_2 =>
    rintro event m pt write result hc _ ⟨id, request, p, sid, hr, rfl, ht⟩ _ hl
    refine Database.Latest.congr (hs hc hr ?_) |>.mpr hl
    cases p <;> simp_all [Usage.Phase.Targets, Usage.Phase.selected, Usage.Phase.held]
  case h_3 => trivial

-- An unfinished request has just arrived, or has been unfinished before.
theorem Step.unfinished (h : Step s l s') (hs : s'.session id = some (.usage request p))
    (hf : p.finished = false) : l = .start id (.usage request .received) ∨
      ∃ p, s.session id = some (.usage request p) ∧ p.finished = false := by
  by_cases ht : l.session? = some id
  case neg => exact .inr ⟨p, h.session_eq ht |>.symm.trans hs, hf⟩
  case pos =>
    cases h <;> cases ht
    case receive => simp only [Function.update_self] at hs; cases hs; exact .inl rfl
    case deliver => simp at hs
    case usage hp hn _ =>
      simp only [Program.perform, Function.update_self] at hs
      cases hs
      exact .inr ⟨_, hp, hn.unfinished⟩
    case webhook => simp [Program.perform] at hs

-- At most one unfinished request has a given key.
theorem Steady.unshared (h : Steady.Reach (.boot db) s) {id' request' p'}
    (hs : s.session id = some (.usage request p)) (hs' : s.session id' = some (.usage request' p'))
    (hk : request.idempotencyKey = request'.idempotencyKey) (hf : p.finished = false)
    (hf' : p'.finished = false) : id = id' := by
  induction h generalizing id request p id' request' p'
  case refl => cases hs
  case tail s₁ _ l _ hq hst hi =>
    replace hst := Step.of_step hst
    rcases hst.unfinished hs hf with rfl | ⟨q, hq₁, hf₁⟩ <;>
      rcases hst.unfinished hs' hf' with hl | ⟨q', hq₂, hf₂⟩
    case inl.inl => cases hl; rfl
    case inl.inr => simp [hq hq₂ hk.symm] at hf₂
    case inr.inl => subst hl; simp [hq hq₁ hk] at hf₁
    case inr.inr => exact hi hq₁ hq₂ hk hf₁ hf₂

-- What holds in such a run.

theorem Steady.fresh (h : Steady.Reach (.boot db) s) (hs : s.session id = some (.usage request p)) :
    p.fresh → s.db.record? request.idempotencyKey = none := by
  refine usage_reach h (I := fun db _ request p => p.fresh →
    db.record? request.idempotencyKey = none) ?init ?received ?acts ?others hs
  case init     => simp [Sessions.State.boot]
  case received => simp [Usage.Phase.fresh]
  case acts =>
    intro s s' id request p a p' e _ _ hn hd _ hi
    cases hn.writes
    case none hw => rw [hd, hw]; exact hn.fresh hi
    case commit  => simp [Usage.Phase.fresh]
  case others =>
    rintro s s' l id request p hr hst - ht hs hi hf
    cases hst.records
    case same hu => simpa only [Database.record?, hu.records] using hi hf
    case commit id' request' check event record hs' hd =>
      obtain ⟨_, ho, rfl⟩ := locals hr.weaken hs'
      have hne : event.idempotencyKey ≠ request.idempotencyKey := by
        rw [ho.key]
        intro hk
        exact ht <| congrArg some <| unshared hr hs' hs hk rfl <| Usage.Phase.unfinished_of_fresh hf
      simpa [hd, Write.apply, Database.record?, newRecord, hne] using hi hf

theorem Steady.current (hw : db.WellFormed) (hl : db.Ledger)
    (h : Steady.Reading inputs (.boot db) s) (hs : s.session id = some (.usage request p)) :
    p.Current s.db (inputs id) id request := by
  refine usage_reach h (I := fun db id request p => p.Current db (inputs id) id request)
    ?init ?received ?acts ?others hs
  case init     => simp [Sessions.State.boot]
  case received => intros; trivial
  case acts =>
    intro s s' id request p a p' e hr hs hn hd ho hi
    cases hn.writes
    case commit   => trivial
    case none hwr =>
      rw [hd, hwr]
      exact hn.current (wellFormed hw hr.weaken) (sound hl hr.weaken).ledger (locals hr.weaken hs)
        (fresh (Reading.reach hr) hs) ho.right hi
  case others =>
    intro s s' l id request p hr hst hq ht hs hi
    have hlocal := locals hr.weaken hs
    cases hst.commits
    case none hd => rwa [hd]
    case webhook hs' hd _ =>
      rw [hd]
      exact hi.congr hlocal (fun _ => (·.applyWebhook)) (hq.left hs' hs) (by simp) (by simp)
    case operation op ho =>
      by_cases hf : p.finished
      case pos => cases p <;> trivial
      case neg =>
        refine hi.congr hlocal (fun hi hl => hl.operation ho ?_) (fun hsel => ?_) (op.plans ho) ?_
        · rintro status rfl
          exact hf <| hq.left hs hi.symm
        · refine Operation.activeSubscriptions ho <| known_tenant hr.weaken hs ?_ ?_
          · rintro rfl
            cases hsel
          · exact Bool.eq_false_of_not_eq_true hf
        · intros
          rw [(Operation.sameUsage ho).usageEvents]
    case usage id' request' check event record hs' hd =>
      refine hi.congr hlocal (by rw [hd]; exact fun _ h => h) (by rw [hd]; intros; rfl)
        (by rw [hd]; rfl) ?_
      intro hc periodStart periodEnd type
      obtain ⟨check', hc⟩ := Option.isSome_iff_exists.mp hc
      -- Another request of the same tenant would hold a row as well.
      have hne : event.tenantId ≠ request.payload.tenantId := by
        rw [locals hr.weaken hs' |>.right.left.tenant]
        intro htenant
        refine ht <| congrArg some <| serialized hw (undisturbed <| Reading.reach hr) hs' hs htenant
          (.tail _ <| .tail _ <| .head _)
          (Usage.Phase.held_of_subscription? <| Usage.Phase.subscription?_of_check? hc)
      rw [hd, Write.apply, usedQuantity_append, if_neg fun h => hne h.left, Nat.add_zero]

theorem Steady.serves (hw : db.WellFormed) (hl : db.Ledger)
    (h : Steady.Reading inputs (.boot db) s) (hs : s.session id = some (.usage request p)) {a p' e}
    (ha : (inputs id).Allows (.usage a)) (hn : Usage.Next s.db id request p a p' e) :
    Usage.Next.Serves s.db (inputs id) id request p p' e :=
  hn.serves (sound hl h.weaken).ledger (locals h.weaken hs) (fresh h.reach hs) ha
    (current hw hl h hs)

end Execution
