import BillingEngine.Properties.Deadlock

open Sessions QuotaEnforcer

-- Who a usage request can have to wait for.

-- The row belongs to the tenant.
def Database.OwnRow (db : Database) (tenantId : Uuid) (sid : Nat) : Prop :=
  ∃ sub, db.subscription? sid = some sub ∧ sub.tenantId = tenantId

-- The resources that concern a request.
def Resource.Of (db : Database) (request : UsageRequest) : Resource → Prop
  | usageKey key | recordKey key => key = request.idempotencyKey
  | subscription sid             => db.OwnRow request.payload.tenantId sid
  | _                            => False

namespace Database

variable {db db' : Database} {tenantId : Uuid} {row : Option Nat} {sid : Nat}

-- Rows never move to another tenant.
theorem RowChange.ownRow (h : db.RowChange row db') (ho : db.OwnRow tenantId sid) :
    db'.OwnRow tenantId sid := by
  have ⟨sub, hs, ht⟩ := ho
  by_cases hr : row = some sid
  case neg => exact ⟨sub, h.subscription?_eq hr hs, ht⟩
  case pos =>
    cases h <;> cases hr
    case update c _ _ =>
      refine ⟨if sub.id = sid then c.apply sub else sub, ?_, ?_⟩
      · rw [subscription?, ‹db'.subscriptions = _›,
          Rows.find?_modify fun _ => SubscriptionChanges.apply_id, ← subscription?, hs]
        rfl
      · split <;> exact ht

theorem WellFormed.ownRow {sub : Subscription} (hw : db.WellFormed) (hm : sub ∈ db.subscriptions) :
    db.OwnRow sub.tenantId sub.id :=
  ⟨sub, hw.subscription?_of_mem hm, rfl⟩

end Database

namespace Usage

-- The resources that a request holds, or is going to ask for after it has chosen them.
def Phase.claims : Phase → List Resource
  | locking _ skipped candidates => (skipped ++ candidates).map .subscription
  | p                            => p.held

theorem Phase.held_subset_claims {p : Phase} : p.held ⊆ p.claims := by
  cases p
  case locking => exact List.map_subset _ <| List.subset_append_left ..
  all_goals exact List.Subset.refl _

variable {db : Database} {id : Uuid} {request : UsageRequest} {p p' : Phase} {a : Action}
  {e : Effect Resource Write} {x : Resource}

-- A request waits for what concerns it only,
theorem Next.wants (h : Next db id request p a p' e) (hl : p.Local id request)
    (hp : ∀ y ∈ p.claims, y.Of db request) (hx : e.Wants x) : x.Of db request := by
  cases h <;> simp only [Effect.Wants, reduceCtorEq, Effect.acquire.injEq] at hx
  case skip         => exact hx ▸ hp _ (by simp [Phase.claims])
  case lock         => exact hx ▸ hp _ (by simp [Phase.claims])
  case insertEvent  => exact hx ▸ rfl
  case insertRecord => exact hx ▸ hl.right.key

theorem Phase.mem_claims {p : Phase} (hx : x ∈ p.claims) :
    x ∈ p.held ∨ ∃ tenant skipped candidates, p = .locking tenant skipped candidates := by
  cases p <;> first | exact .inl hx | exact .inr ⟨_, _, _, rfl⟩

-- and so it holds nothing else.
theorem Next.claims (h : Next db id request p a p' e) (hw : db.WellFormed)
    (hl : p.Local id request) (hp : ∀ y ∈ p.claims, y.Of db request) :
    ∀ y ∈ p'.claims, y.Of db request := by
  intro y hy
  rcases Phase.mem_claims hy with hh | ⟨tenant', skipped', candidates', rfl⟩
  case inl =>
    cases Effect.held_or_wants <| h.held y |>.mp hh
    case inl hh => exact hp y <| Phase.held_subset_claims hh
    case inr hx => exact h.wants hl hp hx
  case inr =>
    cases h
    case skip =>
      refine hp y ?_
      simp only [Phase.claims, List.map_append, List.map_cons, List.cons_append, List.mem_cons,
        List.mem_append] at hy ⊢
      tauto
    case select o =>
      simp only [Phase.claims, List.nil_append, List.map_map, List.mem_map] at hy
      obtain ⟨sub, hs, rfl⟩ := hy
      obtain ⟨hm, ht, _⟩ := mem_activeSubscriptions.mp <| o.mem_sort.mp hs
      have ho : db.OwnRow sub.tenantId sub.id := hw.ownRow hm
      rwa [ht, (hl : tenant'.id = _)] at ho

end Usage

namespace Webhook

variable {db : Database} {event : WebhookEvent} {p p' : Phase} {a : Action}
  {e : Effect Resource Write} {x : Resource}

-- A delivery does not touch the keys of requests.
theorem Next.not_key (h : Next db event p a p' e) {key : String}
    (hp : ∀ y ∈ p.held, y ≠ .usageKey key ∧ y ≠ .recordKey key) :
    ∀ y ∈ p'.held, y ≠ .usageKey key ∧ y ≠ .recordKey key := by
  intro y hy
  cases Effect.held_or_wants <| h.held y |>.mp hy
  case inl hh => exact hp y hh
  case inr hx =>
    cases h <;> simp only [Effect.Wants, reduceCtorEq, Effect.acquire.injEq] at hx
    case mark => subst hx; simp
    case flushTenant work _ =>
      cases hw : work.planType <;> simp_all [acquire]
      subst hx
      simp
    case flushSubscription write _ =>
      rcases write with _ | ⟨_, _ | _⟩ | _ <;> simp_all [acquire, writeLock]
      all_goals subst hx; simp

end Webhook

namespace Execution

variable {db : Database} {s s' : State} {l : Label} {id : Uuid} {request : UsageRequest}
  {tenantId : Uuid} {sid : Nat} {x : Resource}

theorem Step.ownRow (h : Step s l s') (ho : s.db.OwnRow tenantId sid) :
    s'.db.OwnRow tenantId sid :=
  have ⟨_, hr, _⟩ := h.rowChange
  hr.ownRow ho

theorem Step.resource_of (h : Step s l s') (hx : x.Of s.db request) : x.Of s'.db request := by
  cases x
  case subscription => exact h.ownRow hx
  all_goals exact hx

-- What requests hold or wait for in the reachable states.
theorem claims (hw : db.WellFormed) (h : engine.Reach (.boot db) s) {p}
    (hs : s.session id = some (.usage request p)) : ∀ y ∈ p.claims, y.Of s.db request := by
  refine usage_reach h (I := fun db _ request p => ∀ y ∈ p.claims, y.Of db request)
    ?init ?received ?acts ?others hs
  case init     => simp [Sessions.State.boot]
  case received => simp [Usage.Phase.claims, Usage.Phase.held]
  case acts =>
    intro s s' id request p a p' e hr hp hn hd _ hi
    cases hn.writes
    case none ha => rw [hd, ha]; exact hn.claims (wellFormed hw hr) (locals hr hp) hi
    case commit  => simp [Usage.Phase.claims, Usage.Phase.held]
  case others =>
    intro _ _ _ _ _ _ _ hst _ _ _ hi y hy
    exact hst.resource_of <| hi y hy

theorem delivery_not_key (h : engine.Reach (.boot db) s) {event p}
    (hs : s.session id = some (.webhook event p)) {key : String} :
    ∀ y ∈ p.held, y ≠ .usageKey key ∧ y ≠ .recordKey key :=
  webhook_reach h (I := fun _ _ _ p => ∀ y ∈ p.held, y ≠ .usageKey key ∧ y ≠ .recordKey key)
    (by simp [Sessions.State.boot]) (by simp [Webhook.Phase.held])
    (fun _ _ hn _ _ hi => hn.not_key hi) (fun _ _ _ _ _ hi => hi) hs

end Execution

-- The sessions that a request may wait for: requests of the same tenant or under the same key, and
-- deliveries which update a subscription of the tenant.
def Session.MayBlock (db : Database) (request : UsageRequest) : Session → Prop
  | usage request' p => p.finished = false ∧
    (request'.payload.tenantId = request.payload.tenantId ∨
      request'.idempotencyKey = request.idempotencyKey)
  | webhook _ p => p.finished = false ∧
    ∃ sid, .subscription sid ∈ p.held ∧ db.OwnRow request.payload.tenantId sid

namespace Execution

variable {db : Database} {s : State} {id : Uuid} {request : UsageRequest} {p p' : Usage.Phase}
  {a : Usage.Action} {e : Effect Resource Write}

theorem mayBlock_of_holds (hw : db.WellFormed) (h : engine.Reach (.boot db) s) {x : Resource}
    (hx : x.Of s.db request) {id' session'} (hs : s.session id' = some session')
    (hh : holds session' x) : session'.MayBlock s.db request := by
  cases session'
  case usage request' p' =>
    refine ⟨unfinished_of_holds hh, ?_⟩
    have hx' : x.Of s.db request' := claims hw h hs x <| Usage.Phase.held_subset_claims hh
    cases x
    case usageKey | recordKey => exact .inr <| (hx' : _ = _).symm.trans hx
    case subscription =>
      obtain ⟨sub, hsub, ht⟩   := hx
      obtain ⟨sub', hsub', ht'⟩ := hx'
      cases hsub.symm.trans hsub'
      exact .inl <| ht'.symm.trans ht
    all_goals exact hx.elim
  case webhook event p' =>
    refine ⟨unfinished_of_holds hh, ?_⟩
    have hk (key : String) : x ≠ .usageKey key ∧ x ≠ .recordKey key := delivery_not_key h hs x hh
    cases x
    case subscription sid => exact ⟨sid, hh, hx⟩
    case usageKey key     => exact absurd rfl (hk key).left
    case recordKey key    => exact absurd rfl (hk key).right
    all_goals exact hx.elim

-- A request that can not take its next step waits for one of these, whatever else is going on.
theorem blocked_by (hw : db.WellFormed) (h : engine.Reach (.boot db) s)
    (hs : s.session id = some (.usage request p)) (hn : Usage.Next s.db id request p a p' e)
    (hb : engine.step s (.act id <| .usage a) = none) :
    ∃ id' session', id' ≠ id ∧ s.session id' = some session' ∧ session'.MayBlock s.db request := by
  have hg : ¬s.Grants id e := by
    intro hg
    simp [step_usage hs hn.to_next hg] at hb
  obtain ⟨x, id', hne, hx, hh⟩ := State.blocked hg
  obtain ⟨session', hs', hheld⟩ := agrees h x id' |>.mp hh
  have hof : x.Of s.db request := hn.wants (locals h hs) (claims hw h hs) hx
  exact ⟨id', session', hne, hs', mayBlock_of_holds hw h hof hs' hheld⟩

-- Requests of other tenants can not delay the one that waits.
theorem blocked_by_own_tenant : ∃ s : State, (engine.step s (.act 12 <| .usage .lock)).isNone ∧
    ∃ id' session', id' ≠ 12 ∧ s.session id' = some session' ∧
      session'.MayBlock s.db (.apiCall 1 "c" (by decide)) := by
  let as := [.env <| .createTenant 1 { name := "acme" } 0,
      .env <| .createTenant 2 { name := "umbrella" } 0] ++
    checkLabels 10 (.apiCall 1 "a" (by decide)) (.stable _) 1 ++
    checkLabels 11 (.apiCall 2 "b" (by decide)) (.stable _) 1 ++
    (checkLabels 12 (.apiCall 1 "c" (by decide)) (.stable _) 1).take 4
  have hs : Transition.run engine.step (.boot <| .migrated Plan.seeds) as |>.isSome := rfl
  let s : State := (Transition.run engine.step (.boot <| .migrated Plan.seeds) as).get hs
  let tenant : Tenant := ⟨1, "acme", .free, none, .active⟩
  let subscription : Subscription := ⟨1, 1, none, 1, .active, 0, 2592000000000⟩
  have hsession : s.session 12 =
    some (.usage (.apiCall 1 "c" (by decide)) <| .locking tenant [] [1]) := rfl
  have hn : Usage.Next s.db 12 (.apiCall 1 "c" (by decide)) (.locking tenant [] [1]) .lock
    (.checking tenant [] subscription) (.acquire <| .subscription 1) := .lock rfl ⟨rfl, rfl⟩
  exact ⟨s, rfl, blocked_by .migrated (.get_run hs) hsession hn rfl⟩

end Execution
