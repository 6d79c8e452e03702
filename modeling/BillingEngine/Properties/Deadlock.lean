import BillingEngine.Library.Termination
import BillingEngine.Execution.Serial

open Sessions Relation

-- The order in which requests and deliveries acquire their resources.
def Resource.rank : Resource → Nat
  | webhookId _            => 0
  | tenant _               => 1
  | subscription _         => 2
  | stripeSubscriptionId _ => 3
  | usageKey _             => 3
  | recordKey _            => 4

-- The effect waits at most for a resource that comes after the held ones.
def Ascends (held : List Resource) (e : Effect Resource Write) : Prop :=
  ∀ x, e.Wants x → ∀ y ∈ held, y.rank < x.rank

@[simp]
theorem ascends_stay {held : List Resource} : Ascends held .stay := by
  simp [Ascends, Effect.Wants]

theorem ascends_rollback {held : List Resource} : Ascends held .rollback := by
  simp [Ascends, Effect.Wants]

theorem ascends_commit {held : List Resource} {w : Write} : Ascends held (.commit w) := by
  simp [Ascends, Effect.Wants]

theorem ascends_nil {e : Effect Resource Write} : Ascends [] e := by
  simp [Ascends]

theorem ascends_acquire {held : List Resource} {x : Resource}
    (h : ∀ y ∈ held, y.rank < x.rank) : Ascends held (.acquire x) := by
  rintro _ hw
  cases hw
  exact h

-- A request keeps the row `y`, which it has skipped, and waits for the row `x`.
def Usage.Phase.Waits (y x : Resource) : Phase → Prop
  | locking _ skipped (candidate :: _) =>
    y ∈ skipped.map .subscription ∧ x = .subscription candidate
  | _ => False

theorem Usage.locking_waits {tenant : Tenant} {skipped candidates : List Nat} {candidate : Nat}
    {x y : Resource} (hx : (.acquire <| .subscription candidate : Effect Resource Write).Wants x)
    (hy : y ∈ (Phase.locking tenant skipped (candidate :: candidates)).held) :
    (Phase.locking tenant skipped (candidate :: candidates)).Waits y x := by
  cases hx
  exact ⟨hy, rfl⟩

-- Requests lock rows of subscriptions before their keys.
theorem Usage.exists_next (db : Database) (id : Uuid) (request : UsageRequest) {p : Phase}
    (hf : p.finished = false) :
    ∃ a p' e, a ≠ .crash ∧ Next db id request p a p' e ∧
      (Ascends p.held e ∨ ∀ x, e.Wants x → ∀ y ∈ p.held, p.Waits y x) := by
  cases p
  case answered | crashed => cases hf
  case received =>
    cases ht : db.tenant? request.payload.tenantId
    case none   => exact ⟨_, _, _, by simp, .unknownTenant ht, .inl ascends_rollback⟩
    case some t => exact ⟨_, _, _, by simp, .getTenant ht, .inl ascends_stay⟩
  case reading tenant =>
    cases hr : db.record? request.idempotencyKey
    case some => exact ⟨_, _, _, by simp, .replay hr, .inl ascends_rollback⟩
    case none =>
      by_cases hs : tenant.status = .active
      case pos => exact ⟨_, _, _, by simp, .miss hr hs, .inl ascends_stay⟩
      case neg => exact ⟨_, _, _, by simp, .inactive hr hs, .inl ascends_stay⟩
  case selecting => exact ⟨.select <| .stable _, _, _, by simp, .select, .inl ascends_stay⟩
  case locking tenant skipped candidates =>
    cases candidates
    case nil => exact ⟨_, _, _, by simp, .noCandidate, .inl ascends_stay⟩
    case cons candidate _ =>
      by_cases hs : ∃ s, db.subscription? candidate = some s ∧
        QuotaEnforcer.Eligible tenant.id s
      case pos =>
        obtain ⟨s, hs, he⟩ := hs
        exact ⟨_, _, _, by simp, .lock hs he, .inr fun _ hx _ => locking_waits hx⟩
      case neg =>
        refine ⟨_, _, _, by simp, .skip fun s hs' he => hs ⟨s, hs', he⟩, .inr fun _ hx _ => ?_⟩
        exact locking_waits hx
  case checking tenant _ subscription =>
    cases hc : QuotaEnforcer.checkSubscription db tenant subscription request.payload.eventType
      (requested request) 0
    case error => exact ⟨_, _, _, by simp, .refuse hc, .inl ascends_stay⟩
    case ok    => exact ⟨_, _, _, by simp, .reserve hc, .inl ascends_stay⟩
  case inserting tenant _ check now =>
    by_cases hs : (event id request tenant now).Storable
    case neg => exact ⟨_, _, _, by simp, .overflow le_rfl hs, .inl ascends_stay⟩
    case pos =>
      by_cases hk : db.HasKey request.idempotencyKey
      case pos => exact ⟨_, _, _, by simp, .duplicateEvent le_rfl hs hk, .inl ascends_stay⟩
      case neg =>
        refine ⟨_, _, _, by simp, .insertEvent le_rfl hs hk, .inl <| ascends_acquire ?_⟩
        simp [Phase.held, Resource.rank]
  case recording _ check e =>
    cases hr : db.record? e.idempotencyKey
    case some => exact ⟨_, _, _, by simp, .duplicateRecord hr, .inl ascends_stay⟩
    case none =>
      refine ⟨_, _, _, by simp, .insertRecord hr, .inl <| ascends_acquire ?_⟩
      simp [Phase.held, Resource.rank]
  case committing  => exact ⟨_, _, _, by simp, .commit, .inl ascends_commit⟩
  case responding  => exact ⟨_, _, _, by simp, .respond, .inl ascends_rollback⟩
  case refusing    => exact ⟨_, _, _, by simp, .answer, .inl ascends_rollback⟩
  case conflicting => exact ⟨_, _, _, by simp, .abandon, .inl ascends_rollback⟩
  case rereading   => exact ⟨_, _, _, by simp, .reread, .inl ascends_rollback⟩

-- A request starts to wait by skipping a row.
theorem Usage.Next.waits {db : Database} {id request p a p' e} {x y : Resource}
    (h : Usage.Next db id request p a p' e) (hw : p'.Waits y x) :
    ∃ tenant skipped candidate next candidates, a = .lock ∧
      p = .locking tenant skipped (candidate :: next :: candidates) ∧
      (∀ sub, db.subscription? candidate = some sub → ¬QuotaEnforcer.Eligible tenant.id sub) ∧
      y ∈ (candidate :: skipped).map .subscription ∧ x = .subscription next := by
  cases h <;> try exact hw.elim
  case select tenant o =>
    cases hl : o.sort (QuotaEnforcer.activeSubscriptions db tenant.id) <;>
      simp [hl, Usage.Phase.Waits] at hw
  case skip candidates hs =>
    cases candidates
    case nil  => exact hw.elim
    case cons => exact ⟨_, _, _, _, _, rfl, rfl, hs, hw⟩

namespace Webhook

theorem ascends_lock {held : List Resource} {x? : Option Resource}
    (h : ∀ x ∈ x?, ∀ y ∈ held, y.rank < x.rank) : Ascends held (acquire x?) := by
  cases x?
  case none   => exact ascends_stay
  case some x => exact ascends_acquire (h x rfl)

theorem rank_tenantLock {planType : Option (Uuid × PlanType)} {eventId : String} {x : Resource}
    (h : x ∈ tenantLock planType ++ [.webhookId eventId]) : x.rank ≤ 1 := by
  cases planType
  case none =>
    cases List.mem_singleton.mp h
    exact Nat.zero_le 1
  case some =>
    simp only [tenantLock, Option.toList_some, List.map_cons, List.map_nil, List.cons_append,
      List.nil_append, List.mem_cons, List.not_mem_nil, or_false] at h
    rcases h with rfl | rfl <;> simp [Resource.rank]

theorem rank_writeLock {write : SubscriptionWrite} {x : Resource} (h : writeLock write = some x) :
    1 < x.rank := by
  cases write
  case update => cases h; exact Nat.lt_succ_self 1
  case insert =>
    obtain ⟨_, _, rfl⟩ := Option.map_eq_some_iff.mp h
    simp [Resource.rank]

-- Deliveries insert their markers, and then write to tenants before they write to subscriptions.
theorem exists_next (db : Database) (event : WebhookEvent) {p : Phase}
    (hf : p.finished = false) :
    ∃ a p' e, (∀ error, a ≠ .raise error) ∧ Next db event p a p' e ∧ Ascends p.held e := by
  cases p
  case answered | raised => cases hf
  case received =>
    cases hm : StripeWebhookHandler.marker event
    case error => exact ⟨_, _, _, by simp, .unstorable hm, ascends_stay⟩
    case ok m =>
      by_cases hp : db.Processed m.eventId
      case pos => exact ⟨_, _, _, by simp, .duplicate hm hp, ascends_stay⟩
      case neg => exact ⟨_, _, _, by simp, .mark hm hp, ascends_nil⟩
  case marked m =>
    by_cases hl : ∃ s, Loads db event s
    case pos =>
      obtain ⟨s, hl⟩ := hl
      exact ⟨.handle 0, _, _, by simp, .load hl, ascends_stay⟩
    case neg =>
      cases hh : StripeWebhookHandler.handle db event 0
      case error => exact ⟨_, _, _, by simp, .fail hh, ascends_stay⟩
      case ok    => exact ⟨_, _, _, by simp, .handle hh (not_exists.mp hl), ascends_stay⟩
  case deleting => exact ⟨_, _, _, by simp, .getTenant rfl, ascends_stay⟩
  case flushingTenant m work result =>
    refine ⟨_, _, _, by simp, .flushTenant, ascends_lock ?_⟩
    cases work.planType <;> simp [Phase.held, Resource.rank]
  case flushingSubscription m work result =>
    cases hw : StripeWebhookHandler.flushSubscription db work
    case error => exact ⟨_, _, _, by simp, .violate hw, ascends_stay⟩
    case ok write =>
      refine ⟨_, _, _, by simp, .flushSubscription hw, ascends_lock fun x hx y hy => ?_⟩
      obtain ⟨_, _, hx⟩ := Option.bind_eq_some_iff.mp hx
      exact lt_of_le_of_lt (rank_tenantLock hy) (rank_writeLock hx)
  case committing => exact ⟨_, _, _, by simp, .commit, ascends_commit⟩
  case skipping   => exact ⟨_, _, _, by simp, .skip, ascends_rollback⟩
  case failing    => exact ⟨_, _, _, by simp, .escape, ascends_rollback⟩

end Webhook

namespace Execution

theorem unfinished_of_holds {session : Session} {x : Resource} (h : holds session x) :
    session.finished = false := by
  cases session
  case usage _ p   => cases p <;> first | rfl | cases h
  case webhook _ p => cases p <;> first | rfl | cases h

-- A request keeps the row `y`, which it has skipped, and waits for the row `x`.
def State.Waits (s : State) (y x : Resource) : Prop :=
  ∃ id request p, s.session id = some (.usage request p) ∧ p.Waits y x

variable {db : Database} {s s' : State} {l : Label} {id : Uuid} {session : Session}

theorem State.Waits.rank {x y : Resource} (h : s.Waits y x) : x.rank = y.rank := by
  obtain ⟨_, _, p, _, hw⟩ := h
  unfold Usage.Phase.Waits at hw
  split at hw
  case h_1 =>
    obtain ⟨hy, rfl⟩ := hw
    obtain ⟨_, _, rfl⟩ := List.mem_map.mp hy
    rfl
  case h_2 => exact hw.elim

-- The rows that a session has skipped, or is about to lock.
def rows : Option Session → List Resource
  | some (.usage _ (.locking _ skipped candidates)) => (skipped ++ candidates).map .subscription
  | _                                               => []

theorem State.Waits.mem_rows {x y : Resource} (h : s.Waits y x) :
    ∃ id session, s.session id = some session ∧ y ∈ rows session ∧ x ∈ rows session := by
  obtain ⟨id, _, p, hs, hw⟩ := h
  refine ⟨id, _, hs, ?_⟩
  unfold Usage.Phase.Waits at hw
  split at hw
  case h_1 =>
    obtain ⟨hy, rfl⟩ := hw
    simp only [rows, List.map_append, List.mem_append]
    exact ⟨.inl hy, .inr <| by simp⟩
  case h_2 => exact hw.elim

-- The resources that come later than others, where requests wait in the order of `Waits`.
def State.After (s : State) (x y : Resource) : Prop :=
  y.rank < x.rank ∨ s.Waits y x

-- Only finitely many rows are locked or waited for.
theorem wellFounded_after (h : engine.Reach (.boot db) s) (hc : Acyclic s.Waits) :
    WellFounded s.After := by
  obtain ⟨F, hF⟩ := Program.Reach.finite h
  have hfin : {x | ∃ id ∈ F, x ∈ rows (s.session id)}.Finite := by
    have hb := F.finite_toSet.biUnion fun id _ => (rows (s.session id)).finite_toSet
    refine hb.subset fun x ⟨id, hid, hx⟩ => ?_
    exact Set.mem_biUnion hid hx
  have hwf : WellFounded (flip s.Waits) := hc.wellFounded hfin fun {x y} hw => by
    obtain ⟨id, session, hs, hx, hy⟩ := hw.mem_rows
    exact ⟨⟨id, hF id session hs, hs ▸ hx⟩, ⟨id, hF id session hs, hs ▸ hy⟩⟩
  have hb (x : Resource) : x.rank ≤ 4 := by cases x <;> simp [Resource.rank]
  exact wellFounded_rank_or hb hwf fun hw => hw.rank

theorem ordered (h : engine.Reach (.boot db) s) (hc : Acyclic s.Waits) :
    s.Ordered engine holds s.After (·.finished = false) (·.Ordinary) where
  wf    := wellFounded_after h hc
  alive := unfinished_of_holds
  next {id session} hs hf := by
    cases session
    case usage request p =>
      obtain ⟨a, p', e, ha, hn, he⟩ := Usage.exists_next s.db id request hf
      refine ⟨.usage a, _, e, ?_, hn.session_next, fun x hx y hy => ?_⟩
      · cases a <;> trivial
      · exact he.imp (fun ha => ha x hx y hy) fun hw => ⟨id, request, p, hs, hw x hx y hy⟩
    case webhook event p =>
      obtain ⟨a, p', e, ha, hn, he⟩ := Webhook.exists_next s.db event hf
      have hn : Session.next s.db id (.webhook event p) (.webhook a) = _ := hn.session_next
      refine ⟨.webhook a, _, e, ?_, hn, fun x hx y hy => .inl <| he x hx y hy⟩
      cases a <;> first | trivial | exact ha _ rfl

-- A request that skips a row does not start to wait for one at which a chain of waiting requests
-- begins that leads back to a row that it keeps.
def Uncircled (s : State) : Label → Prop
  | .act id (.usage .lock) => ∀ request tenant skipped candidate next candidates,
    s.session id =
      some (.usage request <| .locking tenant skipped (candidate :: next :: candidates)) →
    (∀ sub, s.db.subscription? candidate = some sub → ¬QuotaEnforcer.Eligible tenant.id sub) →
    ∀ sid ∈ candidate :: skipped, ¬ReflTransGen s.Waits (.subscription next) (.subscription sid)
  | _ => True

abbrev Uncircled.Reach : State → State → Prop :=
  Transition.Reach engine.step Uncircled

-- The label is the one of a request that skips the row `candidate` to wait for `next`.
def Skips (s : State) (l : Label) (candidate next : Nat) (skipped : List Nat) : Prop :=
  ∃ id request tenant candidates, l = .act id (.usage .lock) ∧
    s.session id =
      some (.usage request <| .locking tenant skipped (candidate :: next :: candidates)) ∧
    ∀ sub, s.db.subscription? candidate = some sub → ¬QuotaEnforcer.Eligible tenant.id sub

theorem Step.waits (h : Step s l s') {x y : Resource} (hw : s'.Waits y x) :
    s.Waits y x ∨ ∃ skipped candidate next, Skips s l candidate next skipped ∧
      y ∈ (candidate :: skipped).map .subscription ∧ x = .subscription next := by
  obtain ⟨id, request, p, hs, hp⟩ := hw
  rcases h.usage_session hs with ⟨_, hs⟩ | ⟨rfl, _⟩ | ⟨p₀, a, e, rfl, hs, hn, _⟩
  case inl     => exact .inl ⟨id, request, p, hs, hp⟩
  case inr.inl => exact hp.elim
  case inr.inr =>
    obtain ⟨tenant, skipped, candidate, next, candidates, rfl, rfl, hsk, hy, hx⟩ := hn.waits hp
    exact .inr ⟨skipped, candidate, next, ⟨id, request, tenant, candidates, rfl, hs, hsk⟩, hy, hx⟩

theorem Skips.unique {candidate next candidate' next' : Nat} {skipped skipped' : List Nat}
    (h : Skips s l candidate next skipped) (h' : Skips s l candidate' next' skipped') :
    candidate' = candidate ∧ next' = next ∧ skipped' = skipped := by
  obtain ⟨_, _, _, _, rfl, hs, _⟩ := h
  obtain ⟨_, _, _, _, hl, hs', _⟩ := h'
  cases hl
  cases hs.symm.trans hs'
  exact ⟨rfl, rfl, rfl⟩

theorem Step.acyclic (h : Step s l s') (ho : Uncircled s l) (hc : Acyclic s.Waits) :
    Acyclic s'.Waits := by
  by_cases hl : ∃ skipped candidate next, Skips s l candidate next skipped
  case neg =>
    refine hc.mono fun y x hw => (h.waits hw).resolve_right ?_
    exact fun ⟨_, _, _, hsk, _⟩ => hl ⟨_, _, _, hsk⟩
  case pos =>
    obtain ⟨skipped, candidate, next, hsk⟩ := hl
    refine hc.extend (A := (· ∈ (candidate :: skipped).map Resource.subscription))
      (c := .subscription next) (fun y x hw => ?_) fun y hy => ?_
    case refine_1 =>
      refine (h.waits hw).imp_right fun ⟨_, _, _, hsk', hy, hx⟩ => ?_
      obtain ⟨rfl, rfl, rfl⟩ := hsk.unique hsk'
      exact ⟨hy, hx⟩
    case refine_2 =>
      obtain ⟨sid, hsid, rfl⟩ := List.mem_map.mp hy
      obtain ⟨_, _, _, _, rfl, hs, hskip⟩ := hsk
      exact ho _ _ _ _ _ _ hs hskip sid hsid

theorem acyclic (h : Uncircled.Reach (.boot db) s) : Acyclic s.Waits := by
  refine h.invariant (I := fun s => Acyclic s.Waits) ?_ fun hc ho hst =>
    (Step.of_step hst).acyclic ho hc
  intro x hx
  obtain ⟨_, ⟨_, _, _, hs, _⟩, _⟩ := TransGen.head'_iff.mp hx
  cases hs

theorem State.Waits.holder {x y : Resource} (h : s.Waits y x) (ha : s.Agrees holds) :
    ∃ id request p, s.holder y = some id ∧ s.session id = some (.usage request p) ∧
      p.Waits y x := by
  obtain ⟨id, request, p, hs, hw⟩ := h
  refine ⟨id, request, p, ha _ _ |>.mpr ⟨_, hs, ?_⟩, hs, hw⟩
  unfold Usage.Phase.Waits at hw
  split at hw
  case h_1 => exact hw.left
  case h_2 => exact hw.elim

-- As long as a request or a delivery is unfinished, one of them can go on.
theorem deadlock_free (h : Uncircled.Reach (.boot db) s) (hs : s.session id = some session)
    (hf : session.finished = false) :
    ∃ id' session' a s', s.session id' = some session' ∧ session'.finished = false ∧
      a.Ordinary ∧ engine.step s (.act id' a) = some s' :=
  ordered h.weaken (acyclic h) |>.progresses (agrees h.weaken) hs hf

-- A request that has skipped a cancelled subscription waits for the row that a delivery updates.
theorem deadlock_free_waiting : ∃ (s : State) (request : UsageRequest) (tenant : Tenant),
    s.session 10 = some (.usage request <| .locking tenant [3] [2, 1]) ∧
    s.holder (.subscription 2) = some 23 ∧
    ∃ id' session' a s', s.session id' = some session' ∧ session'.finished = false ∧
      a.Ordinary ∧ engine.step s (.act id' a) = some s' := by
  let as := [.env <| .createTenant 1 { name := "acme" } 0, .env <| .linkCustomer 1 "cus"] ++
    deliveryLabels 20 (.checkout "evt_1" "cus" "sub_a") 1 ++
    deliveryLabels 21 (.checkout "evt_2" "cus" "sub_b") 2 ++
    (checkLabels 10 (.apiCall 1 "a" (by decide)) (.stable _) 3).take 4 ++
    deliveryLabels 22 (.updated "evt_3" "sub_b" "canceled") 3 ++
    (deliveryLabels 23 (.renewed "evt_4" "sub_a" "active" 4000000) 3).take 5
  obtain ⟨s, hrun, ⟨tenant, request, h10⟩, ⟨_, _, h23⟩, ⟨sub, h3, hc⟩, hh3, hh2⟩ :
      ∃ s : State, Transition.run engine.step (.boot <| .migrated Plan.seeds) as = some s ∧
      (∃ tenant request, s.session 10 = some (.usage request <| .locking tenant [] [3, 2, 1])) ∧
      (∃ event p, s.session 23 = some (.webhook event p)) ∧
      (∃ sub, s.db.subscription? 3 = some sub ∧ sub.status ≠ .active) ∧
      s.holder (.subscription 3) = none ∧ s.holder (.subscription 2) = some 23 :=
    ⟨_, rfl, ⟨_, _, rfl⟩, ⟨_, _, rfl⟩, ⟨_, rfl, by decide⟩, rfl, rfl⟩
  have hr : Uncircled.Reach _ s := .of_run_all hrun <| by
    simp [as, checkLabels, deliveryLabels, Uncircled]
  have hu : Uncircled s (.act 10 <| .usage .lock) := by
    intro _ _ _ _ _ _ hs _ sid hsid hpath
    cases h10.symm.trans hs
    cases List.mem_singleton.mp hsid
    rcases ReflTransGen.cases_head hpath with hne | ⟨_, hw, _⟩
    · cases hne
    · obtain ⟨_, _, _, hh, hs, _⟩ := hw.holder (agrees hr.weaken)
      cases hh2.symm.trans hh
      cases h23.symm.trans hs
  have hskip : Usage.Next s.db 10 request (.locking tenant [] [3, 2, 1]) .lock _ _ :=
    .skip fun sub' hsub he => by
      cases h3.symm.trans hsub
      exact hc he.right
  have hs : engine.step s (.act 10 <| .usage .lock) = some _ :=
    Program.step_iff.mpr <| .act h10 hskip.session_next (.inl hh3)
  refine ⟨_, request, tenant, rfl, ?_, deadlock_free (hr.tail hu hs) (Function.update_self ..) rfl⟩
  simpa [Program.perform, Effect.holders] using hh2

-- Another transaction holds the row that a request is about to lock.
theorem blocked_at {id' : Uuid} {request : UsageRequest} {tenant : Tenant} {candidate : Nat}
    {skipped candidates : List Nat} {a : Session.Action}
    (hs : s.session id =
      some (.usage request <| .locking tenant skipped (candidate :: candidates)))
    (hh : s.holder (.subscription candidate) = some id') (hne : id' ≠ id) (ha : a.Ordinary) :
    engine.step s (.act id a) ≠ some s' := by
  intro hst
  have hfree : ¬s.Free id (.subscription candidate) := by simp [State.Free, hh, hne]
  cases Step.of_step hst
  case webhook hs' _  => cases hs.symm.trans hs'
  case usage hs' hn hg =>
    cases hs.symm.trans hs'
    cases hn
    case skip  => exact hfree hg
    case lock  => exact hfree hg
    case crash => exact ha

-- Two requests have selected the rows of two subscriptions in different orders, as an update has
-- come between them. Both subscriptions are cancelled, so that each request keeps the row that it
-- has skipped, and waits for the other one's.
theorem deadlock : ∃ (s : State) (session : Session),
    engine.Reach (.boot <| .migrated Plan.seeds) s ∧ s.session 10 = some session ∧
    session.finished = false ∧ ∀ {id' session' a s'}, s.session id' = some session' →
      session'.finished = false → a.Ordinary → engine.step s (.act id' a) ≠ some s' := by
  let as := [.env <| .createTenant 1 { name := "acme" } 0, .env <| .linkCustomer 1 "cus"] ++
    deliveryLabels 20 (.checkout "evt_1" "cus" "sub_a") 1 ++
    deliveryLabels 21 (.checkout "evt_2" "cus" "sub_b") 2 ++
    (checkLabels 10 (.apiCall 1 "a" (by decide)) (.stable _) 3).take 4 ++
    deliveryLabels 22 (.renewed "evt_3" "sub_a" "active" 4000000) 3 ++
    (checkLabels 11 (.apiCall 1 "b" (by decide)) (.stable _) 3).take 4 ++
    deliveryLabels 23 (.updated "evt_4" "sub_a" "canceled") 4 ++
    deliveryLabels 24 (.updated "evt_5" "sub_b" "canceled") 5 ++
    [.act 10 <| .usage .lock, .act 11 <| .usage .lock]
  obtain ⟨s, hrun, ⟨_, _, h10⟩, ⟨_, _, h11⟩, hh2, hh3, hfin⟩ :
      ∃ s : State, Transition.run engine.step (.boot <| .migrated Plan.seeds) as = some s ∧
      (∃ tenant request, s.session 10 = some (.usage request <| .locking tenant [3] [2, 1])) ∧
      (∃ tenant request, s.session 11 = some (.usage request <| .locking tenant [2] [3, 1])) ∧
      s.holder (.subscription 2) = some 11 ∧ s.holder (.subscription 3) = some 10 ∧
      ∀ id ∈ [20, 21, 22, 23, 24], ∀ session ∈ s.session id, session.finished :=
    ⟨_, rfl, ⟨_, _, rfl⟩, ⟨_, _, rfl⟩, rfl, rfl, by decide +kernel⟩
  refine ⟨s, _, (Transition.Reach.of_run hrun).weaken, h10, rfl, fun {id _ _ _} hs hf ha => ?_⟩
  have has : ∀ l ∈ as, ∀ id ∈ l.session?, id = 10 ∨ id = 11 ∨ id ∈ [20, 21, 22, 23, 24] := by
    decide +kernel
  obtain ⟨l, hl, hid⟩ := (session_of_run hrun hs).resolve_left (by simp [Sessions.State.boot])
  rcases has l hl id hid with rfl | rfl | hid
  · exact blocked_at h10 hh2 (by decide) ha
  · exact blocked_at h11 hh3 (by decide) ha
  · exact absurd (hfin id hid _ hs) (by simp [hf])

end Execution
