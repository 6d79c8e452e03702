import BillingEngine.Execution.Theorems.Requests

open Sessions QuotaEnforcer

-- What row locks protect.

namespace SubscriptionChanges

variable {c : SubscriptionChanges} {s : Subscription}

@[simp]
theorem apply_id : (c.apply s).id = s.id :=
  rfl

end SubscriptionChanges

namespace Database

-- The primary key of `subscriptions` is taken from the sequence.
structure WellFormed (db : Database) : Prop where
  ids  : db.subscriptions.map (·.id) |>.Nodup
  next : ∀ s ∈ db.subscriptions, s.id < db.nextSubscriptionId

theorem WellFormed.migrated {plans : List Plan} : (Database.migrated plans).WellFormed where
  ids  := by simp [Database.migrated]
  next := by simp [Database.migrated]

theorem WellFormed.subscription?_of_mem {db : Database} {s : Subscription} (hw : db.WellFormed)
    (hm : s ∈ db.subscriptions) : db.subscription? s.id = some s :=
  Rows.find?_key hw.ids hm

-- What a step does to `subscriptions`, where `row` is the row that it updates, if any.
inductive RowChange (db : Database) : (row : Option Nat) → Database → Prop
  | same {db'} (rows : db'.subscriptions = db.subscriptions)
    (next : db'.nextSubscriptionId = db.nextSubscriptionId) : RowChange db none db'
  | insert {db' s} (id : s.id = db.nextSubscriptionId)
    (rows : db'.subscriptions = db.subscriptions ++ [s])
    (next : db'.nextSubscriptionId = db.nextSubscriptionId + 1) : RowChange db none db'
  | update {db' row c}
    (rows : db'.subscriptions =
      Rows.modify Subscription.id row (SubscriptionChanges.apply c) db.subscriptions)
    (next : db'.nextSubscriptionId = db.nextSubscriptionId) : RowChange db (some row) db'

variable {db db' : Database} {row : Option Nat} {sid : Nat} {sub : Subscription}

namespace RowChange

theorem wellFormed (h : db.RowChange row db') (hw : db.WellFormed) : db'.WellFormed := by
  cases h
  case same hr hn => exact ⟨hr ▸ hw.ids, hr ▸ hn ▸ hw.next⟩
  case insert s hi hr hn =>
    constructor
    case ids =>
      simp only [hr, List.map_append, List.map_cons, List.map_nil]
      refine List.nodup_append.mpr ⟨hw.ids, by simp, ?_⟩
      rintro _ hm _ hm' rfl
      have ⟨s', hs', he⟩ := List.mem_map.mp hm
      have hlt := hw.next s' hs'
      simp_all
    case next =>
      intro s' hs'
      simp only [hr, List.mem_append, List.mem_singleton] at hs'
      rw [hn]
      cases hs'
      case inl h => exact Nat.lt_succ_of_lt <| hw.next s' h
      case inr h => rw [h, hi]; exact Nat.lt_succ_self _
  case update hr hn =>
    constructor
    case ids => rw [hr, Rows.modify_map fun _ => SubscriptionChanges.apply_id]; exact hw.ids
    case next =>
      intro s' hs'
      have ⟨s, hs, he⟩ := Rows.mem_modify.mp (hr ▸ hs')
      have hlt := hw.next s hs
      rw [he, hn]
      split <;> simpa using hlt

-- A row is changed by an update of itself only.
theorem subscription?_eq (h : db.RowChange row db') (hr : row ≠ some sid)
    (hs : db.subscription? sid = some sub) : db'.subscription? sid = some sub := by
  cases h
  case same hr _     => rw [subscription?, hr, ← hs, subscription?]
  case insert hr _   => rw [subscription?, hr, List.find?_append, ← subscription?, hs]; rfl
  case update hr' _  =>
    rw [subscription?, hr', Rows.find?_modify fun _ => SubscriptionChanges.apply_id,
      ← subscription?, hs, Option.map_some, if_neg]
    rw [Rows.find?_key_mem hs |>.right]
    exact fun he => hr <| he ▸ rfl

end RowChange

theorem applyWebhook_rowChange {m pt} {w : Option SubscriptionWrite} :
    db.RowChange (match w with | some (.update id _) => some id | _ => none)
      (db.applyWebhook m pt w) := by
  have hr : (db.applyWebhook m pt w).subscriptions = _ := applyWebhook_subscriptions
  have hn : (db.applyWebhook m pt w).nextSubscriptionId = _ := applyWebhook_nextSubscriptionId
  rcases w with _ | _ | _
  case none        => exact .same hr hn
  case some.insert => exact .insert rfl hr hn
  case some.update => exact .update hr hn

end Database

theorem Operation.rowChange {op : Operation} {db db' : Database} (h : op.apply db = some db') :
    db.RowChange none db' := by
  cases Applies.of_apply h
  case createTenant h =>
    obtain ⟨_, _, rfl⟩ := Router.createTenant_ok h
    exact .insert rfl rfl rfl
  all_goals exact .same rfl rfl

namespace Execution

variable {s s' : State} {l : Label} {db : Database} {sid : Nat} {sub : Subscription}

-- Rows are updated by the commits of deliveries which hold them.
theorem Step.rowChange (h : Step s l s') : ∃ row, s.db.RowChange row s'.db ∧
    ∀ {sid}, row = some sid → ∃ id session, l.session? = some id ∧ s.session id = some session ∧
      holds session (.subscription sid) ∧ ∃ event phase, session = .webhook event phase := by
  cases h.commits
  case none hd      => exact ⟨none, .same (by rw [hd]) (by rw [hd]), nofun⟩
  case usage hd     => exact ⟨none, .same (by rw [hd]; rfl) (by rw [hd]; rfl), nofun⟩
  case operation ho => exact ⟨none, Operation.rowChange ho, nofun⟩
  case webhook id event marker planType write result hs hd _ =>
    refine ⟨_, hd ▸ Database.applyWebhook_rowChange, fun {sid} he => ?_⟩
    refine ⟨id, _, rfl, hs, ?_, _, _, rfl⟩
    rcases write with _ | _ | _ <;> cases he
    simp [holds, Session.held, Webhook.Phase.held, Webhook.writeLock]

theorem wellFormed (hw : db.WellFormed) (h : engine.Reach (.boot db) s) : s.db.WellFormed :=
  h.invariant (I := fun s => s.db.WellFormed) hw fun hi _ hs =>
    have ⟨_, hr, _⟩ := (Step.of_step hs).rowChange
    hr.wellFormed hi

-- A row which a session holds is not changed by the steps of other sessions.
theorem Step.subscription?_eq {id session} (h : Step s l s') (ha : s.Agrees holds)
    (hs : s.session id = some session) (hh : holds session (.subscription sid))
    (hl : l.session? ≠ some id) (hr : s.db.subscription? sid = some sub) :
    s'.db.subscription? sid = some sub := by
  have ⟨row, hc, hrow⟩ := h.rowChange
  refine hc.subscription?_eq (fun he => ?_) hr
  have ⟨id', session', hl', hs', hh', _⟩ := hrow he
  exact hl <| ha.unique hs hs' hh hh' ▸ hl'

end Execution

namespace Usage.Phase

-- The row that a request has read and holds.
def subscription? : Phase → Option Subscription
  | checking _ _ subscription => subscription
  | inserting _ _ check _ | recording _ check _ | committing _ check _ _ => check.subscription
  | _ => none

theorem held_of_subscription? {p : Phase} {sub} (h : p.subscription? = some sub) :
    .subscription sub.id ∈ p.held := by
  cases p <;> cases h <;> simp [held]

theorem subscription?_of_check? {p : Phase} {check} (h : p.check? = some check) :
    p.subscription? = some check.subscription := by
  cases p <;> cases h <;> rfl

end Usage.Phase

namespace Usage.Next

variable {db : Database} {id : Uuid} {request : UsageRequest} {p p' : Phase} {a : Action}
  {e : Effect Resource Write} {sub : Subscription} {check : QuotaCheckResult}

theorem subscription? (h : Next db id request p a p' e) (hp : p'.subscription? = some sub) :
    p.subscription? = some sub ∨ db.subscription? sub.id = some sub := by
  cases h <;> try contradiction
  case lock hs _ =>
    cases hp
    exact .inr <| by rwa [Rows.find?_key_mem hs |>.right]
  case reserve hc =>
    cases hp
    exact .inl <| congrArg some (check_subscription hc).symm
  all_goals exact .inl hp

theorem check? (h : Next db id request p a p' e) (hp : p'.check? = some check) :
    p.check? = some check ∨ ∃ tenant skipped subscription now,
      p = .checking tenant skipped subscription ∧
      Admits db tenant subscription request.payload.eventType (requested request) now check := by
  cases h <;> try contradiction
  case reserve hc =>
    cases hp
    exact .inr ⟨_, _, _, _, rfl, checkSubscription_ok hc⟩
  all_goals exact .inl hp

end Usage.Next

namespace Execution

variable {s s' : State} {l : Label} {db : Database} {sub : Subscription}

-- The rows that requests have read are current until they commit or roll back.
theorem locked_row (h : engine.Reach (.boot db) s) {id request p}
    (hs : s.session id = some (.usage request p)) :
    p.subscription? = some sub → s.db.subscription? sub.id = some sub := by
  refine usage_reach h (I := fun db _ _ p => p.subscription? = some sub →
    db.subscription? sub.id = some sub) ?init ?received ?acts ?others hs
  case init     => simp [Sessions.State.boot]
  case received => simp [Usage.Phase.subscription?]
  case acts =>
    intro s s' id request p a p' e _ _ hn hd _ hi hp
    cases hn.writes
    case none hw => rw [hd, hw]; exact hn.subscription? hp |>.elim hi fun h => h
    case commit  => cases hp
  case others =>
    intro s s' l id request p h' hs _ hl hp hi hsub
    exact hs.subscription?_eq (agrees h') hp (Usage.Phase.held_of_subscription? hsub) hl (hi hsub)

-- The plan of a check is the one of the locked row.
theorem checked_plan (h : engine.Reach (.boot db) s) {id request p check}
    (hs : s.session id = some (.usage request p)) :
    p.check? = some check → s.db.plan? check.subscription.planId = some check.plan := by
  refine usage_reach h (I := fun db _ _ p => p.check? = some check →
    db.plan? check.subscription.planId = some check.plan) ?init ?received ?acts ?others hs
  case init     => simp [Sessions.State.boot]
  case received => simp [Usage.Phase.check?]
  case acts =>
    intro s s' id request p a p' e _ _ hn hd _ hi hp
    cases hn.writes
    case commit => cases hp
    case none hw =>
      rw [hd, hw]
      rcases hn.check? hp with hc | ⟨_, _, _, _, _, ha⟩
      · exact hi hc
      · exact ha.selected ▸ ha.plan
  case others =>
    intro s s' l id request p _ hs _ _ _ hi hc
    rw [Database.plan?, hs.plans]
    exact hi hc

end Execution
