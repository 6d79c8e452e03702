import BillingEngine.Execution.Theorems.Keys

open StripeWebhookHandler

-- The event is about the Stripe subscription with the given id, where `none` is `NULL`.
def WebhookEvent.Names (event : WebhookEvent) (id : Option String) : Prop :=
  event.Concerns id ∨
  dispatch event.type = some .checkoutCompleted ∧ (checkoutSubscription event).text = .ok id

-- What an event changes, in terms of the values that it names.
inductive Edit
  | none
  | write (stripeSubscriptionId : Option String) (changes : SubscriptionChanges)
    (canceled : Option Uuid)
  | insert (row : NewSubscription) (stripeSubscriptionId : Option String)

namespace Edit

def tenants : Edit → List Tenant → List Tenant
  | write _ _ (some tenantId), rows =>
    Rows.modify Tenant.id tenantId ({ · with planType := .free }) rows
  | insert row _, rows => Rows.modify Tenant.id row.tenantId ({ · with planType := .pro }) rows
  | _, rows            => rows

def subscriptions (next : Nat) : Edit → List Subscription → List Subscription
  | none, rows            => rows
  | write id c _, rows    => Rows.modify (·.stripeSubscriptionId) id c.apply rows
  | insert row id, rows   => rows ++ [row.inserted next id]

def sequence : Edit → Nat → Nat
  | insert .., next => next + 1
  | _, next         => next

def apply (edit : Edit) (db : Database) (marker : ProcessedWebhook) : Database :=
  { db with
    tenants            := edit.tenants db.tenants
    subscriptions      := edit.subscriptions db.nextSubscriptionId db.subscriptions
    nextSubscriptionId := edit.sequence db.nextSubscriptionId
    processedWebhooks  := db.processedWebhooks ++ [marker] }

-- The plan type that an edit sets.
def planType : Edit → Option (Uuid × PlanType)
  | none               => Option.none
  | write _ _ canceled => canceled.map (·, .free)
  | insert row _       => some (row.tenantId, .pro)

-- The edits that come from an event.
inductive By (event : WebhookEvent) : Edit → Prop
  | none : By event none
  | write {id changes canceled} (hc : event.Concerns id)
    (hd : canceled.isSome → dispatch event.type = some .subscriptionDeleted) :
    By event (write id changes canceled)
  | insert {row id} (ht : dispatch event.type = some .checkoutCompleted)
    (hi : (checkoutSubscription event).text = .ok id) : By event (insert row id)

theorem tenants_eq (e : Edit) {rows : List Tenant} : e.tenants rows = e.planType.elim rows fun c =>
    Rows.modify Tenant.id c.1 ({ · with planType := c.2 }) rows := by
  rcases e with _ | ⟨_, _, _ | _⟩ | _ <;> rfl

end Edit

namespace StripeWebhookHandler

-- The edit of an event and the answer to it.
def edit (db : Database) (event : WebhookEvent) (now : Instant) :
    Except PyError (Edit × WebhookResult) :=
  match dispatch event.type with
  | none                    => .ok (.none, .ignoredUnhandledType event.type)
  | some .checkoutCompleted => do
    let (work, result) ← handle db event now
    match ← flushSubscription db work with
    | some (.insert row id) => return (.insert row id, result)
    | _                     => return (.none, result)
  | some .subscriptionUpdated => do
    let id ← subscriptionId event
    match ← getSubscription db id with
    | none   => return (.none, .noMatchingSubscription id)
    | some s => return (.write id (← assignments event) none, .subscriptionUpdated s.id)
  | some .subscriptionDeleted => do
    let id ← subscriptionId event
    match ← getSubscription db id with
    | none   => return (.none, .noMatchingSubscription id)
    | some s => return (.write id (← assignments event) s.tenantId, .subscriptionCanceled s.id)

-- The edits that come from an event, and what they are based on.
inductive Edits (db : Database) (event : WebhookEvent) : Edit → Prop
  | none : Edits db event .none
  | update {id s c} (ht : dispatch event.type = some .subscriptionUpdated)
    (hi : subscriptionId event = .ok id) (hs : getSubscription db id = .ok (some s)) :
    Edits db event (.write id c .none)
  | cancel {id s c} (ht : dispatch event.type = some .subscriptionDeleted)
    (hi : subscriptionId event = .ok id) (hs : getSubscription db id = .ok (some s)) :
    Edits db event (.write id c s.tenantId)
  | insert {row id customer tenant} (ht : dispatch event.type = some .checkoutCompleted)
    (hi : (checkoutSubscription event).text = .ok id)
    (hj : (checkoutCustomer event).text = .ok customer)
    (hc : getTenantByCustomerId db customer = .ok (some tenant)) (hr : row.tenantId = tenant.id) :
    Edits db event (.insert row id)

variable {db : Database} {event event' : WebhookEvent} {now : Instant} {e : Edit}
  {result : WebhookResult} {m : ProcessedWebhook} {id : Option String}

theorem Edits.of_edit (h : edit db event now = .ok (e, result)) : Edits db event e := by
  unfold edit at h
  split at h
  case h_1 => cases h; exact .none
  case h_2 ht =>
    simp only [Except.bind_eq_ok] at h
    obtain ⟨⟨work, _⟩, hh, write, hw, h⟩ := h
    split at h <;> cases h
    case h_2 => exact .none
    case h_1 row id =>
      obtain ⟨_, hn⟩ | ⟨row', id', hr, hi, hn⟩ := flushSubscription_ok hw
      case inl =>
        obtain ⟨_, _, hn⟩ := Option.map_eq_some_iff.mp hn.symm
        cases hn
      case inr =>
        cases hn
        cases Handles.of_handle hh
        case checkout hj hc _ => cases hr; exact .insert ht hi hj hc rfl
        all_goals cases hr
  case h_3 ht =>
    simp only [Except.bind_eq_ok] at h
    obtain ⟨id, hi, s, hs, h⟩ := h
    cases s
    case none => cases h; exact .none
    case some =>
      obtain ⟨c, _, h⟩ := Except.bind_eq_ok.mp h
      cases h
      exact .update ht hi hs
  case h_4 ht =>
    simp only [Except.bind_eq_ok] at h
    obtain ⟨id, hi, s, hs, h⟩ := h
    cases s
    case none => cases h; exact .none
    case some =>
      obtain ⟨c, _, h⟩ := Except.bind_eq_ok.mp h
      cases h
      exact .cancel ht hi hs

theorem edit_by (h : edit db event now = .ok (e, result)) : e.By event := by
  cases Edits.of_edit h
  case none               => exact .none
  case update ht hi _     => exact .write ⟨.inl ht, hi⟩ nofun
  case cancel ht hi _     => exact .write ⟨.inr ht, hi⟩ fun _ => ht
  case insert ht hi _ _ _ => exact .insert ht hi

-- An edit does not change what is found under ids that its event does not name.

theorem getSubscription_apply (he : e.By event') (hn : ¬event'.Names id) :
    getSubscription (e.apply db m) id = getSubscription db id := by
  refine congrArg scalarOneOrNone ?_
  cases he
  case none => rfl
  case write id' _ _ hc' _ =>
    have hne : id' ≠ id := by
      rintro rfl
      exact hn <| .inl hc'
    exact Rows.filter_modify_ne (fun _ => rfl) hne
  case insert row id' ht hi =>
    have hne : id' ≠ id := by
      rintro rfl
      exact hn <| .inr ⟨ht, hi⟩
    simp [Edit.apply, Edit.subscriptions, NewSubscription.inserted, hne]

end StripeWebhookHandler

-- The statements that a handler leaves to the flush have the same effect as the edit, in which the
-- columns that do not change are set too.

namespace Database

-- The change leads to the target, which some rows may meet already.
def Yields (db : Database) (target change : Option (Uuid × PlanType)) : Prop :=
  change = target ∨ change = none ∧ ∀ c ∈ target, ∀ t ∈ db.tenants, t.id = c.1 → t.planType = c.2

variable {db db' : Database} {target change : Option (Uuid × PlanType)} {planType : PlanType}

theorem Yields.tenants (h : db.Yields target change) : (change.elim db.tenants fun c =>
    Rows.modify Tenant.id c.1 ({ · with planType := c.2 }) db.tenants) = target.elim db.tenants
      fun c => Rows.modify Tenant.id c.1 ({ · with planType := c.2 }) db.tenants := by
  rcases h with rfl | ⟨rfl, hm⟩
  case inl => rfl
  case inr =>
    cases target
    case none => rfl
    case some c =>
      refine Rows.modify_eq_self (fun t ht hi => ?_) |>.symm
      rw [← hm c rfl t ht hi]

theorem Yields.congr (h : db.Yields target change)
    (ht : ∀ c ∈ target, ∀ t' ∈ db'.tenants, t'.id = c.1 →
      t'.planType = c.2 ∨ ∃ t ∈ db.tenants, t.id = c.1 ∧ t'.planType = t.planType) :
    db'.Yields target change := by
  rcases h with rfl | ⟨rfl, hm⟩
  case inl => exact .inl rfl
  case inr =>
    refine .inr ⟨rfl, fun c hc t' ht' hi => ?_⟩
    rcases ht c hc t' ht' hi with hp | ⟨t, hmem, hid, hp⟩
    · exact hp
    · exact hp.trans <| hm c hc t hmem hid

theorem Unique.yields {tenant : Tenant} (hu : db.Unique) (hm : tenant ∈ db.tenants) :
    db.Yields (some (tenant.id, planType)) (UnitOfWork.setPlanType tenant planType) := by
  unfold UnitOfWork.setPlanType
  split
  case isFalse => exact .inl rfl
  case isTrue hp =>
    refine .inr ⟨rfl, ?_⟩
    rintro _ ⟨⟩ t ht hi
    obtain rfl : t = tenant := List.inj_on_of_nodup_map hu.tenants ht hm hi
    exact hp.symm

theorem Unique.yields_bind {tenantId : Uuid} (hu : db.Unique) :
    db.Yields (some (tenantId, planType))
      ((db.tenant? tenantId).bind (UnitOfWork.setPlanType · planType)) := by
  cases ht : db.tenant? tenantId
  case some tenant =>
    obtain ⟨hm, rfl⟩ := Rows.find?_key_mem ht
    exact hu.yields hm
  case none =>
    refine .inr ⟨rfl, ?_⟩
    rintro _ ⟨⟩ t hm hi
    exact absurd hi <| by simpa using List.find?_eq_none.mp ht t hm

theorem setSubscription_modify {s : Subscription} {c : SubscriptionChanges} {id : Option String}
    (hw : db.WellFormed) (hs : getSubscription db id = .ok (some s)) :
    (((UnitOfWork.setSubscription s (c.apply s)).map fun (id, changes) =>
      SubscriptionWrite.update id changes).elim db.subscriptions fun w =>
        (db.writeSubscription w).subscriptions) =
          Rows.modify (·.stripeSubscriptionId) id c.apply db.subscriptions := by
  have hf := scalarOneOrNone_mem hs
  obtain ⟨hm, hi⟩ := Rows.of_filter_singleton hf
  have unique {r : Subscription} (hr : r ∈ db.subscriptions) :
      r.id = s.id ↔ r.stripeSubscriptionId = id := by
    constructor
    case mp  => exact fun he => List.inj_on_of_nodup_map hw.ids hr hm he ▸ hi
    case mpr =>
      intro he
      have hr : r ∈ [s] := hf ▸ List.mem_filter.mpr ⟨hr, by simpa using he⟩
      rw [List.mem_singleton.mp hr]
  unfold UnitOfWork.setSubscription
  split
  case isTrue he =>
    refine Rows.modify_eq_self (fun r hr hk => ?_) |>.symm
    obtain rfl := List.inj_on_of_nodup_map hw.ids hr hm <| (unique hr).mpr hk
    exact he
  case isFalse =>
    refine List.map_congr_left fun r hr => ?_
    by_cases hk : r.stripeSubscriptionId = id
    case neg => rw [if_neg hk, if_neg <| (unique hr).not.mpr hk]
    case pos =>
      rw [if_pos hk, if_pos <| (unique hr).mpr hk,
        List.inj_on_of_nodup_map hw.ids hr hm <| (unique hr).mpr hk]
      exact SubscriptionChanges.diff_apply ⟨_, _, _, rfl⟩

end Database

namespace Edit

-- The statement on `subscriptions` that makes an edit.
def Writes (db : Database) : Edit → Option SubscriptionWrite → Prop
  | none, w          => w = Option.none
  | insert row id, w => w = some (.insert row id)
  | write id c _, w  => ∃ s, getSubscription db id = .ok (some s) ∧
    w = (UnitOfWork.setSubscription s (c.apply s)).map fun (id, changes) => .update id changes

-- The statements of a flush make the edit.
structure Flushed (e : Edit) (db : Database) (planType : Option (Uuid × PlanType))
    (write : Option SubscriptionWrite) : Prop where
  plan  : db.Yields e.planType planType
  write : e.Writes db write

variable {e : Edit} {db : Database} {m : ProcessedWebhook} {pt : Option (Uuid × PlanType)}
  {w : Option SubscriptionWrite}

theorem Flushed.applyWebhook (h : e.Flushed db pt w) (hw : db.WellFormed) :
    db.applyWebhook m pt w = e.apply db m := by
  obtain ⟨hp, hs⟩ := h
  rw [Database.applyWebhook_eq, hp.tenants, ← tenants_eq]
  cases e <;> simp only [Writes] at hs
  case none   => subst hs; rfl
  case insert => subst hs; rfl
  case write id c canceled =>
    obtain ⟨s, hs, rfl⟩ := hs
    rw [Database.setSubscription_modify hw hs]
    cases UnitOfWork.setSubscription s (c.apply s) <;> rfl

end Edit

namespace StripeWebhookHandler

variable {db : Database} {event : WebhookEvent} {now : Instant} {e : Edit} {result : WebhookResult}
  {work : UnitOfWork} {write : Option SubscriptionWrite} {error : PyError}

theorem edit_of_flush (hu : db.Unique) (hh : handle db event now = .ok (work, result))
    (hf : flushSubscription db work = .ok write) :
    ∃ e, edit db event now = .ok (e, result) ∧ e.Flushed db work.planType write := by
  cases Handles.of_handle hh
  case unhandled ht => exact ⟨.none, by simp [edit, ht], .inl rfl, flush_none hf⟩
  case noTenant ht _ | noPlan ht _ =>
    cases flush_none hf
    refine ⟨.none, ?_, .inl rfl, rfl⟩
    simp [edit, ht, hh, hf, bind, Except.bind, pure, Except.pure]
  case checkout ht _ hc _ =>
    obtain ⟨hn, _⟩ | ⟨row, id, hr, _, rfl⟩ := flushSubscription_ok hf
    case inl => cases hn
    case inr =>
      cases hr
      refine ⟨.insert _ id, ?edit, ?plan, rfl⟩
      case edit => simp [edit, ht, hh, hf, bind, Except.bind, pure, Except.pure]
      case plan => exact hu.yields <| mem_of_getTenant hc
  case noSubscription ht hi hs =>
    cases flush_none hf
    refine ⟨.none, ?_, .inl rfl, rfl⟩
    rcases ht with ht | ht <;> simp [edit, ht, hi, hs, bind, Except.bind, pure, Except.pure]
  case updated id s assigned ht hi hs ha =>
    rw [updateSubscription_eq ht] at ha
    obtain ⟨c, hc, rfl⟩ := Except.map_eq_ok.mp ha
    cases hf
    refine ⟨.write id c none, ?_, .inl rfl, s, hs, rfl⟩
    simp [edit, ht, hi, hs, hc, bind, Except.bind, pure, Except.pure]
  case deleted id s ht hi hs =>
    cases hf
    refine ⟨.write id ⟨some .canceled, none, none⟩ s.tenantId, ?_, hu.yields_bind, s, hs, rfl⟩
    simp [edit, ht, hi, hs, assignments, cancelSubscription, bind, Except.bind, pure, Except.pure]

theorem edit_of_handle_error (hh : handle db event now = .error error) :
    edit db event now = .error error := by
  cases ht : dispatch event.type
  case none => simp [handle, ht] at hh
  case some d =>
    cases d
    case checkoutCompleted => simp [edit, ht, hh, bind, Except.bind]
    case subscriptionUpdated =>
      simp only [handle, ht, handleSubscriptionUpdated, bind, Except.bind] at hh
      simp only [edit, ht, bind, Except.bind]
      rcases hi : subscriptionId event with _ | id <;> simp only [hi] at hh ⊢
      case error => cases hh; rfl
      case ok =>
        rcases hs : getSubscription db id with _ | _ | s <;> simp only [hs] at hh ⊢
        case error   => cases hh; rfl
        case ok.none => cases hh
        case ok.some =>
          rw [updateSubscription_eq ht] at hh
          cases ha : assignments event <;> rw [ha] at hh <;> cases hh
          rfl
    case subscriptionDeleted =>
      rw [handle_deleted ht] at hh
      simp only [bind, Except.bind, Functor.map, Except.map] at hh
      simp only [edit, ht, bind, Except.bind]
      rcases hi : subscriptionId event with _ | id <;> simp only [hi] at hh ⊢
      case error => cases hh; rfl
      case ok =>
        rcases hs : getSubscription db id with _ | _ | s <;> simp only [hs] at hh ⊢ <;> cases hh
        rfl

theorem edit_of_flush_error (hh : handle db event now = .ok (work, result))
    (hf : flushSubscription db work = .error error) : edit db event now = .error error := by
  cases Handles.of_handle hh
  case checkout ht _ _ _ => simp [edit, ht, hh, hf, bind, Except.bind]
  all_goals cases hf

theorem flush_edit (hw : db.WellFormed) (hu : db.Unique) (m : ProcessedWebhook) :
    (do
      let (work, result) ← handle db event now
      let write ← flushSubscription db work
      return (result, db.applyWebhook m work.planType write)) =
    (fun (e, result) => (result, e.apply db m)) <$> edit db event now := by
  rcases hh : handle db event now with _ | ⟨work, result⟩
  case error => rw [edit_of_handle_error hh]; rfl
  case ok =>
    rcases hf : flushSubscription db work with _ | write
    case error =>
      rw [edit_of_flush_error hh hf]
      simp [hf, bind, Except.bind, Functor.map, Except.map]
    case ok =>
      obtain ⟨e, he, hfl⟩ := edit_of_flush hu hh hf
      rw [he]
      simp [hf, hfl.applyWebhook hw, bind, Except.bind, Functor.map, Except.map, pure, Except.pure]

-- The answer to a delivery, together with what it changes, if anything.
def outcome (db : Database) (event : WebhookEvent) (now : Instant) :
    Except PyError WebhookResult × Option (Edit × ProcessedWebhook) :=
  match marker event with
  | .error error => (.error error, none)
  | .ok m =>
    if db.Processed event.id then
      (.ok <| .duplicateIgnored event.id, none)
    else
      match edit db event now with
      | .error error    => (.error error, none)
      | .ok (e, result) => (.ok result, some (e, m))

theorem handleEvent_outcome (hw : db.WellFormed) (hu : db.Unique) : handleEvent db event now =
    ((outcome db event now).1, (outcome db event now).2.elim db fun (e, m) => e.apply db m) := by
  unfold handleEvent outcome
  cases marker event
  case error => rfl
  case ok m =>
    by_cases hp : db.Processed event.id
    case pos => simp [hp]
    case neg =>
      have hf := @flush_edit db event now hw hu m
      simp only [bind, Except.bind, Functor.map, Except.map, pure, Except.pure] at hf
      simp only [hp, if_false]
      rcases hh : handle db event now with _ | ⟨work, result⟩ <;>
        rcases he : edit db event now with _ | ⟨e, _⟩ <;> simp only [hh, he] at hf ⊢
      case error.error => cases hf; rfl
      case error.ok    => cases hf
      all_goals rcases hw : flushSubscription db work with _ | write <;> simp only [hw] at hf ⊢
      case ok.error.error => cases hf; rfl
      case ok.ok.ok       => obtain ⟨rfl, ha⟩ := Prod.mk.inj <| Except.ok.inj hf; rw [ha]; rfl
      all_goals cases hf

end StripeWebhookHandler
