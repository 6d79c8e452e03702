import BillingEngine.Execution.Theorems.Deliveries

open Sessions StripeWebhookHandler

-- Which deliveries change the rows of a Stripe subscription, and to which status.

namespace Json

theorem text_eq_some {j : Json} {s : String} : j.text = .ok (some s) ↔ j = .str s := by
  cases j <;> simp [text]

end Json

namespace WebhookEvent

-- The event creates the subscription `stripeId`.
def Creates (event : WebhookEvent) (stripeId : String) : Prop :=
  dispatch event.type = some .checkoutCompleted ∧ checkoutSubscription event = .str stripeId

-- The event updates or deletes a subscription with the given id, where `none` is `NULL`.
def Concerns (event : WebhookEvent) (id : Option String) : Prop :=
  (dispatch event.type = some .subscriptionUpdated ∨
    dispatch event.type = some .subscriptionDeleted) ∧ subscriptionId event = .ok id

instance {event : WebhookEvent} {id : Option String} : Decidable (event.Concerns id) :=
  inferInstanceAs <| Decidable (_ ∧ _)

-- The event says that its subscription is usable.
def Usable (event : WebhookEvent) : Prop :=
  dispatch event.type = some .subscriptionUpdated ∧
  ∃ status ∈ activeStripeStatuses, subscriptionStatus event = .str status

theorem newStatus_active {event : WebhookEvent} :
    newStatus event = .ok (some .active) ↔ event.Usable := by
  unfold newStatus Usable
  split
  case h_1 ht => simp only [assignedStatus_active, ht, true_and]
  all_goals simp_all

theorem Concerns.not_creates {event : WebhookEvent} {id stripeId} (h : event.Concerns id) :
    ¬event.Creates stripeId := by
  rintro ⟨ht, _⟩
  rcases h.left with h | h <;> cases ht.symm.trans h

end WebhookEvent

namespace Database

-- The ids of the rows of `subscriptions`, which never change.
def stripeIds (db : Database) : List (Nat × Option String) :=
  db.subscriptions.map fun s => (s.id, s.stripeSubscriptionId)

variable {db db' : Database} {row : Option Nat} {s : Subscription} {id : Option String}

theorem RowChange.stripeIds (h : db.RowChange row db') : db.stripeIds <+: db'.stripeIds := by
  cases h
  case same hr _   => exact prefix_of_eq <| by simp [Database.stripeIds, hr]
  case insert hr _ => simp [Database.stripeIds, hr]
  case update hr _ =>
    refine prefix_of_eq ?_
    rw [Database.stripeIds, Database.stripeIds, hr]
    exact Rows.modify_map (by intro; rfl) |>.symm

theorem WellFormed.stripeId (hw : db.WellFormed) (hs : s ∈ db.subscriptions)
    (hi : (s.id, id) ∈ db.stripeIds) : s.stripeSubscriptionId = id := by
  have ⟨s', hs', he⟩ := List.mem_map.mp hi
  have ⟨hid, hsid⟩ := Prod.mk.inj he
  rw [← List.inj_on_of_nodup_map hw.ids hs' hs hid, hsid]

theorem getSubscription_some (h : getSubscription db id = .ok (some s)) :
    db.subscriptions.filter (·.stripeSubscriptionId = id) = [s] :=
  scalarOneOrNone_mem h

theorem getSubscription_none (h : getSubscription db id = .ok none) :
    db.subscriptions.filter (·.stripeSubscriptionId = id) = [] := by
  unfold getSubscription scalarOneOrNone at h
  split at h <;> first | assumption | cases h

end Database

namespace Webhook

-- A write is about the subscription of its event.
inductive Writes (db : Database) (event : WebhookEvent) : SubscriptionWrite → Prop
  | insert {row id} (ht : dispatch event.type = some .checkoutCompleted)
    (hs : (checkoutSubscription event).text = .ok id) : Writes db event (.insert row id)
  | update {row changes id} (hc : event.Concerns id) (hr : (row, id) ∈ db.stripeIds)
    (hs : ∀ status, changes.status = some status → newStatus event = .ok (some status)) :
    Writes db event (.update row changes)

variable {db db' : Database} {event : WebhookEvent} {p p' : Phase} {a : Action}
  {e : Effect Resource Write} {w : SubscriptionWrite}

theorem Writes.extend (h : Writes db event w) (hp : db.stripeIds <+: db'.stripeIds) :
    Writes db' event w := by
  cases h
  case insert ht hs     => exact .insert ht hs
  case update hc hr hs  => exact .update hc (hp.subset hr) hs

-- The work of a handler on `subscriptions`.
structure Works (db : Database) (event : WebhookEvent) (work : UnitOfWork) : Prop where
  insert : ∀ row, work.insert = some row → dispatch event.type = some .checkoutCompleted ∧
    row.stripeSubscriptionId = checkoutSubscription event
  update : ∀ row changes, work.update = some (row, changes) → Writes db event (.update row changes)

theorem Works.none {pt} : Works db event { planType := pt } :=
  ⟨nofun, nofun⟩

theorem Works.set {pt s assigned id} (hc : event.Concerns id)
    (hs : db.subscriptions.filter (·.stripeSubscriptionId = id) = [s])
    (ha : ∀ status, assigned.status = status → status ≠ s.status →
      newStatus event = .ok (some status)) :
    Works db event { planType := pt, update := UnitOfWork.setSubscription s assigned } where
  insert := nofun
  update row changes hu := by
    obtain ⟨rfl, rfl⟩ := UnitOfWork.setSubscription_some hu
    have ⟨hm, hid⟩ := Rows.of_filter_singleton hs
    refine .update hc (hid ▸ List.mem_map_of_mem hm) fun status h => ?_
    simp only [SubscriptionChanges.diff, SubscriptionChanges.changed] at h
    split at h <;> cases h
    exact ha _ rfl ‹_›

theorem works_of_handles {now work result} (h : Handles db event now work result) :
    Works db event work := by
  cases h
  case checkout ht _ _ _ => exact ⟨fun row hr => Option.some.inj hr ▸ ⟨ht, rfl⟩, nofun⟩
  case updated ht hi hs ha =>
    obtain ⟨status, _, _, hn, rfl⟩ := updateSubscription_ok ha
    refine .set ⟨.inl ht, hi⟩ (Database.getSubscription_some hs) fun st hst hne => ?_
    cases status
    case none   => exact absurd hst.symm hne
    case some x => simpa [newStatus, ht, ← hst] using hn
  case deleted ht hi hs =>
    refine .set ⟨.inr ht, hi⟩ (Database.getSubscription_some hs) fun st hst hne => ?_
    simp [newStatus, ht, ← hst]
  all_goals exact .none

namespace Phase

-- What a delivery is going to write is about the subscription of its event.
def Targeted (db : Database) (event : WebhookEvent) : Phase → Prop
  | deleting _ s => dispatch event.type = some .subscriptionDeleted ∧
    ∃ id, subscriptionId event = .ok id ∧ (s.id, id) ∈ db.stripeIds
  | flushingTenant _ work _ | flushingSubscription _ work _ => Works db event work
  | committing _ _ write _ => ∀ w, write = some w → Writes db event w
  | _ => True

-- The status that the delivery is going to write to a row.
def assigns (row : Nat) : Phase → Option SubscriptionStatus
  | deleting _ s => if s.id = row then SubscriptionChanges.changed s.status .canceled else none
  | flushingTenant _ work _ | flushingSubscription _ work _ =>
    work.update.bind fun (id, changes) => if id = row then changes.status else none
  | committing _ _ (some <| .update id changes) _ => if id = row then changes.status else none
  | _ => none

theorem Targeted.extend (h : p.Targeted db event) (hp : db.stripeIds <+: db'.stripeIds) :
    p.Targeted db' event := by
  cases p <;> simp only [Targeted] at h ⊢
  case deleting   => have ⟨ht, id, hi, hm⟩ := h; exact ⟨ht, id, hi, hp.subset hm⟩
  case committing => exact fun w hw => h w hw |>.extend hp
  all_goals exact ⟨h.insert, fun row changes hu => h.update row changes hu |>.extend hp⟩

theorem Targeted.assigns {row status} (h : p.Targeted db event) (ha : p.assigns row = some status) :
    newStatus event = .ok (some status) ∧ ∃ id, event.Concerns id ∧ (row, id) ∈ db.stripeIds := by
  cases p <;> simp only [Targeted, Phase.assigns] at h ha <;> try contradiction
  case deleting s =>
    obtain ⟨ht, id, hi, hm⟩ := h
    split at ha <;> try contradiction
    unfold SubscriptionChanges.changed at ha
    split at ha <;> cases ha
    subst_vars
    exact ⟨by simp [newStatus, ht], id, ⟨.inr ht, hi⟩, hm⟩
  case committing write _ =>
    rcases write with _ | ⟨_ | _⟩ <;> simp only at ha <;> try contradiction
    split at ha <;> try contradiction
    subst_vars
    cases h _ rfl
    case update hc hr hs => exact ⟨hs _ ha, _, hc, hr⟩
  all_goals
    obtain ⟨⟨id, changes⟩, hu, hs'⟩ := Option.bind_eq_some_iff.mp ha
    split at hs' <;> try contradiction
    subst_vars
    cases h.update _ _ hu
    case update hc hr hs => exact ⟨hs _ hs', _, hc, hr⟩

end Phase

theorem Next.targeted (h : Next db event p a p' e) (hp : p.Targeted db event) :
    p'.Targeted db event := by
  cases h <;> simp only [Phase.Targeted] at hp ⊢
  case handle hh _ => exact works_of_handles <| .of_handle hh
  case load hl     =>
    obtain ⟨ht, id, hi, hs⟩ := hl
    have ⟨hm, hid⟩ := Rows.of_filter_singleton <| Database.getSubscription_some hs
    exact ⟨ht, id, hi, hid ▸ List.mem_map_of_mem hm⟩
  case getTenant =>
    obtain ⟨ht, id, hi, hm⟩ := hp
    refine ⟨by simp [cancelSubscription], fun row changes hu => ?_⟩
    obtain ⟨rfl, rfl⟩ := UnitOfWork.setSubscription_some hu
    refine .update ⟨.inr ht, hi⟩ hm fun status hs => ?_
    simp only [SubscriptionChanges.diff, SubscriptionChanges.changed] at hs
    split at hs <;> cases hs
    simp [newStatus, ht]
  case flushTenant => exact hp
  case flushSubscription work _ write hw =>
    intro w hw'
    subst hw'
    rcases flushSubscription_ok hw with ⟨_, hw⟩ | ⟨row, id, hi, ht, hw⟩
    case inl =>
      obtain ⟨⟨row, changes⟩, hu, rfl⟩ := Option.map_eq_some_iff.mp hw.symm
      exact hp.update _ _ hu
    case inr =>
      obtain rfl := Option.some.inj hw
      obtain ⟨hd, hrow⟩ := hp.insert row hi
      exact .insert hd <| hrow ▸ ht

-- The delivery has read its subscription, and has not finished.
def Phase.decided : Phase → Bool
  | deleting .. | flushingTenant .. | flushingSubscription .. | committing .. => true
  | _ => false

theorem setSubscription_assigns {s assigned : Subscription} :
    ((UnitOfWork.setSubscription s assigned).bind fun (id, changes) =>
      if id = s.id then changes.status else none) =
        SubscriptionChanges.changed s.status assigned.status := by
  unfold UnitOfWork.setSubscription
  split
  case isTrue h  => simp [h, SubscriptionChanges.changed]
  case isFalse h => simp [SubscriptionChanges.diff]

theorem changed_getD {loaded assigned : SubscriptionStatus} :
    (SubscriptionChanges.changed loaded assigned).getD loaded = assigned := by
  unfold SubscriptionChanges.changed
  split <;> simp [*]

-- What a delivery reads decides on the status of its subscription.
theorem Next.decided {stripeId : String} (h : Next db event p a p' e)
    (hc : event.Concerns (some stripeId)) (ht : p.Targeted db event) (hp : p'.decided) :
    (p.decided ∧ ∀ row, p'.assigns row = p.assigns row) ∨
    (p.decided = false ∧ ∀ sub ∈ db.subscriptions, sub.stripeSubscriptionId = some stripeId →
      ∀ status, newStatus event = .ok (some status) →
        (p'.assigns sub.id).getD sub.status = status) := by
  have unique {sub s : Subscription} (hm : sub ∈ db.subscriptions)
      (hi : sub.stripeSubscriptionId = some stripeId)
      (hs : getSubscription db (some stripeId) = .ok (some s)) : sub = s :=
    List.mem_singleton.mp <| Database.getSubscription_some hs ▸
      List.mem_filter.mpr ⟨hm, decide_eq_true hi⟩
  cases h <;> try contradiction
  case handle hh hl =>
    refine .inr ⟨rfl, fun sub hm hi status hn => ?_⟩
    cases Handles.of_handle hh
    case noSubscription hi' hs =>
      cases hc.right.symm.trans hi'
      exact absurd ⟨sub, hm, hi⟩ <| Rows.filter_eq_nil.mp <| Database.getSubscription_none hs
    case updated hd hi' hs ha =>
      cases hc.right.symm.trans hi'
      cases unique hm hi hs
      obtain ⟨status', _, _, hst, rfl⟩ := updateSubscription_ok ha
      simp only [newStatus, hd] at hn
      cases hst.symm.trans hn
      simp only [Phase.assigns]
      rw [setSubscription_assigns, changed_getD]
      rfl
    case deleted hd hi' hs => exact absurd ⟨hd, _, hi', hs⟩ (hl _)
    all_goals rcases hc.left with h | h <;> simp_all
  case load s hl =>
    have ⟨hd, id, hi', hs⟩ := hl
    refine .inr ⟨rfl, fun sub hm hi status hn => ?_⟩
    cases hc.right.symm.trans hi'
    cases unique hm hi hs
    simp only [newStatus, hd] at hn
    cases hn
    simp only [Phase.assigns, if_true, changed_getD]
  case getTenant s _ _ =>
    refine .inl ⟨rfl, fun row => ?_⟩
    simp only [Phase.assigns, cancelSubscription]
    by_cases hr : s.id = row
    case pos => subst hr; rw [setSubscription_assigns, if_pos rfl]
    case neg =>
      rw [if_neg hr]
      unfold UnitOfWork.setSubscription
      split <;> simp [hr]
  case flushTenant => exact .inl ⟨rfl, fun _ => rfl⟩
  case flushSubscription work _ write hw =>
    refine .inl ⟨rfl, fun row => ?_⟩
    rcases flushSubscription_ok hw with ⟨_, rfl⟩ | ⟨_, _, hi, _, _⟩
    case inl => cases hu : work.update <;> simp [Phase.assigns, hu]
    case inr =>
      have ⟨hd, _⟩ := Works.insert ht _ hi
      rcases hc.left with h | h <;> simp_all

-- What the commit of a delivery makes of the rows of a Stripe subscription.
theorem rows_applyWebhook {m pt r stripeId} {w : Option SubscriptionWrite} {sub' : Subscription}
    (hw : ∀ w', w = some w' → Writes db event w')
    (hm : sub' ∈ (db.applyWebhook m pt w).subscriptions)
    (hi : sub'.stripeSubscriptionId = some stripeId) :
    (∃ sub ∈ db.subscriptions, sub.id = sub'.id ∧ sub.stripeSubscriptionId = some stripeId ∧
      sub'.status = ((Phase.committing m pt w r).assigns sub.id).getD sub.status) ∨
    event.Creates stripeId ∧ sub'.status = .active := by
  rw [Database.applyWebhook_subscriptions] at hm
  rcases w with _ | ⟨row, id?⟩ | ⟨row, changes⟩
  case none => exact .inl ⟨sub', hm, rfl, hi, rfl⟩
  case some.insert =>
    simp only [Option.elim, Database.writeSubscription, List.mem_append, List.mem_singleton] at hm
    rcases hm with hm | rfl
    · exact .inl ⟨sub', hm, rfl, hi, rfl⟩
    · cases hi
      cases hw _ rfl
      case insert ht hs => exact .inr ⟨⟨ht, Json.text_eq_some.mp hs⟩, rfl⟩
  case some.update =>
    simp only [Option.elim, Database.writeSubscription] at hm
    obtain ⟨sub, hm', rfl⟩ := Rows.mem_modify.mp hm
    refine .inl ⟨sub, hm', ?_⟩
    by_cases hrow : sub.id = row
    case neg => simpa [Phase.assigns, hrow, Ne.symm hrow] using hi
    case pos => simpa [Phase.assigns, hrow, SubscriptionChanges.apply] using hi

end Webhook

namespace Execution

variable {s s' : State} {l : Label} {db : Database} {id : Uuid} {event : WebhookEvent}
  {p : Webhook.Phase} {stripeId : String} {sub' : Subscription}

theorem Step.stripeIds (h : Step s l s') : s.db.stripeIds <+: s'.db.stripeIds :=
  have ⟨_, hr, _⟩ := h.rowChange
  hr.stripeIds

theorem targeted (h : engine.Reach (.boot db) s) (hs : s.session id = some (.webhook event p)) :
    p.Targeted s.db event := by
  refine webhook_reach h (I := fun db _ event p => p.Targeted db event)
    ?init ?received ?acts ?others hs
  case init     => simp [Sessions.State.boot]
  case received => intros; trivial
  case acts =>
    intro s s' id event p a p' e _ _ hn hd _ hi
    cases hn.writes
    case none hw => rw [hd, hw]; exact hn.targeted hi
    case commit  => trivial
  case others => exact fun _ hs _ _ _ hi => hi.extend hs.stripeIds

-- The status that a step assigns to a row.
def State.assigns (s : State) (row : Nat) : Label → Option SubscriptionStatus
  | .act id (.webhook .commit) =>
    match s.session id with
    | some (.webhook _ p) => p.assigns row
    | _                   => none
  | _ => none

theorem State.assigns_some {row status} (h : engine.Reach (.boot db) s)
    (ha : s.assigns row l = some status) : ∃ id event p, l = .act id (.webhook .commit) ∧
      s.session id = some (.webhook event p) ∧ newStatus event = .ok (some status) ∧
      ∃ stripeId, event.Concerns stripeId ∧ (row, stripeId) ∈ s.db.stripeIds := by
  unfold assigns at ha
  split at ha <;> try contradiction
  split at ha <;> try contradiction
  exact ⟨_, _, _, rfl, ‹_›, targeted h ‹_› |>.assigns ha⟩

-- Where the rows of a Stripe subscription come from.
theorem Step.rows (h : Step s l s') (hr : engine.Reach (.boot db) s)
    (hm : sub' ∈ s'.db.subscriptions) (hi : sub'.stripeSubscriptionId = some stripeId) :
    (∃ sub ∈ s.db.subscriptions, sub.id = sub'.id ∧ sub.stripeSubscriptionId = some stripeId ∧
      sub'.status = (s.assigns sub.id l).getD sub.status) ∨
    ∃ id event p, l = .act id (.webhook .commit) ∧ s.session id = some (.webhook event p) ∧
      event.Creates stripeId ∧ sub'.status = .active := by
  have same (hm : sub' ∈ s.db.subscriptions) (ha : s.assigns sub'.id l = none) :
      ∃ sub ∈ s.db.subscriptions, sub.id = sub'.id ∧ sub.stripeSubscriptionId = some stripeId ∧
        sub'.status = (s.assigns sub.id l).getD sub.status :=
    ⟨sub', hm, rfl, hi, by simp [ha]⟩
  cases h.commits
  case none hl hd =>
    refine .inl <| same (hd ▸ hm) ?_
    unfold State.assigns
    split <;> first | exact absurd rfl (hl _) | rfl
  case usage hd => exact .inl <| same (by rwa [hd] at hm) rfl
  case operation ho => exact .inl <| same (Operation.mem_stripe ho hm hi) rfl
  case webhook id event m pt w r hs hd _ =>
    cases Webhook.rows_applyWebhook (r := r) (targeted hr hs) (hd ▸ hm) hi
    case inl hrow => exact .inl <| by simpa only [State.assigns, hs] using hrow
    case inr hrow => exact .inr ⟨_, _, _, rfl, hs, hrow⟩

end Execution
