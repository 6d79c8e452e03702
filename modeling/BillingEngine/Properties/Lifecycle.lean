import BillingEngine.Execution.Serial
import BillingEngine.Execution.Theorems.Statuses

open Sessions QuotaEnforcer StripeWebhookHandler

theorem Usage.Phase.Local.eligible {id request p sub} (h : Usage.Phase.Local id request p)
    (hs : p.subscription? = some sub) : Eligible request.payload.tenantId sub := by
  cases p <;> simp only [Usage.Phase.Local] at h <;> cases hs
  case checking   => exact h.left ▸ h.right
  case inserting  => exact h.right.eligible
  case recording  => exact h.left.eligible
  case committing => exact h.left.eligible

namespace Execution

variable {db : Database} {s s' : State} {l : Label} {id : Uuid} {event : WebhookEvent}
  {p : Webhook.Phase} {stripeId : String} {sub : Subscription}

-- The locking `SELECT` of a usage request has returned a row of the Stripe subscription, and the
-- request has not been committed yet.
def State.Uses (s : State) (stripeId : String) : Prop :=
  ∃ id request p sub, s.session id = some (.usage request p) ∧ p.subscription? = some sub ∧
    sub.stripeSubscriptionId = some stripeId

-- No row of the Stripe subscription is active.
def State.Dead (s : State) (stripeId : String) : Prop :=
  ∀ ⦃sub⦄, sub ∈ s.db.subscriptions → sub.stripeSubscriptionId = some stripeId →
    sub.status ≠ .active

theorem State.Dead.not_uses (hd : s.Dead stripeId) (h : engine.Reach (.boot db) s) :
    ¬s.Uses stripeId := by
  intro ⟨id, request, p, sub, hs, hp, hi⟩
  have hm := Rows.find?_key_mem (locked_row h hs hp) |>.left
  exact hd hm hi (locals h hs |>.eligible hp).right

-- No event that makes the Stripe subscription active is processed.
def Unrevived (stripeId : String) (s : State) : Label → Prop
  | .act id (.webhook .commit) => ∀ {event p}, s.session id = some (.webhook event p) →
    ¬event.Creates stripeId ∧ ¬(event.Concerns (some stripeId) ∧ event.Usable)
  | _ => True

abbrev Unrevived.Reach (stripeId : String) : State → State → Prop :=
  Transition.Reach engine.step (Unrevived stripeId)

-- Where a row of the Stripe subscription comes from in such a step.
theorem Step.unrevived (hw : db.WellFormed) (h : engine.Reach (.boot db) s) (hst : Step s l s')
    (hu : Unrevived stripeId s l) (hm : sub ∈ s'.db.subscriptions)
    (hi : sub.stripeSubscriptionId = some stripeId) :
    ∃ sub₀ ∈ s.db.subscriptions, sub₀.id = sub.id ∧ sub₀.stripeSubscriptionId = some stripeId ∧
      sub.status = (s.assigns sub₀.id l).getD sub₀.status ∧ s.assigns sub₀.id l ≠ some .active := by
  rcases hst.rows h hm hi with ⟨sub₀, hm₀, hid, hi₀, hs⟩ | ⟨id, event, p, rfl, hs, hc, _⟩
  case inr => exact absurd hc (hu hs).left
  case inl =>
    refine ⟨sub₀, hm₀, hid, hi₀, hs, fun ha => ?_⟩
    have ⟨id, event, p, hl, hse, hn, stripeId', hc, hr⟩ := State.assigns_some h ha
    subst hl
    obtain rfl := hi₀.symm.trans <| (wellFormed hw h).stripeId hm₀ hr
    exact (hu hse).right ⟨hc, WebhookEvent.newStatus_active.mp hn⟩

-- What the deletion leaves of the rows of its subscription.
def Deleting (stripeId : String) (db : Database) (p : Webhook.Phase) : Prop :=
  (p.decided ∨ ∃ result, p = .answered result ∧ ∀ eventId, result ≠ .duplicateIgnored eventId) →
    ∀ sub ∈ db.subscriptions, sub.stripeSubscriptionId = some stripeId →
      (p.assigns sub.id).getD sub.status ≠ .active

theorem deleting (hw : db.WellFormed) (h : engine.Reach (.boot db) s)
    (hs : s.session id = some (.webhook event p)) (hp : p.decided = false)
    (ha : ¬s.Applied id event) (ht : dispatch event.type = some .subscriptionDeleted)
    (hi : subscriptionId event = .ok (some stripeId)) (h' : Unrevived.Reach stripeId s s') {p'}
    (hs' : s'.session id = some (.webhook event p')) : Deleting stripeId s'.db p' := by
  have hc : event.Concerns (some stripeId) := ⟨.inr ht, hi⟩
  refine webhook_reach h' (I := fun db id' event' p => id' = id → event' = event →
    Deleting stripeId db p) ?init ?received ?acts ?others hs' rfl rfl
  case received => intro _ _ _ _ _ hd; rcases hd with hd | ⟨_, hd, _⟩ <;> cases hd
  case init =>
    rintro id' event' p hs₀ rfl rfl hd
    cases hs.symm.trans hs₀
    rcases hd with hd | ⟨result, rfl, hr⟩
    · simp [hp] at hd
    · exact absurd ⟨result, hs, hr⟩ ha
  case acts =>
    rintro s₁ s₂ id' event' p₁ a p₂ e hr hs₁ hn hd _ hi rfl rfl hp₂ sub hm hid
    have hr₁ := h.trans hr.weaken
    cases hn.writes
    case none hac hwr =>
      rw [hd, hwr] at hm
      by_cases hdec : p₂.decided
      case pos =>
        rcases hn.decided hc (targeted hr₁ hs₁) hdec with ⟨hdec₁, hasg⟩ | ⟨_, hread⟩
        · exact hasg sub.id ▸ hi rfl rfl (.inl hdec₁) sub hm hid
        · rw [hread sub hm hid .canceled (by simp [newStatus, ht])]
          simp
      case neg =>
        obtain ⟨result, rfl, hres⟩ := hp₂.resolve_left hdec
        cases hn
        case commit => contradiction
        case skip   => exact (hres _ rfl).elim
    case commit m pt w r _ =>
      rw [hd] at hm
      rcases Webhook.rows_applyWebhook (r := r) (targeted hr₁ hs₁) hm hid with hrow | ⟨hcr, _⟩
      · obtain ⟨sub₀, hm₀, hrow, hi₀, hstatus⟩ := hrow
        exact hstatus ▸ hi rfl rfl (.inl rfl) sub₀ hm₀ hi₀
      · exact absurd hcr hc.not_creates
  case others =>
    rintro s₁ s₂ l id' event' p₁ hr hst hu _ hs₁ hi rfl rfl hp₁ sub hm hid
    obtain ⟨sub₀, hm₀, hrow, hi₀, hstatus, hne⟩ := hst.unrevived hw (h.trans hr.weaken) hu hm hid
    have hold := hi rfl rfl hp₁ sub₀ hm₀ hi₀
    rw [hrow] at hold
    cases hasg : p₁.assigns sub.id
    case some => simpa [hasg] using hold
    case none =>
      simp only [hasg, Option.getD_none] at hold ⊢
      rw [hstatus]
      cases hl : s₁.assigns sub₀.id l
      case none   => exact hold
      case some x => exact fun hx => hne <| hl.trans <| congrArg some hx

-- Once a deletion has been processed, its subscription is dead until an event revives it, where the
-- events count which are processed after the deletion has read the subscription.
theorem stays_dead (hw : db.WellFormed) (h : engine.Reach (.boot db) s)
    (hs : s.session id = some (.webhook event p)) (hp : p.decided = false)
    (ha : ¬s.Applied id event) (ht : dispatch event.type = some .subscriptionDeleted)
    (hi : subscriptionId event = .ok (some stripeId)) (h' : Unrevived.Reach stripeId s s')
    (ha' : s'.Applied id event) : s'.Dead stripeId ∧ ¬s'.Uses stripeId := by
  have ⟨result, hs', hr⟩ := ha'
  have hd : s'.Dead stripeId := deleting hw h hs hp ha ht hi h' hs' (.inr ⟨result, rfl, hr⟩)
  exact ⟨hd, hd.not_uses <| h.trans h'.weaken⟩

theorem stays_dead_created : ∃ s : State, s.Applied 21 (.deleted "evt_2" "sub") ∧
    (∃ sub ∈ s.db.subscriptions, sub.stripeSubscriptionId = some "sub") ∧
    s.Dead "sub" ∧ ¬s.Uses "sub" := by
  let as := [.env <| .createTenant 1 { name := "acme" } 0, .env <| .linkCustomer 1 "cus"] ++
    deliveryLabels 20 (.checkout "evt_1" "cus" "sub") 1 ++
    [.start 21 <| .webhook (.deleted "evt_2" "sub") .received]
  have hs : Transition.run engine.step (.boot <| .migrated Plan.seeds) as |>.isSome := rfl
  let s : State := (Transition.run engine.step (.boot <| .migrated Plan.seeds) as).get hs
  let bs : List Label :=
    [.insertMarker, .handle 2, .getTenant, .flushTenant, .flushSubscription].map
      (.act 21 <| .webhook ·)
  have hs₁ : Transition.run engine.step s bs |>.isSome := rfl
  let s₁ : State := (Transition.run engine.step s bs).get hs₁
  have hs₂ : engine.step s₁ (.act 21 <| .webhook .commit) |>.isSome := rfl
  let s₂ : State := (engine.step s₁ (.act 21 <| .webhook .commit)).get hs₂
  have hr₁ : Unrevived.Reach "sub" s s₁ :=
    .of_run_all (Option.some_get hs₁).symm <| by simp [bs, Unrevived]
  have hr₂ : Unrevived.Reach "sub" s₁ s₂ := by
    refine .single (a := .act 21 <| .webhook .commit) ?_ (Option.some_get hs₂).symm
    intro event p hs
    cases hs
    exact ⟨fun h => (nomatch h.left), fun h => (nomatch h.right.left)⟩
  have ha : s₂.Applied 21 (.deleted "evt_2" "sub") := ⟨.subscriptionCanceled 2, rfl, nofun⟩
  exact ⟨s₂, ha, ⟨_, .tail _ (.head _), rfl⟩,
    stays_dead .migrated (.get_run hs) rfl rfl (by rintro ⟨_, h, _⟩; cases h) rfl rfl
      (hr₁.trans hr₂) ha⟩

-- The deletion arrives before the checkout, and finds no subscription.
theorem not_stays_dead : ∃ s : State, engine.Reach (.boot <| .migrated Plan.seeds) s ∧
    s.Applied 20 (.deleted "evt_2" "sub") ∧ ¬s.Dead "sub" ∧ s.Uses "sub" := by
  let as := [.env <| .createTenant 1 { name := "acme" } 0, .env <| .linkCustomer 1 "cus"] ++
    deliveryLabels 20 (.deleted "evt_2" "sub") 1 ++
    deliveryLabels 21 (.checkout "evt_1" "cus" "sub") 2 ++
    checkLabels 10 (.apiCall 1 "a" (by decide)) (.stable _) 3
  have hs : Transition.run engine.step (.boot <| .migrated Plan.seeds) as |>.isSome := rfl
  refine ⟨_, .get_run hs, ⟨.noMatchingSubscription "sub", rfl, nofun⟩, fun hd => ?_,
    10, _, _, _, rfl, rfl, rfl⟩
  exact hd (.tail _ (.head _)) rfl rfl

-- The event that a step processes, if any.
def State.processes (s : State) : Label → List WebhookEvent
  | .act id (.webhook .commit) =>
    match s.session id with
    | some (.webhook event _) => [event]
    | _                       => []
  | _ => []

-- The last of the processed events that updates or deletes the Stripe subscription.
def lastEvent (stripeId : String) (log : List WebhookEvent) : Option WebhookEvent :=
  log.filter (·.Concerns (some stripeId)) |>.getLast?

theorem lastEvent_append {log : List WebhookEvent} : lastEvent stripeId (log ++ [event]) =
    if event.Concerns (some stripeId) then some event else lastEvent stripeId log := by
  by_cases h : event.Concerns (some stripeId) <;> simp [lastEvent, h]

-- (1) An event whose status has no branch is processed only while no row of the Stripe subscription
--     is active,
-- (2) the subscription is not created after an event which says that it is not usable, and
-- (3) no event for the subscription is processed while another one has read it and not finished.
def Followed (stripeId : String) (t : State × List WebhookEvent) : Label → Prop
  | .act id (.webhook .commit) => ∀ {event p}, t.1.session id = some (.webhook event p) →
    (event.Concerns (some stripeId) → (∀ status, newStatus event ≠ .ok (some status)) →
      t.1.Dead stripeId) ∧
    (event.Creates stripeId → ∀ {last}, lastEvent stripeId t.2 = some last → last.Usable) ∧
    (event.Concerns (some stripeId) ∨ event.Creates stripeId → ∀ {id' event' p'}, id' ≠ id →
      t.1.session id' = some (.webhook event' p') → event'.Concerns (some stripeId) →
      p'.decided = false)
  | _ => True

abbrev Followed.Reach (stripeId : String) :
    State × List WebhookEvent → State × List WebhookEvent → Prop :=
  Transition.Reach (Transition.logged engine.step State.processes) (Followed stripeId)

-- The deliveries that have read the subscription are going to give it the status of their event.
def State.Current (s : State) (stripeId : String) : Prop :=
  ∀ ⦃id event p⦄, s.session id = some (.webhook event p) → event.Concerns (some stripeId) →
    p.decided → ∀ ⦃sub⦄, sub ∈ s.db.subscriptions → sub.stripeSubscriptionId = some stripeId →
      ∀ ⦃status⦄, newStatus event = .ok (some status) → (p.assigns sub.id).getD sub.status = status

-- The rows of the subscription are active if and only if the event says that it is usable.
def State.Follows (s : State) (stripeId : String) (event : WebhookEvent) : Prop :=
  ∀ ⦃sub⦄, sub ∈ s.db.subscriptions → sub.stripeSubscriptionId = some stripeId →
    (sub.status = .active ↔ event.Usable)

variable {t t' : State × List WebhookEvent}

-- A step assigns a status to a row of the subscription by processing an event for it.
theorem assigns_concerns {status} (hw : db.WellFormed) (h : engine.Reach (.boot db) s)
    (hm : sub ∈ s.db.subscriptions) (hi : sub.stripeSubscriptionId = some stripeId)
    (ha : s.assigns sub.id l = some status) : ∃ id event p, l = .act id (.webhook .commit) ∧
      s.session id = some (.webhook event p) ∧ event.Concerns (some stripeId) ∧
      newStatus event = .ok (some status) := by
  have ⟨id, event, p, hl, hs, hn, stripeId', hc, hr⟩ := State.assigns_some h ha
  obtain rfl := hi.symm.trans <| (wellFormed hw h).stripeId hm hr
  exact ⟨id, event, p, hl, hs, hc, hn⟩

theorem Step.current (hw : db.WellFormed) (h : engine.Reach (.boot db) s) (hst : Step s l s')
    {log : List WebhookEvent} (hf : Followed stripeId (s, log) l) (hcur : s.Current stripeId) :
    s'.Current stripeId := by
  intro id event p hs hc hp sub hm hi status hn
  rcases hst.webhook_session hs with ⟨hl, hs⟩ | ⟨rfl, _⟩ | ⟨p₀, a, e, rfl, hs₀, hnx, hd⟩
  case inr.inl => cases hp
  case inl =>
    rcases hst.rows h hm hi with
      ⟨sub₀, hm₀, hid, hi₀, hstatus⟩ | ⟨id', event', p', rfl, hs', hcr, _⟩
    case inr =>
      have hdec := (hf hs').right.right (.inr hcr) (fun he => hl <| congrArg some he.symm) hs hc
      exact absurd hp <| by simp [hdec]
    case inl =>
      cases ha : s.assigns sub₀.id l
      case none =>
        rw [hstatus, ha, Option.getD_none, ← hid]
        exact hcur hs hc hp hm₀ hi₀ hn
      case some =>
        obtain ⟨id', event', p', rfl, hs', hc', _⟩ := assigns_concerns hw h hm₀ hi₀ ha
        have hdec := (hf hs').right.right (.inl hc') (fun he => hl <| congrArg some he.symm) hs hc
        exact absurd hp <| by simp [hdec]
  case inr.inr =>
    cases hnx.writes
    case commit => cases hp
    case none hwr =>
      rw [hd, hwr] at hm
      rcases hnx.decided hc (targeted h hs₀) hp with ⟨hp₀, hasg⟩ | ⟨_, hread⟩
      · exact hasg sub.id ▸ hcur hs₀ hc hp₀ hm hi hn
      · exact hread sub hm hi status hn

theorem Step.follows (hw : db.WellFormed) (h : engine.Reach (.boot db) s) (hst : Step s l s')
    {log : List WebhookEvent} (hf : Followed stripeId (s, log) l) (hcur : s.Current stripeId)
    (hfol : ∀ {last}, lastEvent stripeId log = some last → s.Follows stripeId last) {last}
    (hl : lastEvent stripeId (log ++ s.processes l) = some last) : s'.Follows stripeId last := by
  intro sub hm hi
  have hrow := hst.rows h hm hi
  have quiet (hne : ∀ id, l ≠ .act id (.webhook .commit)) : sub.status = .active ↔ last.Usable := by
    have hp : s.processes l = [] := by
      unfold State.processes
      split <;> first | exact absurd rfl (hne _) | rfl
    rw [hp, List.append_nil] at hl
    rcases hrow with ⟨sub₀, hm₀, _, hi₀, hstatus⟩ | ⟨id, _, _, rfl, _⟩
    case inr => exact absurd rfl (hne id)
    case inl =>
      cases ha : s.assigns sub₀.id l
      case none   => rw [hstatus, ha]; exact hfol hl hm₀ hi₀
      case some _ =>
        obtain ⟨id, _, _, rfl, _⟩ := assigns_concerns hw h hm₀ hi₀ ha
        exact absurd rfl (hne id)
  cases hst.commits
  case none hne _ => exact quiet hne
  case usage      => exact quiet (by simp)
  case operation  => exact quiet (by simp)
  case webhook id event m pt w r hs _ _ =>
    obtain ⟨hdead, hcreate, _⟩ := hf hs
    rw [show s.processes (.act id <| .webhook .commit) = [event] by simp [State.processes, hs],
      lastEvent_append] at hl
    by_cases hc : event.Concerns (some stripeId)
    case pos =>
      obtain rfl := Option.some.inj <| (if_pos hc).symm.trans hl
      rcases hrow with ⟨sub₀, hm₀, _, hi₀, hstatus⟩ | ⟨id', _, _, hid, hs', hcr, _⟩
      case inr =>
        cases hid
        cases hs.symm.trans hs'
        exact absurd hcr hc.not_creates
      case inl =>
        by_cases hn : ∃ status, newStatus event = .ok (some status)
        case pos =>
          obtain ⟨status, hn⟩ := hn
          have hcs := hcur hs hc rfl hm₀ hi₀ hn
          rw [hstatus, State.assigns, hs, hcs, ← WebhookEvent.newStatus_active, hn]
          simp
        case neg =>
          have ha : s.assigns sub₀.id (.act id <| .webhook .commit) = none := by
            refine Option.eq_none_iff_forall_ne_some.mpr fun status ha => hn ?_
            obtain ⟨_, _, _, hid, hs', _, hn⟩ := assigns_concerns hw h hm₀ hi₀ ha
            cases hid
            cases hs.symm.trans hs'
            exact ⟨status, hn⟩
          rw [hstatus, ha, Option.getD_none]
          refine iff_of_false (hdead hc (not_exists.mp hn) hm₀ hi₀) fun hu => hn ?_
          exact ⟨_, WebhookEvent.newStatus_active.mpr hu⟩
    case neg =>
      rw [if_neg hc] at hl
      rcases hrow with ⟨sub₀, hm₀, _, hi₀, hstatus⟩ | ⟨id', _, _, hid, hs', hcr, hactive⟩
      case inr =>
        cases hid
        cases hs.symm.trans hs'
        exact iff_of_true hactive (hcreate hcr hl)
      case inl =>
        cases ha : s.assigns sub₀.id (.act id <| .webhook .commit)
        case none   => rw [hstatus, ha]; exact hfol hl hm₀ hi₀
        case some _ =>
          obtain ⟨_, _, _, hid, hs', hc', _⟩ := assigns_concerns hw h hm₀ hi₀ ha
          cases hid
          cases hs.symm.trans hs'
          exact absurd hc' hc

-- What holds in every state of such a run.
structure Obeys (stripeId : String) (t : State × List WebhookEvent) : Prop where
  current : t.1.Current stripeId
  follows : ∀ {last}, lastEvent stripeId t.2 = some last → t.1.Follows stripeId last

theorem obeys (hw : db.WellFormed) (h : Followed.Reach stripeId (.boot db, []) t) :
    Obeys stripeId t := by
  refine h.invariant_of (I := Obeys stripeId) (·.unlogged) ?init ?step
  case init => exact ⟨by simp [State.Current, Sessions.State.boot], nofun⟩
  case step =>
    intro t l t' hr hi hf hst
    obtain ⟨hst, hlog⟩ := Transition.logged_some.mp hst
    replace hst := Step.of_step hst
    exact ⟨hst.current hw hr hf hi.current,
      fun hl => hst.follows hw hr hf hi.current hi.follows <| hlog ▸ hl⟩

-- Usage is admitted under the subscription only if its last event says that it is usable.
theorem status_followed (hw : db.WellFormed) (h : Followed.Reach stripeId (.boot db, []) t)
    (hl : lastEvent stripeId t.2 = some event) :
    t.1.Follows stripeId event ∧ (¬event.Usable → ¬t.1.Uses stripeId) := by
  have hf := (obeys hw h).follows hl
  have hdead (hu : ¬event.Usable) : t.1.Dead stripeId := fun _ hm hi hs => hu <| hf hm hi |>.mp hs
  exact ⟨hf, fun hu => (hdead hu).not_uses h.unlogged⟩

theorem status_followed_past_due : ∃ s : State,
    s.db.subscriptions = [⟨1, 1, some "sub", 2, .pastDue, 0, 10⟩] ∧
    s.Follows "sub" (.updated "evt" "sub" "past_due") ∧ ¬s.Uses "sub" := by
  let db : Database := { Database.migrated Plan.seeds with
    tenants            := [⟨1, "acme", .pro, some "cus", .active⟩]
    subscriptions      := [⟨1, 1, some "sub", 2, .active, 0, 10⟩]
    nextSubscriptionId := 2 }
  let as := (deliveryLabels 20 (.updated "evt" "sub" "past_due") 1).take 5
  have ht : Transition.run (Transition.logged engine.step State.processes) (.boot db, []) as
    |>.isSome := rfl
  let t := (Transition.run (Transition.logged engine.step State.processes) (.boot db, []) as).get ht
  have ht' : Transition.logged engine.step State.processes t (.act 20 <| .webhook .commit)
    |>.isSome := rfl
  let t' := (Transition.logged engine.step State.processes t <| .act 20 <| .webhook .commit).get ht'
  have hrun := (Option.some_get ht).symm
  have hr : Followed.Reach "sub" (.boot db, []) t :=
    .of_run_all hrun <| by simp [as, deliveryLabels, Followed]
  have hr' : Followed.Reach "sub" t t' := by
    refine .single (a := .act 20 <| .webhook .commit) ?_ (Option.some_get ht').symm
    intro event p hs
    cases hs
    refine ⟨fun _ hn => (hn .pastDue rfl).elim, fun hc => absurd hc.left (by decide), ?_⟩
    intro _ id' _ _ hne hs'
    have hn : t.1.session id' = none := session_eq_none (Transition.run_logged hrun) <| by
      simp [as, deliveryLabels, Label.session?, Ne.symm hne]
    cases hn.symm.trans hs'
  have hw : db.WellFormed := ⟨by simp [db], by simp [db]⟩
  obtain ⟨hf, hu⟩ := status_followed (t := t') hw (hr.trans hr') rfl
  refine ⟨t'.1, rfl, hf, hu ?_⟩
  rintro ⟨_, status, hm, hs⟩
  cases hs
  contradiction

-- A paused subscription stays active, and a later request is answered `201` under it.
theorem not_status_followed : ∃ (t : State × List WebhookEvent) (event : WebhookEvent)
    (request : UsageRequest) (response : HttpResponse) (s' : State),
    Transition.Reach (Transition.logged engine.step State.processes) Transition.always
      (.boot <| .migrated Plan.seeds, []) t ∧
    lastEvent "sub" t.2 = some event ∧ ¬event.Usable ∧ t.1.Uses "sub" ∧
    Transition.run engine.step t.1 [.act 10 <| .usage .commit, .act 10 <| .usage .respond] =
      some s' ∧ s'.Answered 10 request response ∧ response.statusCode = 201 := by
  let as := [.env <| .createTenant 1 { name := "acme" } 0, .env <| .linkCustomer 1 "cus"] ++
    deliveryLabels 20 (.checkout "evt_1" "cus" "sub") 1 ++
    deliveryLabels 21 (.updated "evt_2" "sub" "paused") 2 ++
    checkLabels 10 (.apiCall 1 "a" (by decide)) (.stable _) 3 ++ (commitLabels 10 4).take 2
  have ⟨t, hrun, hlog, request, skipped, check, e, r, hs, hi⟩ : ∃ t : State × List WebhookEvent,
      Transition.run (Transition.logged engine.step State.processes)
        (.boot <| .migrated Plan.seeds, []) as = some t ∧
      t.2 = [.checkout "evt_1" "cus" "sub"] ++ [.updated "evt_2" "sub" "paused"] ∧
      ∃ request skipped check e r,
        t.1.session 10 = some (.usage request <| .committing skipped check e r) ∧
        check.subscription.stripeSubscriptionId = some "sub" :=
    ⟨_, rfl, rfl, _, _, _, _, _, rfl, rfl⟩
  let s₁ : State := engine.perform t.1 10
    (.usage request <| .responding <| Router.usageResult 201 r.responseBody) (.commit <| .usage e r)
  have hp : s₁.session 10 = some (.usage request <| .responding <| Router.usageResult 201
    r.responseBody) := by simp [s₁, Program.perform]
  refine ⟨t, .updated "evt_2" "sub" "paused", request, Router.usageResult 201 r.responseBody, _,
    (Transition.Reach.of_run hrun).weaken,
    (congrArg _ hlog).trans <| lastEvent_append.trans <| if_pos ⟨.inl rfl, rfl⟩, ?_,
    ⟨10, request, _, _, hs, rfl, hi⟩, Transition.run_cons_some.mpr ⟨s₁,
      step_usage hs Usage.Next.commit.to_next trivial, Transition.run_cons_some.mpr ⟨_,
        step_usage hp Usage.Next.respond.to_next trivial, rfl⟩⟩,
    by simp [State.Answered, Program.perform], rfl⟩
  rintro ⟨_, status, hm, hs⟩
  cases hs
  contradiction

end Execution
