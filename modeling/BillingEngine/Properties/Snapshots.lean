import Mathlib.Data.List.Permutation
import BillingEngine.Execution.Serial
import BillingEngine.Execution.Theorems.Keys

open Sessions StripeWebhookHandler

namespace SubscriptionChanges

-- The columns which are assigned by `c`, but left out of the `UPDATE` that writes `d`, have the
-- assigned values already.
structure Settled (c d : SubscriptionChanges) (s : Subscription) : Prop where
  status      : d.status = none → ∀ x ∈ c.status, s.status = x
  periodStart : d.currentPeriodStart = none → ∀ x ∈ c.currentPeriodStart, s.currentPeriodStart = x
  periodEnd   : d.currentPeriodEnd = none → ∀ x ∈ c.currentPeriodEnd, s.currentPeriodEnd = x

variable {c : SubscriptionChanges} {loaded assigned s : Subscription}

-- The three columns of an `UPDATE`, one at a time.
theorem changed_settled {β : Type} [DecidableEq β] {c : Option β} {loaded x : β}
    (h : changed loaded (c.getD loaded) = none → ∀ y ∈ c, x = y) :
    (changed loaded (c.getD loaded)).getD x = c.getD x := by
  cases c
  case none => simp [changed]
  case some y =>
    unfold changed at h ⊢
    split
    case isTrue he => simpa [he] using h
    case isFalse   => simp

-- An `UPDATE` computed from a stale row has the effect of the assignments.
theorem Settled.apply_diff (h : c.Settled (diff loaded (c.apply loaded)) s) :
    (diff loaded (c.apply loaded)).apply s = c.apply s := by
  have hs := changed_settled h.status
  have hb := changed_settled h.periodStart
  have he := changed_settled h.periodEnd
  simp only [diff, apply] at hs hb he ⊢
  rw [hs, hb, he]

theorem settled_self : c.Settled (diff s (c.apply s)) s := by
  have settled {β : Type} [DecidableEq β] {c : Option β} {x : β}
      (h : changed x (c.getD x) = none) (y : β) (hy : y ∈ c) : x = y := by
    cases hy
    by_contra hne
    simp [changed, Ne.symm hne] at h
  exact ⟨settled, settled, settled⟩

-- The columns set by a statement.
def written : Option SubscriptionWrite → SubscriptionChanges
  | some (.update _ c) => c
  | _                  => { status := none, currentPeriodStart := none, currentPeriodEnd := none }

theorem written_setSubscription :
    written ((UnitOfWork.setSubscription loaded assigned).map fun (id, changes) =>
      .update id changes) = diff loaded assigned := by
  unfold UnitOfWork.setSubscription
  split
  case isTrue h  => simp [h, written, diff, changed]
  case isFalse h => rfl

end SubscriptionChanges

namespace Database

variable {db db' : Database} {stripeId : String} {sub : Subscription} {row : Nat}
  {c : SubscriptionChanges} {m : ProcessedWebhook} {pt : Option (Uuid × PlanType)}

theorem stripeRows_update :
    (db.writeSubscription <| .update row c).stripeRows stripeId =
      Rows.modify Subscription.id row c.apply (db.stripeRows stripeId) := by
  simp only [stripeRows, writeSubscription, Rows.modify, List.filter_map]
  congr 1
  refine List.filter_congr fun r _ => ?_
  simp only [Function.comp]
  split <;> rfl

theorem stripeRows_applyWebhook {write : Option SubscriptionWrite} :
    (db.applyWebhook m pt write).stripeRows stripeId =
      write.elim (db.stripeRows stripeId) fun w =>
        (db.writeSubscription w).stripeRows stripeId := by
  rw [stripeRows, applyWebhook_subscriptions]
  cases write <;> rfl

-- The row after the `UPDATE` of what a handler has assigned to the version that it has loaded.
theorem stripeRows_setSubscription {loaded assigned : Subscription}
    (hr : db.stripeRows stripeId = [sub]) (hi : loaded.id = sub.id) :
    (db.applyWebhook m pt <| (UnitOfWork.setSubscription loaded assigned).map
      fun (id, changes) => .update id changes).stripeRows stripeId =
        [(SubscriptionChanges.diff loaded assigned).apply sub] := by
  rw [stripeRows_applyWebhook]
  unfold UnitOfWork.setSubscription
  split
  case isTrue h =>
    simp [hr, h, SubscriptionChanges.diff, SubscriptionChanges.changed, SubscriptionChanges.apply]
  case isFalse =>
    simp only [Option.map_some, Option.elim_some, stripeRows_update, hr]
    simp [Rows.modify, hi]

end Database

namespace StripeWebhookHandler

variable {db : Database} {event : WebhookEvent} {now : Instant} {stripeId : String}
  {sub : Subscription} {c : SubscriptionChanges}

-- An event which is processed alone assigns its columns.
theorem handleEvent_concerns {m} (hm : marker event = .ok m) (hp : ¬db.Processed event.id)
    (hc : event.Concerns (some stripeId)) (hr : db.stripeRows stripeId = [sub])
    (ha : assignments event = .ok c) :
    (handleEvent db event now).2.stripeRows stripeId = [c.apply sub] := by
  obtain ⟨f, hf, hw⟩ := @handle_concerns _ _ now _ _ hc hr
  obtain ⟨hi, hu⟩ := hw c
  rw [ha] at hf
  have hflush : flushSubscription db (f c).1 =
      .ok ((f c).1.update.map fun (id, changes) => .update id changes) := by
    simp only [flushSubscription, hi]
    rfl
  simp only [handleEvent, hm, hp, if_false, hf, Functor.map, Except.map, hflush, hu ha]
  rw [Database.stripeRows_setSubscription hr rfl,
    SubscriptionChanges.Settled.apply_diff SubscriptionChanges.settled_self]

theorem Delivers.processed {db' result} {eventId : String} (h : Delivers db event now result db')
    (hp : db'.Processed eventId) : db.Processed eventId ∨ event.id = eventId := by
  cases h
  case apply hm _ _ _ =>
    obtain ⟨w, hw, hi⟩ := hp
    simp only [Database.applyWebhook_processed, List.mem_append, List.mem_singleton] at hw
    rcases hw with hw | rfl
    · exact .inl ⟨w, hw, hi⟩
    · exact .inr <| (marker_eventId hm).symm.trans hi
  all_goals exact .inl hp

-- Events which are processed one after another.
def handleEvents (db : Database) (events : List WebhookEvent) (now : Instant) : Database :=
  events.foldl (fun db event => (handleEvent db event now).2) db

theorem handleEvents_append {events : List WebhookEvent} :
    handleEvents db (events ++ [event]) now =
      (handleEvent (handleEvents db events now) event now).2 := by
  simp [handleEvents]

theorem handleEvents_processed {events : List WebhookEvent} {eventId : String}
    (h : (handleEvents db events now).Processed eventId) :
    db.Processed eventId ∨ eventId ∈ events.map (·.id) := by
  induction events generalizing db
  case nil => exact .inl h
  case cons event events hi =>
    rw [List.map_cons, List.mem_cons]
    cases hi h
    case inl h => exact ((delivers ..).processed h).imp_right fun he => .inl he.symm
    case inr h => exact .inr <| .inr h

end StripeWebhookHandler

namespace Webhook

variable {db : Database} {event : WebhookEvent} {p p' : Phase} {a : Action}
  {e : Effect Resource Write} {row : Nat} {stripeId : String} {sub : Subscription}

-- An `UPDATE` of the row, from what the event assigns to the version that has been loaded.
inductive Prepares (event : WebhookEvent) (row : Nat) : Option (Nat × SubscriptionChanges) → Prop
  | set {c loaded} (ha : assignments event = .ok c) (hi : loaded.id = row) :
    Prepares event row (UnitOfWork.setSubscription loaded <| c.apply loaded)

-- What a delivery for the row is going to write.
def Phase.Prepared (event : WebhookEvent) (row : Nat) : Phase → Prop
  | deleting _ s => dispatch event.type = some .subscriptionDeleted ∧ s.id = row
  | flushingTenant _ work _ | flushingSubscription _ work _ =>
    work.insert = none ∧ Prepares event row work.update
  | committing _ _ write _ => ∃ update, Prepares event row update ∧
    write = update.map fun (id, changes) => .update id changes
  | _ => True

theorem Next.prepared (h : Next db event p a p' e) (hc : event.Concerns (some stripeId))
    (hr : db.stripeRows stripeId = [sub]) (hp : p.Prepared event sub.id) :
    p'.Prepared event sub.id := by
  cases h <;> simp only [Phase.Prepared] at hp ⊢
  case handle hh _ =>
    obtain ⟨f, hf, hw⟩ := handle_concerns hc hr
    obtain ⟨c, ha, hfc⟩ := Except.map_eq_ok.mp <| hf.symm.trans hh
    obtain ⟨hi, hu⟩ := hw c
    rw [hfc] at hi hu
    exact ⟨hi, hu ha ▸ .set ha rfl⟩
  case load s hl =>
    obtain ⟨ht, id, hi, hs⟩ := hl
    cases hc.right.symm.trans hi
    have hs : db.stripeRows stripeId = [s] := Database.getSubscription_some hs
    cases hr.symm.trans hs
    exact ⟨ht, rfl⟩
  case getTenant s _ _ =>
    have ha : assignments event = .ok ⟨some .canceled, none, none⟩ := by
      simp only [assignments, hp.left]
      rfl
    exact ⟨rfl, .set ha hp.right⟩
  case flushTenant => exact hp
  case flushSubscription work _ write hw =>
    rcases flushSubscription_ok hw with ⟨_, hw⟩ | ⟨_, _, hi, _⟩
    · exact ⟨_, hp.right, hw⟩
    · cases hp.left.symm.trans hi

-- The marker of a delivery fits its columns.
def Phase.Marked (event : WebhookEvent) : Phase → Prop
  | marked m | deleting m _ | flushingTenant m _ _ | flushingSubscription m _ _
  | committing m _ _ _ => marker event = .ok m
  | _ => True

theorem Next.marked (h : Next db event p a p' e) (hp : p.Marked event) : p'.Marked event := by
  cases h <;> first | exact hp | trivial

end Webhook

theorem Operation.stripeRows {op : Operation} {db db' : Database} {stripeId : String}
    (h : op.apply db = some db') : db'.stripeRows stripeId = db.stripeRows stripeId := by
  cases Applies.of_apply h
  case createTenant h =>
    obtain ⟨_, _, rfl⟩ := Router.createTenant_ok h
    simp [Database.stripeRows]
  all_goals rfl

namespace Execution

variable {db : Database} {s s' : State} {l : Label} {event : WebhookEvent} {stripeId : String}
  {sub : Subscription} {id : Uuid}

theorem marked (h : engine.Reach (.boot db) s) {id p}
    (hs : s.session id = some (.webhook event p)) : p.Marked event :=
  webhook_reach h (I := fun _ _ => Webhook.Phase.Marked) (by simp [Sessions.State.boot]) trivial
    (fun _ _ hn _ _ hm => hn.marked hm) (fun _ _ _ _ _ hm => hm) hs

-- The row of a Stripe subscription stays, and stays the only one.
theorem exists_stripeRow (hu : db.Unique) (hm : sub ∈ db.subscriptions)
    (hi : sub.stripeSubscriptionId = some stripeId) (h : engine.Reach (.boot db) s) :
    ∃ sub', s.db.stripeRows stripeId = [sub'] ∧ sub'.id = sub.id := by
  have hp : db.stripeIds <+: s.db.stripeIds :=
    h.invariant (I := fun s => db.stripeIds <+: s.db.stripeIds) List.prefix_rfl
      fun hi _ hs => hi.trans (Step.of_step hs).stripeIds
  have hmem : (sub.id, some stripeId) ∈ db.stripeIds := hi ▸ List.mem_map_of_mem hm
  have ⟨sub', hm', he⟩ := List.mem_map.mp <| hp.subset hmem
  have ⟨hid, hi'⟩ := Prod.mk.inj he
  exact ⟨sub', (unique hu h).rows hm' hi', hid⟩

theorem prepared (hu : db.Unique) (hm : sub ∈ db.subscriptions)
    (hi : sub.stripeSubscriptionId = some stripeId) (hc : event.Concerns (some stripeId))
    (h : engine.Reach (.boot db) s) {id p} (hs : s.session id = some (.webhook event p)) :
    p.Prepared event sub.id := by
  refine webhook_reach h (I := fun _ _ event p => event.Concerns (some stripeId) →
    p.Prepared event sub.id) ?init ?received ?acts ?others hs hc
  case init     => simp [Sessions.State.boot]
  case received => intros; trivial
  case acts =>
    intro s s' id event p a p' e hr _ hn _ _ hp hc
    obtain ⟨sub', hrow, hid⟩ := exists_stripeRow hu hm hi hr
    exact hid ▸ hn.prepared hc hrow (hid ▸ hp hc)
  case others => exact fun _ _ _ _ _ hp => hp

-- When a delivery commits, the columns that its event assigns and its `UPDATE` leaves out, as they
-- had the assigned values when the row was loaded, still have these values.
def Settled (stripeId : String) (s : State) : Label → Prop
  | .act id (.webhook .commit) => ∀ ⦃event m pt write r c sub⦄,
    s.session id = some (.webhook event <| .committing m pt write r) →
    event.Concerns (some stripeId) → assignments event = .ok c →
    s.db.stripeRows stripeId = [sub] → c.Settled (.written write) sub
  | _ => True

abbrev Settled.Reach (stripeId : String) : State → State → Prop :=
  Transition.Reach engine.step (Settled stripeId)

-- The events which have been processed for the Stripe subscription leave the same row as if they
-- had been processed one after another.
def State.Serializable (db : Database) (s : State) (stripeId : String) : Prop :=
  ∃ order : List WebhookEvent, (order.map (·.id)).Nodup ∧
    (∀ event, event ∈ order ↔ event.Concerns (some stripeId) ∧ ∃ id, s.Applied id event) ∧
    ∀ now, (handleEvents db order now).stripeRows stripeId = s.db.stripeRows stripeId

-- Rows are changed by the commits of deliveries for them.
theorem Step.stripeRows (hw : db.WellFormed) (h : engine.Reach (.boot db) s) (hst : Step s l s')
    (hc : s.db.Claimed stripeId) :
    s'.db.stripeRows stripeId = s.db.stripeRows stripeId ∨ ∃ id event m pt write r,
      l = .act id (.webhook .commit) ∧ event.Concerns (some stripeId) ∧
      s.session id = some (.webhook event <| .committing m pt write r) := by
  cases hst.commits
  case none hd      => exact .inl <| by rw [hd]
  case usage hd     => exact .inl <| by rw [hd]; rfl
  case operation ho => exact .inl <| Operation.stripeRows ho
  case webhook id event m pt w r hs hd _ =>
    by_cases hce : event.Concerns (some stripeId)
    case pos => exact .inr ⟨_, _, _, _, _, _, rfl, hce, hs⟩
    case neg =>
      left
      rw [hd, Database.stripeRows_applyWebhook]
      rcases w with _ | ⟨_, stripeId'⟩ | ⟨row, changes⟩
      case none => rfl
      case some.insert =>
        have hne : stripeId' ≠ some stripeId := by
          rintro rfl
          exact committing_unclaimed h hs hc
        simp [Database.stripeRows, Database.writeSubscription, NewSubscription.inserted, hne]
      case some.update =>
        cases targeted h hs _ rfl
        case update stripeId' hce' hrow _ =>
          rw [Option.elim_some, Database.stripeRows_update]
          refine Rows.modify_eq_self fun r hr hid => absurd ?_ hce
          obtain ⟨hm, hi⟩ := List.mem_filter.mp hr
          have hi' := (wellFormed hw h).stripeId hm (hid ▸ hrow)
          exact (of_decide_eq_true hi).symm.trans hi' ▸ hce'

-- The commit of a delivery is the next event of the order.
theorem State.Serializable.commit (hu : db.Unique)
    (hm : sub ∈ db.subscriptions) (hi : sub.stripeSubscriptionId = some stripeId)
    (h : engine.Reach (.boot db) s) (hst : Step s (.act id <| .webhook .commit) s') {m pt write r}
    (hs : s.session id = some (.webhook event <| .committing m pt write r))
    (hc : event.Concerns (some stripeId)) (hset : Settled stripeId s (.act id <| .webhook .commit))
    (hser : s.Serializable db stripeId) : s'.Serializable db stripeId := by
  obtain ⟨order, hn, hmem, hrows⟩ := hser
  obtain ⟨happlied, hd⟩ := hst.commit_applied (delivery_locals h hs) hs
  obtain ⟨sub', hrow, hid⟩ := exists_stripeRow hu hm hi h
  have hfresh : ¬s.db.Processed event.id := committing_unprocessed h hs
  have horder : event.id ∉ order.map (·.id) := by
    intro hin
    obtain ⟨event', he, hid⟩ := List.mem_map.mp hin
    obtain ⟨_, _, ha⟩ := hmem event' |>.mp he
    exact hfresh <| hid ▸ applied_processed h ha
  refine ⟨order ++ [event], ?nodup, ?mem, fun now => ?rows⟩
  case nodup => simpa [List.nodup_append, hn] using horder
  case mem =>
    intro event'
    rw [List.mem_append, List.mem_singleton, hmem]
    constructor
    case mp =>
      rintro (⟨hc', id', ha⟩ | rfl)
      · exact ⟨hc', id', hst.applied_mono ha⟩
      · exact ⟨hc, id, happlied⟩
    case mpr =>
      rintro ⟨hc', id', ha⟩
      rcases hst.applied ha with ha | ⟨_, _, _, _, hl, hs'⟩
      · exact .inl ⟨hc', id', ha⟩
      · cases hl
        cases hs.symm.trans hs'
        exact .inr rfl
  case rows =>
    obtain ⟨update, hprep, hwrite⟩ := prepared hu hm hi hc h hs
    cases hprep
    case set c loaded ha hload =>
      have hserial : ¬(handleEvents db order now).Processed event.id := fun hp =>
        (handleEvents_processed hp).elim (fun hp => hfresh <| processed_mono h hp) horder
      rw [handleEvents_append, hd,
        handleEvent_concerns (marked h hs) hserial hc ((hrows now).trans hrow) ha, hwrite,
        Database.stripeRows_setSubscription hrow (hload.trans hid.symm)]
      have hsettled := hset hs hc ha hrow
      rw [hwrite, SubscriptionChanges.written_setSubscription] at hsettled
      rw [hsettled.apply_diff]

theorem serializable (hw : db.WellFormed) (hu : db.Unique) (hm : sub ∈ db.subscriptions)
    (hi : sub.stripeSubscriptionId = some stripeId) (h : Settled.Reach stripeId (.boot db) s) :
    s.Serializable db stripeId := by
  induction h
  case refl =>
    refine ⟨[], by simp, fun event => ?_, fun _ => rfl⟩
    simp [State.Applied, Sessions.State.boot]
  case tail s s' l h hset hst hser =>
    replace hst := Step.of_step hst
    obtain ⟨sub', hrow, hid⟩ := exists_stripeRow hu hm hi h.weaken
    have hclaimed : s.db.Claimed stripeId := ⟨sub', Rows.of_filter_singleton hrow⟩
    by_cases hcommit : ∃ id event m pt write r, l = .act id (.webhook .commit) ∧
      event.Concerns (some stripeId) ∧
      s.session id = some (.webhook event <| .committing m pt write r)
    case pos =>
      obtain ⟨id, event, m, pt, write, r, rfl, hc, hs⟩ := hcommit
      exact hser.commit hu hm hi h.weaken hst hs hc hset
    case neg =>
      obtain ⟨order, hn, hmem, hrows⟩ := hser
      refine ⟨order, hn, fun event => ?_, fun now => ?_⟩
      · rw [hmem]
        refine and_congr_right fun hc => ⟨?mp, ?mpr⟩
        case mp =>
          rintro ⟨id, ha⟩
          exact ⟨id, hst.applied_mono ha⟩
        case mpr =>
          rintro ⟨id, ha⟩
          rcases hst.applied ha with ha | ⟨_, _, _, _, rfl, hs⟩
          · exact ⟨id, ha⟩
          · exact absurd ⟨_, _, _, _, _, _, rfl, hc, hs⟩ hcommit
      · rw [hrows, (hst.stripeRows hw h.weaken hclaimed).resolve_right hcommit]

-- A tenant on "pro" with the subscription "sub".
def subscribed : Database := { Database.migrated Plan.seeds with
  tenants            := [⟨1, "acme", .pro, some "cus", .active⟩]
  subscriptions      := [⟨1, 1, some "sub", 2, .active, 0, 10⟩]
  nextSubscriptionId := 2 }

theorem subscribed_wellFormed : subscribed.WellFormed where
  ids  := by simp [subscribed]
  next := by simp [subscribed]

theorem subscribed_unique : subscribed.Unique where
  tenants   := by simp [subscribed]
  customers := by simp [subscribed]
  plans     := by simp [subscribed, Database.migrated, Plan.seeds]
  stripe    := by simp [subscribed]

-- The steps of two deliveries which both load the row before one of them commits.
def overlapLabels (event event' : WebhookEvent) : List Label :=
  [.start 20 <| .webhook event .received, .start 21 <| .webhook event' .received] ++
  [.insertMarker, .handle 1].map (.act 20 <| .webhook ·) ++
  [.insertMarker, .handle 1, .flushTenant].map (.act 21 <| .webhook ·) ++
  [.flushTenant, .flushSubscription].map (.act 20 <| .webhook ·)

theorem serializable_overlapping : ∃ s : State,
    s.Applied 20 (.updated "evt_1" "sub" "past_due") ∧
    s.Applied 21 (.updated "evt_2" "sub" "canceled") ∧
    s.db.stripeRows "sub" = [⟨1, 1, some "sub", 2, .canceled, 0, 10⟩] ∧
    s.Serializable subscribed "sub" := by
  let as := overlapLabels (.updated "evt_1" "sub" "past_due") (.updated "evt_2" "sub" "canceled")
  have h₁ : Transition.run engine.step (.boot subscribed) as |>.isSome := rfl
  let s₁ : State := (Transition.run engine.step (.boot subscribed) as).get h₁
  have h₂ : engine.step s₁ (.act 20 <| .webhook .commit) |>.isSome := rfl
  let s₂ : State := (engine.step s₁ <| .act 20 <| .webhook .commit).get h₂
  have h₃ : engine.step s₂ (.act 21 <| .webhook .flushSubscription) |>.isSome := rfl
  let s₃ : State := (engine.step s₂ <| .act 21 <| .webhook .flushSubscription).get h₃
  have h₄ : engine.step s₃ (.act 21 <| .webhook .commit) |>.isSome := rfl
  let s₄ : State := (engine.step s₃ <| .act 21 <| .webhook .commit).get h₄
  have hr₁ : Settled.Reach "sub" (.boot subscribed) s₁ :=
    .of_run_all (Option.some_get h₁).symm <| by simp [as, overlapLabels, Settled]
  have hset₁ : Settled "sub" s₁ (.act 20 <| .webhook .commit) := by
    intro event m pt write r c sub hs hc ha hr
    cases hs
    cases ha
    exact ⟨nofun, fun _ => nofun, fun _ => nofun⟩
  have hset₂ : Settled "sub" s₂ (.act 21 <| .webhook .flushSubscription) := trivial
  have hset₃ : Settled "sub" s₃ (.act 21 <| .webhook .commit) := by
    intro event m pt write r c sub hs hc ha hr
    cases hs
    cases ha
    exact ⟨nofun, fun _ => nofun, fun _ => nofun⟩
  have hr : Settled.Reach "sub" (.boot subscribed) s₄ :=
    hr₁.tail hset₁ (Option.some_get h₂).symm
      |>.tail hset₂ (Option.some_get h₃).symm
      |>.tail hset₃ (Option.some_get h₄).symm
  exact ⟨s₄, ⟨_, rfl, nofun⟩, ⟨_, rfl, nofun⟩, rfl,
    serializable subscribed_wellFormed subscribed_unique (.head _) rfl hr⟩

-- The second delivery finds the status unchanged and leaves it out of its `UPDATE`, so that the row
-- gets the status of the first event together with the period of the second one.
theorem not_serializable : ∃ (db : Database) (sub : Subscription) (s : State),
    db.WellFormed ∧ db.Unique ∧ sub ∈ db.subscriptions ∧ sub.stripeSubscriptionId = some "sub" ∧
    engine.Reach (.boot db) s ∧ ¬s.Serializable db "sub" := by
  let as := overlapLabels
      (.renewed "evt_1" "sub" "past_due" 20) (.renewed "evt_2" "sub" "active" 30) ++
    [.act 20 <| .webhook .commit, .act 21 <| .webhook .flushSubscription,
      .act 21 <| .webhook .commit]
  have hs : Transition.run engine.step (.boot subscribed) as |>.isSome := rfl
  have hrun := (Option.some_get hs).symm
  let s : State := (Transition.run engine.step (.boot subscribed) as).get hs
  refine ⟨subscribed, _, s, subscribed_wellFormed, subscribed_unique, .head _, rfl, .get_run hs, ?_⟩
  rintro ⟨order, hn, hmem, hrows⟩
  have hfinal : s.db.stripeRows "sub" = [⟨1, 1, some "sub", 2, .pastDue, 0, 30000000⟩] := rfl
  have events {event} (he : event ∈ order) : event = .renewed "evt_1" "sub" "past_due" 20 ∨
      event = .renewed "evt_2" "sub" "active" 30 := by
    obtain ⟨_, id, result, ha, _⟩ := hmem event |>.mp he
    by_cases hid : id = 20 ∨ id = 21
    case neg =>
      have hn : s.session id = none := session_eq_none hrun <| by
        simp_all [as, overlapLabels, Label.session?, eq_comm]
      cases hn.symm.trans ha
    case pos => rcases hid with rfl | rfl <;> cases ha <;> simp
  have hfst : .renewed "evt_1" "sub" "past_due" 20 ∈ order :=
    hmem _ |>.mpr ⟨⟨.inl rfl, rfl⟩, 20, _, rfl, by simp⟩
  have hsnd : .renewed "evt_2" "sub" "active" 30 ∈ order :=
    hmem _ |>.mpr ⟨⟨.inl rfl, rfl⟩, 21, _, rfl, by simp⟩
  have horder : order = [.renewed "evt_1" "sub" "past_due" 20, .renewed "evt_2" "sub" "active" 30] ∨
      order = [.renewed "evt_2" "sub" "active" 30, .renewed "evt_1" "sub" "past_due" 20] := by
    refine List.perm_pair.mp <| (List.perm_ext_iff_of_nodup hn.of_map ?_).mpr fun event => ?_
    · simp [WebhookEvent.renewed]
    · simp only [List.mem_cons, List.not_mem_nil, or_false]
      exact ⟨events, by rintro (rfl | rfl) <;> assumption⟩
  have hrow := (hrows 0).trans hfinal
  rcases horder with rfl | rfl <;> exact absurd hrow (by decide)

end Execution
