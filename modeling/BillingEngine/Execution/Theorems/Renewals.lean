import BillingEngine.Library.Windows
import BillingEngine.Execution.Theorems.Locks

open StripeWebhookHandler

-- What the updates of a subscription do to its row.

-- The period carried by an event, in seconds.
def WebhookEvent.Carries (event : WebhookEvent) (period : Window Int) : Prop :=
  ∃ d, event.object = .obj d ∧ d.lookup "current_period_start" = some (.num period.start) ∧
    d.lookup "current_period_end" = some (.num period.stop)

namespace Database

variable {db : Database}

-- The rows after the assignments to a loaded one.
theorem WellFormed.setSubscription (h : db.WellFormed) {sub assigned : Subscription}
    (hm : sub ∈ db.subscriptions) (ha : ∃ status periodStart periodEnd, assigned = { sub with
      status, currentPeriodStart := periodStart, currentPeriodEnd := periodEnd }) :
    ((UnitOfWork.setSubscription sub assigned).map fun (id, changes) =>
        SubscriptionWrite.update id changes).elim db.subscriptions
      (fun w => (db.writeSubscription w).subscriptions) =
        Rows.modify Subscription.id sub.id (fun _ => assigned) db.subscriptions := by
  have unique {r} (hr : r ∈ db.subscriptions) (hi : r.id = sub.id) : r = sub :=
    List.inj_on_of_nodup_map h.ids hr hm hi
  unfold UnitOfWork.setSubscription
  split
  case isTrue he =>
    exact (Rows.modify_eq_self fun r hr hi => he.trans (unique hr hi).symm).symm
  case isFalse =>
    refine Rows.modify_congr fun r hr hi => ?_
    rw [unique hr hi]
    exact SubscriptionChanges.diff_apply ha

end Database

namespace StripeWebhookHandler

variable {db db' : Database} {event : WebhookEvent} {now : Instant} {row : Nat}
  {sub assigned : Subscription} {period : Window Int}

theorem fromTimestamp_ok {n : Int} {t : Instant} (h : fromTimestamp n = .ok t) :
    t = n * 1000000 := by
  unfold fromTimestamp at h
  split at h <;> cases h
  rfl

-- An update with a period installs this period.
theorem updateSubscription_carries (hc : event.Carries period)
    (h : updateSubscription event sub = .ok assigned) :
    ∃ status, assignedStatus (subscriptionStatus event) = .ok status ∧ assigned = { sub with
      status             := status.getD sub.status
      currentPeriodStart := period.start * 1000000
      currentPeriodEnd   := period.stop * 1000000 } := by
  obtain ⟨d, ho, hstart, hstop⟩ := hc
  simp only [updateSubscription, ho, Except.bind_eq_ok, Except.map_eq_ok, Json.toDict_ok] at h
  obtain ⟨_, ⟨_, ⟨⟩, rfl⟩, _, ⟨⟩, status, ht, _, hb, start, hstart', _, he, stop, hstop', h⟩ := h
  cases h
  simp only [Json.get, hstart, hstop, Option.getD_some, Except.ok.injEq] at hb he
  simp only [← hb, ← he, assignedInstant, Except.map_eq_ok] at hstart' hstop'
  obtain ⟨_, hb, rfl⟩ := hstart'
  obtain ⟨_, he, rfl⟩ := hstop'
  refine ⟨status, by simpa [subscriptionStatus, ho] using ht, ?_⟩
  rw [fromTimestamp_ok hb, fromTimestamp_ok he]
  rfl

-- What a delivery has done when it answers that a subscription has been updated.
structure Updates (db : Database) (event : WebhookEvent) (db' : Database)
    (sub assigned : Subscription) : Prop where
  mem           : sub ∈ db.subscriptions
  update        : updateSubscription event sub = .ok assigned
  subscriptions : db'.subscriptions =
    Rows.modify Subscription.id sub.id (fun _ => assigned) db.subscriptions
  plans         : db'.plans = db.plans
  usageEvents   : db'.usageEvents = db.usageEvents
  wellFormed    : db'.WellFormed

theorem updates (hw : db.WellFormed)
    (h : handleEvent db event now = (.ok <| .subscriptionUpdated row, db')) :
    ∃ sub assigned, sub.id = row ∧ Updates db event db' sub assigned := by
  have hd : Delivers db event now (.ok <| .subscriptionUpdated row) db' := by
    simpa only [h] using delivers db event now
  cases hd
  case apply work write _ _ hf hh =>
    cases Handles.of_handle hh
    case updated id sub assigned ht hi hs ha =>
      have hmem := mem_of_getSubscription hs
      rcases flushSubscription_ok hf with ⟨_, rfl⟩ | ⟨_, _, hn, _⟩
      case inr => cases hn
      obtain ⟨status, periodStart, periodEnd, _, rfl⟩ := updateSubscription_ok ha
      refine ⟨sub, _, rfl, hmem, ha, ?_, ?_, ?_, ?_⟩
      · rw [Database.applyWebhook_subscriptions]
        exact hw.setSubscription hmem ⟨_, _, _, rfl⟩
      · exact Database.applyWebhook_plans
      · exact Database.applyWebhook_usageEvents
      · exact Database.applyWebhook_rowChange.wellFormed hw

-- The updated row.
theorem Updates.subscription? (hu : Updates db event db' sub assigned) (hi : assigned.id = sub.id) :
    db'.subscription? sub.id = some assigned := by
  refine hi ▸ hu.wellFormed.subscription?_of_mem ?_
  rw [hu.subscriptions, Rows.mem_modify]
  exact ⟨sub, hu.mem, by simp⟩

end StripeWebhookHandler
