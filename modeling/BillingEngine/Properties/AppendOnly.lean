import BillingEngine.Execution.Serial

open Sessions QuotaEnforcer

-- The columns of a tenant and of a subscription which never change.

def Tenant.fixed (t : Tenant) : Uuid × String :=
  (t.id, t.name)

def Subscription.fixed (s : Subscription) : Nat × Uuid × Option String × Nat :=
  (s.id, s.tenantId, s.stripeSubscriptionId, s.planId)

-- `db'` is a later version of `db`: the recorded usage, the stored responses and the log of
-- webhooks are only added to, and no other row is removed or replaced by another one.
structure Database.Continues (db db' : Database) : Prop where
  usageEvents   : db.usageEvents <+: db'.usageEvents
  records       : db.idempotencyRecords <+: db'.idempotencyRecords
  webhooks      : db.processedWebhooks <+: db'.processedWebhooks
  tenants       : db.tenants.map Tenant.fixed <+: db'.tenants.map Tenant.fixed
  subscriptions : db.subscriptions.map Subscription.fixed <+:
                    db'.subscriptions.map Subscription.fixed
  plans         : db'.plans = db.plans
  sequence      : db.nextSubscriptionId ≤ db'.nextSubscriptionId

namespace Database

variable {db db' db'' : Database}

namespace Continues

theorem refl : db.Continues db :=
  ⟨List.prefix_rfl, List.prefix_rfl, List.prefix_rfl, List.prefix_rfl, List.prefix_rfl, rfl, le_rfl⟩

theorem trans (h : db.Continues db') (h' : db'.Continues db'') : db.Continues db'' where
  usageEvents   := h.usageEvents.trans h'.usageEvents
  records       := h.records.trans h'.records
  webhooks      := h.webhooks.trans h'.webhooks
  tenants       := h.tenants.trans h'.tenants
  subscriptions := h.subscriptions.trans h'.subscriptions
  plans         := h'.plans.trans h.plans
  sequence      := le_trans h.sequence h'.sequence

-- Sums over the recorded usage only grow, as the rows that have been summed up stay.
theorem total_le (h : db.Continues db') {q : UsageEvent → Nat} {p : UsageEvent → Prop}
    [DecidablePred p] : Rows.total q p db.usageEvents ≤ Rows.total q p db'.usageEvents := by
  obtain ⟨es, he⟩ := h.usageEvents
  rw [← he, Rows.total_append]
  exact Nat.le_add_right ..

end Continues

theorem continues_usage {event : UsageEvent} {record : IdempotencyRecord} :
    db.Continues ((Write.usage event record).apply db) :=
  { Continues.refl with
    usageEvents := List.prefix_append ..
    records     := List.prefix_append .. }

theorem continues_webhook {marker planType} {write : Option SubscriptionWrite} :
    db.Continues (db.applyWebhook marker planType write) where
  usageEvents := prefix_of_eq applyWebhook_usageEvents.symm
  records     := prefix_of_eq applyWebhook_records.symm
  webhooks    := by rw [applyWebhook_processed]; exact List.prefix_append ..
  plans       := applyWebhook_plans
  tenants     := by
    rw [applyWebhook_tenants]
    cases planType
    case none => exact List.prefix_rfl
    case some => exact prefix_of_eq <| Eq.symm <| Rows.modify_map fun _ => rfl
  subscriptions := by
    rw [applyWebhook_subscriptions]
    rcases write with _ | _ | _
    case none        => exact List.prefix_rfl
    case some.insert => simp [writeSubscription]
    case some.update => exact prefix_of_eq <| Eq.symm <| Rows.modify_map fun _ => rfl
  sequence := by
    rw [applyWebhook_nextSubscriptionId]
    rcases write with _ | _ | _ <;> simp [writeSubscription]

theorem continues_operation {op : Operation} (h : op.apply db = some db') : db.Continues db' := by
  cases Operation.Applies.of_apply h
  case createTenant h =>
    obtain ⟨_, _, rfl⟩ := Router.createTenant_ok h
    exact { Continues.refl with
      tenants       := by simp
      subscriptions := by simp
      sequence      := Nat.le_succ _ }
  case linkCustomer    =>
    exact { Continues.refl with
      tenants := prefix_of_eq <| Eq.symm <| Rows.modify_map (by intro; rfl) }
  case setTenantStatus =>
    exact { Continues.refl with
      tenants := prefix_of_eq <| Eq.symm <| Rows.modify_map (by intro; rfl) }

end Database

namespace Execution

variable {ok : State → Label → Prop} {s s' : State} {l : Label}

theorem Step.continues (h : Step s l s') : s.db.Continues s'.db := by
  cases h.commits
  case none hd      => rw [hd]; exact .refl
  case usage hd     => rw [hd]; exact Database.continues_usage
  case webhook hd _ => rw [hd]; exact Database.continues_webhook
  case operation ho => exact Database.continues_operation ho

theorem continues (h : Transition.Reach engine.step ok s s') : s.db.Continues s'.db := by
  induction h
  case refl           => exact .refl
  case tail _ hs hi   => exact hi.trans (Step.of_step hs).continues

-- No run rewrites the history, so that the usage of a tenant in a span of time never decreases.
theorem append_only (h : Transition.Reach engine.step ok s s') : s.db.Continues s'.db ∧
    ∀ tenantId start stop type, usedQuantity s.db.usageEvents tenantId start stop type ≤
      usedQuantity s'.db.usageEvents tenantId start stop type :=
  ⟨continues h, fun _ _ _ _ => continues h |>.total_le⟩

-- A recorded call survives everything that is done to its tenant afterwards.
theorem append_only_suspended : ∃ s s' : State, s.db.usageEvents.map (·.id) = [10] ∧
    s'.db.tenants.map (·.status) = [.suspended] ∧ s.db.Continues s'.db ∧
    ∀ tenantId start stop type, usedQuantity s.db.usageEvents tenantId start stop type ≤
      usedQuantity s'.db.usageEvents tenantId start stop type := by
  let as := .env (.createTenant 1 { name := "acme" } 0) ::
    (checkLabels 10 (.apiCall 1 "a" (by decide)) (.stable _) 1 ++ commitLabels 10 2)
  have hs : Transition.run engine.step (.boot <| .migrated Plan.seeds) as |>.isSome := rfl
  let s : State := (Transition.run engine.step (.boot <| .migrated Plan.seeds) as).get hs
  have hs' : Transition.run engine.step s [.env (.setTenantStatus 1 .suspended)] |>.isSome := rfl
  have hr : engine.Reach s _ := Transition.Reach.get_run hs'
  exact ⟨s, _, rfl, rfl, append_only hr⟩

end Execution
