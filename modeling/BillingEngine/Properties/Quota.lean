import BillingEngine.Properties.Serialization

open Sessions QuotaEnforcer

theorem Database.Referential.usedQuantity_eq_zero {db : Database}
    (h : db.Referential) {id : Uuid}
    (hf : id ∉ db.tenants.map (·.id)) {periodStart periodEnd type} :
    usedQuantity db.usageEvents id periodStart periodEnd type = 0 := by
  refine Rows.total_eq_zero fun e he hc => hf ?_
  have ht := Database.tenant?_isSome.mp <| h e he
  rwa [hc.left] at ht

namespace Execution

variable {s : State} {plans : List Plan}

-- The usage of each subscription's tenant in its period is within the plan.
def State.WithinLimits (s : State) : Prop :=
  ∀ ⦃sub plan⦄, sub ∈ s.db.subscriptions → s.db.plan? sub.planId = some plan → ∀ type,
    usedQuantity s.db.usageEvents sub.tenantId sub.currentPeriodStart sub.currentPeriodEnd type ≤
      plan.limit type

theorem within_limits (h : NoWebhook.Reach (.boot <| .migrated plans) s) : s.WithinLimits := by
  refine h.invariant_of (J := NoWebhook.Reach (.boot <| .migrated plans)) (fun h => h) ?_ ?_
  case refine_1 => simp [State.WithinLimits, Sessions.State.boot, Database.migrated]
  case refine_2 =>
    intro s l s' hr hi hok hst sub plan hm hp type
    replace hst := Step.of_step hst
    rw [Database.plan?, hst.plans] at hp
    cases hst.commits
    case none hd      => rw [hd] at hm ⊢; exact hi hm hp type
    case webhook      => exact (no_webhook hr _ _ _ ‹_›).elim
    case operation ho =>
      rw [(Operation.sameUsage ho).usageEvents]
      cases Operation.mem_subscriptions ho hm
      case inl hm => exact hi hm hp type
      case inr hf =>
        have href : s.db.Referential :=
          event_tenant (by simp [Database.Referential, Database.migrated]) hr.weaken
        rw [href.usedQuantity_eq_zero hf]
        exact Nat.zero_le _
    case usage request skipped check event record hs hd =>
      rw [hd] at hm
      rw [hd, Write.apply, usedQuantity_append]
      by_cases hc : Counted sub.tenantId sub.currentPeriodStart sub.currentPeriodEnd type event
      case neg => rw [if_neg hc]; exact hi hm hp type
      case pos =>
        -- The event is counted for the subscription that the request has locked.
        obtain ⟨hk, ho, _⟩ := locals hr.weaken hs
        have hrow := locked_row hr.weaken hs rfl
        have ht : check.subscription.tenantId = sub.tenantId :=
          hk.eligible.left.trans <| ho.tenant.symm.trans hc.left
        have hsub := one_each hr |>.unique (Rows.find?_key_mem hrow).left hm ht
        subst hsub
        have hplan := Option.some.inj <| hp.symm.trans <| checked_plan hr.weaken hs rfl
        have hroll := rollups_current .migrated (NoWebhook.undisturbed hr) hs rfl type
        have htype : request.payload.eventType = type := ho.type.symm.trans hc.right.right.right
        subst hplan htype
        rw [if_pos hc, ho.quantity, hk.eligible.left, ← hroll]
        exact hk.headroom

-- The usage of a tenant is never more than what the plan allows.
theorem never_oversold (h : NoWebhook.Reach (.boot <| .migrated plans) s) {tenant : Tenant}
    (ht : tenant ∈ s.db.tenants) :
    ∃ sub plan, s.db.subscriptions.filter (·.tenantId = tenant.id) = [sub] ∧
      s.db.plan? sub.planId = some plan ∧ ∀ type,
        usedQuantity s.db.usageEvents tenant.id sub.currentPeriodStart sub.currentPeriodEnd type ≤
          plan.limit type := by
  have ho := one_each h
  have hm : tenant.id ∈ s.db.subscriptions.map (·.tenantId) :=
    ho.rows ▸ List.mem_map_of_mem ht
  have ⟨sub, hs, hi⟩ := List.mem_map.mp hm
  have ⟨plan, hp⟩ := Option.isSome_iff_exists.mp <| ho.plans sub hs
  exact ⟨sub, plan, Rows.filter_key (ho.rows ▸ ho.tenantIds) hs hi, hp, hi ▸ within_limits h hs hp⟩

-- Of two concurrent requests for the last call of the period, one is refused.
theorem never_oversold_last_call :
    ∃ s : State, s.Answered 11 (.apiCall 1 "b" (by decide)) (Router.quotaResponse <|
        .quotaExceeded 1 1 1 2591999) ∧
      ∃ sub plan, s.db.subscriptions.filter (·.tenantId = 1) = [sub] ∧
        s.db.plan? sub.planId = some plan ∧ ∀ type, usedQuantity s.db.usageEvents 1
          sub.currentPeriodStart sub.currentPeriodEnd type ≤ plan.limit type := by
  let as := .env (.createTenant 1 { name := "acme" } 0) ::
    (checkLabels 10 (.apiCall 1 "a" (by decide)) (.stable _) 1 ++
      (checkLabels 11 (.apiCall 1 "b" (by decide)) (.stable _) 1).take 4 ++ commitLabels 10 2 ++
      [.lock, .check 3, .rollback].map (.act 11 <| .usage ·))
  have hs : Transition.run engine.step (.boot <| .migrated [⟨1, "free", 1, 100⟩]) as |>.isSome :=
    rfl
  have hr : NoWebhook.Reach _ _ := .of_run_all (Option.some_get hs).symm <| by
    simp [as, checkLabels, commitLabels, NoWebhook]
  let s : State := (Transition.run engine.step (.boot <| .migrated _) as).get hs
  have hm : ⟨1, "acme", .free, none, .active⟩ ∈ s.db.tenants := List.Mem.head _
  have hretry : retryAfterSeconds 2592000000000 3 = 2591999 := by decide +kernel
  have hraised : quotaExceededError 1 1 1 2591999 = .quotaExceeded 1 1 1 2591999 := rfl
  refine ⟨s, ?_, never_oversold hr hm⟩
  rw [← hraised, ← hretry]
  exact rfl

end Execution
