import Mathlib.Data.Int.ConditionallyCompleteOrder
import BillingEngine.Execution.Serial
import BillingEngine.Execution.Theorems.Renewals

open QuotaEnforcer StripeWebhookHandler

-- An update of a subscription to a new period.
def WebhookEvent.renewal (id subscription : String) (period : Window Int) : WebhookEvent where
  id     := id
  type   := "customer.subscription.updated"
  object := .obj [("id", .str subscription), ("status", .str "active"),
    ("current_period_start", .num period.start), ("current_period_end", .num period.stop)]

-- The quantity of a type that a tenant has used within a span of time.
def Database.quantityWithin (db : Database) (tenantId : Uuid) (type : EventType)
    (start stop : Instant) : Nat :=
  db.usageEvents.filter (fun e => (e.tenantId = tenantId ∧ e.eventType = type) ∧
    start ≤ e.timestamp ∧ e.timestamp < stop) |>.map (·.totalQuantity) |>.sum

namespace Execution

-- Updates renew the subscription in the row `row` one after another, where `subs` are the versions
-- of the row that they leave behind. In between, anything may happen.
inductive Renewals (row : Nat) : Database → List (Window Int) → List Subscription → Prop
  | nil {db} : Renewals row db [] []
  | cons {db db' s event now period periods sub subs} (hr : engine.Reach (.boot db) s)
    (hc : event.Carries period)
    (hd : handleEvent s.db event now = (.ok <| .subscriptionUpdated row, db'))
    (hs : db'.subscription? row = some sub) (h : Renewals row db' periods subs) :
    Renewals row db (period :: periods) (sub :: subs)

theorem monotone_instant : Monotone fun seconds : Int => (seconds * 1000000 : Instant) :=
  fun _ _ h => Int.mul_le_mul_of_nonneg_right h (by decide)

-- A period in microseconds.
def instants (period : Window Int) : Window Instant :=
  period.map (fun seconds => (seconds * 1000000 : Instant)) monotone_instant

def Installed (period : Window Int) (sub : Subscription) : Prop :=
  sub.currentPeriodStart = (instants period).start ∧ sub.currentPeriodEnd = (instants period).stop

variable {row : Nat} {db : Database} {period : Window Int} {periods : List (Window Int)}
  {sub : Subscription} {subs : List Subscription} {start stop : Int} {tenantId : Uuid}
  {type : EventType} {e : UsageEvent}

theorem Renewals.installed (hw : db.WellFormed) (h : Renewals row db periods subs) :
    List.Forall₂ Installed periods subs := by
  induction h
  case nil => exact .nil
  case cons hr hc hd hs _ hi =>
    obtain ⟨sub, assigned, rfl, hu⟩ := updates (wellFormed hw hr) hd
    refine .cons ?_ <| hi hu.wellFormed
    obtain ⟨status, _, rfl⟩ := updateSubscription_carries hc hu.update
    cases (hu.subscription? rfl).symm.trans hs
    exact ⟨rfl, rfl⟩

theorem Installed.counted (h : Installed period sub) :
    Counted tenantId sub.currentPeriodStart sub.currentPeriodEnd type e ↔
      (e.tenantId = tenantId ∧ e.eventType = type) ∧ (instants period).Contains e.timestamp := by
  rw [h.left, h.right, Counted, Window.Contains]
  tauto

-- The rollups of the periods add up.
theorem sum_usedQuantity (hi : List.Forall₂ Installed periods subs)
    (hc : Window.Chain start periods stop) :
    (subs.map fun sub => usedQuantity db.usageEvents tenantId sub.currentPeriodStart
      sub.currentPeriodEnd type).sum =
        db.quantityWithin tenantId type (start * 1000000) (stop * 1000000) := by
  have hmap : (subs.map fun sub => usedQuantity db.usageEvents tenantId sub.currentPeriodStart
      sub.currentPeriodEnd type) = (periods.map instants).map fun w => Rows.total (·.totalQuantity)
        (fun e => (e.tenantId = tenantId ∧ e.eventType = type) ∧ w.Contains e.timestamp)
        db.usageEvents := by
    clear hc
    induction hi
    case nil            => rfl
    case cons h _ hi    =>
      rw [List.map_cons, hi]
      exact congrArg (· :: _) <| Rows.total_congr fun _ _ => h.counted
  rw [hmap]
  exact (hc.map monotone_instant).total

-- Every event is counted in one of the periods and under one of the types.
theorem existsUnique_counted (hi : List.Forall₂ Installed periods subs)
    (hc : Window.Chain start periods stop) (ht : e.tenantId = tenantId)
    (ha : start * 1000000 ≤ e.timestamp) (hb : e.timestamp < stop * 1000000) :
    ∃! c : Fin subs.length × EventType,
      Counted tenantId subs[c.1].currentPeriodStart subs[c.1].currentPeriodEnd c.2 e := by
  have hl : (periods.map instants).length = subs.length := by simp [hi.length_eq]
  have counted (i : Fin subs.length) (type) :
      Counted tenantId subs[i].currentPeriodStart subs[i].currentPeriodEnd type e ↔
        (e.tenantId = tenantId ∧ e.eventType = type) ∧
          (periods.map instants)[i.cast hl.symm].Contains e.timestamp := by
    have hr : Installed _ subs[i] := hi.get (by simp [hi.length_eq]) i.isLt
    simpa using hr.counted
  obtain ⟨i, hw, hu⟩ := (hc.map monotone_instant).existsUnique ha hb
  refine ⟨(i.cast hl, e.eventType), (counted _ _).mpr ⟨⟨ht, rfl⟩, hw⟩, ?_⟩
  rintro ⟨j, type⟩ hj
  obtain ⟨⟨_, rfl⟩, hj'⟩ := (counted j type).mp hj
  obtain rfl := hu (j.cast hl.symm) hj'
  rfl

-- Renewals partition the usage between the start of the first period and the end of the last one.
theorem partitioned {db₀ : Database} (hw : db₀.WellFormed) (h : Renewals row db₀ periods subs)
    (hc : Window.Chain start periods stop) (db : Database) (tenantId : Uuid) :
    (∀ e ∈ db.usageEvents, e.tenantId = tenantId → start * 1000000 ≤ e.timestamp →
      e.timestamp < stop * 1000000 → ∃! c : Fin subs.length × EventType,
        Counted tenantId subs[c.1].currentPeriodStart subs[c.1].currentPeriodEnd c.2 e) ∧
    let sums := subs.map fun sub =>
      sumPeriodUsage db tenantId sub.currentPeriodStart sub.currentPeriodEnd
    (sums.map (·.1)).sum =
      db.quantityWithin tenantId .apiCall (start * 1000000) (stop * 1000000) ∧
    (sums.map (·.2)).sum =
      db.quantityWithin tenantId .aiToken (start * 1000000) (stop * 1000000) := by
  have hi := h.installed hw
  refine ⟨fun e _ => existsUnique_counted hi hc, ?calls, ?tokens⟩
  case calls  => rw [List.map_map]; exact sum_usedQuantity hi hc
  case tokens => rw [List.map_map]; exact sum_usedQuantity hi hc

-- Calls at the start of a period, right before its end and at its end, where the next one starts.
theorem partitioned_boundary : ∃ (db₀ db : Database) (subs : List Subscription),
    Renewals 1 db₀ [⟨0, 10, by decide⟩, ⟨10, 20, by decide⟩] subs ∧
    db.usageEvents.map (·.timestamp) = [0, 9999999, 10000000] ∧
    (subs.map fun sub => sumPeriodUsage db 1 sub.currentPeriodStart sub.currentPeriodEnd) =
      [(2, 0), (1, 0)] ∧
    ((subs.map fun sub => sumPeriodUsage db 1 sub.currentPeriodStart sub.currentPeriodEnd).map
      (·.1)).sum = db.quantityWithin 1 .apiCall (0 * 1000000) (20 * 1000000) := by
  let db₀ : Database := { Database.migrated Plan.seeds with
    subscriptions := [⟨1, 1, some "sub", 2, .active, 0, 10⟩], nextSubscriptionId := 2 }
  let db₁ : Database := (handleEvent db₀ (.renewal "evt_1" "sub" ⟨0, 10, by decide⟩) 0).2
  let db₂ : Database := (handleEvent db₁ (.renewal "evt_2" "sub" ⟨10, 20, by decide⟩) 0).2
  have hd₁ : handleEvent db₀ (.renewal "evt_1" "sub" ⟨0, 10, by decide⟩) 0 =
    (.ok <| .subscriptionUpdated 1, db₁) := Prod.ext rfl rfl
  have hd₂ : handleEvent db₁ (.renewal "evt_2" "sub" ⟨10, 20, by decide⟩) 0 =
    (.ok <| .subscriptionUpdated 1, db₂) := Prod.ext rfl rfl
  have h : Renewals 1 db₀ [⟨0, 10, by decide⟩, ⟨10, 20, by decide⟩]
      [⟨1, 1, some "sub", 2, .active, 0, 10000000⟩,
       ⟨1, 1, some "sub", 2, .active, 10000000, 20000000⟩] :=
    .cons .refl ⟨_, rfl, rfl, rfl⟩ hd₁ rfl <| .cons .refl ⟨_, rfl, rfl, rfl⟩ hd₂ rfl .nil
  have hw : db₀.WellFormed := ⟨by simp [db₀], by simp [db₀]⟩
  have hc : Window.Chain (0 : Int) [⟨0, 10, by decide⟩, ⟨10, 20, by decide⟩] 20 :=
    .cons (w := ⟨0, 10, by decide⟩) <| .cons (w := ⟨10, 20, by decide⟩) .nil
  let call (id : Uuid) (key : String) (timestamp : Instant) : UsageEvent :=
    MeteringEngine.newUsageEvent {} id 1 .apiCall {} key timestamp
  let db : Database := { db₀ with
    usageEvents := [call 10 "a" 0, call 11 "b" 9999999, call 12 "c" 10000000] }
  exact ⟨db₀, db, _, h, rfl, by decide, (partitioned hw h hc db 1).right.left⟩

end Execution
