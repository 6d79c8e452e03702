import Mathlib.Data.List.MinMax
import BillingEngine.Execution.Serial
import BillingEngine.Execution.Theorems.Renewals

open QuotaEnforcer StripeWebhookHandler

-- The time left in a period, in seconds.
def secondsLeft (periodEnd now : Instant) : ℚ :=
  (periodEnd - now : Int) / 1000000

-- Cutting off the fraction of the last second changes nothing, either because there is none, or
-- because the number of double precision is a whole number of seconds already.
def Untruncated (seconds : ℚ) : Prop :=
  seconds ≤ 1 ∨ ⌈seconds⌉ ≤ seconds + Double.ulp seconds / 2

section Seconds

variable {periodEnd now : Instant} {r : Nat}

theorem secondsLeft_pos (h : now < periodEnd) : 0 < secondsLeft periodEnd now := by
  have hd : (0 : ℚ) < (periodEnd - now : Int) := Int.cast_pos.mpr <| sub_pos.mpr h
  exact div_pos hd (by norm_num)

theorem secondsLeft_lt (hn : now.InRange) (he : periodEnd.InRange) :
    secondsLeft periodEnd now < 2 ^ 52 := by
  have hd : periodEnd - now < 2 ^ 52 * 1000000 := by linarith [hn.left, he.right]
  rw [secondsLeft, div_lt_iff₀ (by norm_num)]
  exact_mod_cast hd

theorem secondsLeft_le : secondsLeft periodEnd now ≤ r ↔ periodEnd ≤ now + r * 1000000 := by
  rw [secondsLeft, div_le_iff₀ (by norm_num), ← sub_le_iff_le_add']
  norm_cast

theorem retryAfterSeconds_eq (h : now < periodEnd) (hn : now.InRange) (he : periodEnd.InRange) :
    (retryAfterSeconds periodEnd now : Int) =
      max 1 ⌊secondsLeft periodEnd now + Double.ulp (secondsLeft periodEnd now) / 2⌋ := by
  rw [retryAfterSeconds, totalSeconds, ← secondsLeft,
    Double.floor_nearest (secondsLeft_pos h) (secondsLeft_lt hn he)]
  omega

-- The period is over after the answered time only if nothing of it has been cut off.
theorem reset_iff (h : now < periodEnd) (hn : now.InRange) (he : periodEnd.InRange) :
    periodEnd ≤ now + retryAfterSeconds periodEnd now * 1000000 ↔
      Untruncated (secondsLeft periodEnd now) := by
  rw [← secondsLeft_le, ← Int.cast_natCast, retryAfterSeconds_eq h hn he, Int.cast_max, le_max_iff,
    Int.cast_one, ← Int.ceil_le, Int.le_floor, Untruncated]

-- The answered time is never more than a second too long.
theorem reset_le (h : now < periodEnd) (hn : now.InRange) (he : periodEnd.InRange) :
    now + retryAfterSeconds periodEnd now * 1000000 ≤ periodEnd + 1000000 := by
  have hpos := secondsLeft_pos h
  have hulp : Double.ulp (secondsLeft periodEnd now) ≤ 2 ^ ((52 : ℤ) - 53) :=
    Double.ulp_le hpos <| by exact_mod_cast secondsLeft_lt hn he
  have hone : (2 : ℚ) ^ ((52 : ℤ) - 53) ≤ 1 := by norm_num
  have hle : (retryAfterSeconds periodEnd now : ℚ) ≤ secondsLeft periodEnd now + 1 := by
    rw [← Int.cast_natCast, retryAfterSeconds_eq h hn he, Int.cast_max, max_le_iff, Int.cast_one]
    constructor
    case left  => linarith
    case right => exact le_trans (Int.floor_le _) (by linarith)
  rw [secondsLeft, ← sub_le_iff_le_add, le_div_iff₀ (by norm_num)] at hle
  have hle : (retryAfterSeconds periodEnd now - 1 : Int) * 1000000 ≤ periodEnd - now := by
    exact_mod_cast hle
  linarith

-- Within the next 544 years, the precision of the double does not matter.
theorem untruncated_iff (h : now < periodEnd) (hlt : periodEnd - now < 2 ^ 34 * 1000000) :
    Untruncated (secondsLeft periodEnd now) ↔
      periodEnd - now ≤ 1000000 ∨ 1000000 ∣ periodEnd - now := by
  have hone : secondsLeft periodEnd now ≤ 1 ↔ periodEnd - now ≤ 1000000 := by
    rw [secondsLeft, div_le_one (by norm_num)]
    norm_cast
  refine or_congr hone ⟨?mp, ?mpr⟩
  case mp =>
    intro hceil
    have hx : secondsLeft periodEnd now < 2 ^ (34 : ℤ) := by
      rw [secondsLeft, div_lt_iff₀ (by norm_num)]
      exact_mod_cast hlt
    have hulp : Double.ulp (secondsLeft periodEnd now) ≤ 2 ^ ((34 : ℤ) - 53) :=
      Double.ulp_le (secondsLeft_pos h) hx
    -- Half a step is less than a microsecond.
    have hstep : Double.ulp (secondsLeft periodEnd now) / 2 < 1 / 1000000 :=
      lt_of_le_of_lt (div_le_div_of_nonneg_right hulp two_pos.le) (by norm_num)
    have hge := Int.le_ceil (secondsLeft periodEnd now)
    have hd : secondsLeft periodEnd now * 1000000 = (periodEnd - now : Int) :=
      div_mul_cancel₀ _ (by norm_num)
    have hlo : ((periodEnd - now : Int) : ℚ) ≤ (⌈secondsLeft periodEnd now⌉ * 1000000 : Int) := by
      rw [← hd]
      push_cast
      linarith
    have hhi : ((⌈secondsLeft periodEnd now⌉ * 1000000 : Int) : ℚ) <
        (periodEnd - now : Int) + 1 := by
      rw [← hd]
      push_cast
      linarith
    refine ⟨⌈secondsLeft periodEnd now⌉, ?_⟩
    rw [mul_comm]
    exact le_antisymm (by exact_mod_cast hlo) (Int.le_of_lt_add_one <| by exact_mod_cast hhi)
  case mpr =>
    rintro ⟨n, hn⟩
    have hx : secondsLeft periodEnd now = n := by
      rw [secondsLeft, hn]
      push_cast
      exact mul_div_cancel_left₀ _ (by norm_num)
    rw [hx, Int.ceil_intCast]
    linarith [Double.ulp_pos (x := (n : ℚ))]

end Seconds

-- The subscription has been renewed into a new period, which lasts longer than until `retry` and in
-- which nothing has been used yet.
structure Renewed (db : Database) (subscription : Subscription) (retry : Instant) (db' : Database)
    (renewed : Subscription) : Prop where
  renewal : ∃ periodStart periodEnd, renewed = { subscription with
    currentPeriodStart := periodStart, currentPeriodEnd := periodEnd }
  follows : subscription.currentPeriodEnd ≤ renewed.currentPeriodStart
  ordered : renewed.currentPeriodStart < renewed.currentPeriodEnd
  current : retry < renewed.currentPeriodEnd
  mem     : renewed ∈ db'.subscriptions
  others  : ∀ s ∈ db'.subscriptions, s = renewed ∨ s ∈ db.subscriptions
  plans   : db'.plans = db.plans
  unused  : ∀ type, usedQuantity db'.usageEvents renewed.tenantId renewed.currentPeriodStart
    renewed.currentPeriodEnd type = 0

-- The answer to a request which is to be repeated after `retryAfter` seconds tells the truth.
structure Retryable (db : Database) (tenant : Tenant) (subscription : Subscription)
    (eventType : EventType) (requested : Nat) (now : Instant) (retryAfter : Nat) : Prop where
  reset    : subscription.currentPeriodEnd ≤ now + retryAfter * 1000000
  latest   : now + retryAfter * 1000000 ≤ subscription.currentPeriodEnd + 1000000
  admitted : ∀ {db' renewed}, Renewed db subscription (now + retryAfter * 1000000) db' renewed →
    ∀ o, ∃ check, checkAndReserve db' o tenant eventType requested (now + retryAfter * 1000000) =
      .ok check

section Retry

variable {db db' : Database} {o : OrderBy} {tenant : Tenant} {subscription renewed : Subscription}
  {plan : Plan} {eventType : EventType} {requested : Nat} {now retry : Instant}

-- The renewed subscription is the one that is locked, as it lasts longer than the others.
theorem Renewed.selected (h : Renewed db subscription retry db' renewed)
    (hs : getLockedActiveSubscription db o tenant.id = some subscription)
    (hr : subscription.currentPeriodEnd ≤ retry) (o' : OrderBy) :
    getLockedActiveSubscription db' o' tenant.id = some renewed := by
  have he := mem_activeSubscriptions.mp (Rows.Descending.head_mem hs) |>.right
  have hm : renewed ∈ activeSubscriptions db' tenant.id := by
    obtain ⟨_, _, rfl⟩ := h.renewal
    exact mem_activeSubscriptions.mpr ⟨h.mem, he⟩
  cases hl : getLockedActiveSubscription db' o' tenant.id
  case none => rw [Rows.Descending.head_none.mp hl] at hm; cases hm
  case some s =>
    have ⟨hs', he'⟩ := mem_activeSubscriptions.mp <| Rows.Descending.head_mem hl
    rcases h.others s hs' with rfl | hold
    case inl => rfl
    case inr =>
      have hmax := Rows.Descending.head_max hl hm
      have hmax' := Rows.Descending.head_max hs <| mem_activeSubscriptions.mpr ⟨hold, he'⟩
      exact absurd h.current <| not_lt.mpr <| hmax.trans <| hmax'.trans hr

-- In the new period, a request is admitted if it fits the plan at all.
theorem Renewed.admitted_iff (h : Renewed db subscription retry db' renewed)
    (hs : getLockedActiveSubscription db o tenant.id = some subscription)
    (hp : db.plan? subscription.planId = some plan) (ht : tenant.status = .active)
    (hr : subscription.currentPeriodEnd ≤ retry) (o' : OrderBy) :
    (∃ check, checkAndReserve db' o' tenant eventType requested retry = .ok check) ↔
      requested ≤ plan.limit eventType := by
  have hsel := h.selected hs hr o'
  obtain ⟨_, _, rfl⟩ := h.renewal
  have hp' : db'.plan? subscription.planId = some plan := by
    rw [Database.plan?, h.plans, ← Database.plan?, hp]
  have hi : subscription.tenantId = tenant.id :=
    mem_activeSubscriptions.mp (Rows.Descending.head_mem hs) |>.right.left
  have hc := @checkAndReserve_compares db' tenant _ eventType requested retry o' plan ht hsel
    h.current hp'
  have hu := h.unused eventType
  simp only [hi] at hu hc
  simp only [hu, Nat.zero_add] at hc
  constructor
  case mp =>
    rintro ⟨check, hok⟩
    by_contra hn
    cases hok.symm.trans <| hc.right (not_le.mp hn)
  case mpr => exact hc.left

-- There is such a period after the usage so far.
theorem exists_renewed (hm : subscription ∈ db.subscriptions) :
    ∃ db' renewed, Renewed db subscription retry db' renewed := by
  let last := db.usageEvents.map (·.timestamp) |>.foldr max 0
  let start := max subscription.currentPeriodEnd (last + 1)
  let stop := max retry start + 1
  let renewed : Subscription :=
    { subscription with currentPeriodStart := start, currentPeriodEnd := stop }
  refine ⟨{ db with subscriptions := db.subscriptions.map fun s =>
    if s = subscription then renewed else s }, renewed, ?_⟩
  constructor
  case renewal => exact ⟨_, _, rfl⟩
  case follows => exact le_max_left ..
  case ordered => exact Int.lt_add_one_of_le <| le_max_right ..
  case current => exact Int.lt_add_one_of_le <| le_max_left ..
  case mem     => exact List.mem_map.mpr ⟨subscription, hm, if_pos rfl⟩
  case others =>
    intro s hs
    obtain ⟨r, hr, rfl⟩ := List.mem_map.mp hs
    split
    case isTrue  => exact .inl rfl
    case isFalse => exact .inr hr
  case plans => rfl
  case unused =>
    intro type
    refine Rows.total_eq_zero fun e he hc => ?_
    have hle : e.timestamp ≤ last := List.le_max_of_le' 0 (List.mem_map_of_mem he) le_rfl
    have hge : last + 1 ≤ e.timestamp := le_trans (le_max_right ..) hc.right.left
    exact absurd hge <| not_le.mpr <| Int.lt_add_one_of_le hle

-- Updates that leave the status alone renew a subscription.
theorem renewed_of_handleEvent {event : WebhookEvent} {time : Instant} {period : Window Int}
    (hw : db.WellFormed) (hm : subscription ∈ db.subscriptions)
    (hd : handleEvent db event time = (.ok <| .subscriptionUpdated subscription.id, db'))
    (hc : event.Carries period) (ha : ∀ status, assignedStatus (subscriptionStatus event) =
      .ok (some status) → status = subscription.status)
    (hf : subscription.currentPeriodEnd ≤ period.start * 1000000)
    (ho : period.start < period.stop) (hr : retry < period.stop * 1000000)
    (hu : ∀ type, usedQuantity db.usageEvents subscription.tenantId (period.start * 1000000)
      (period.stop * 1000000) type = 0) :
    Renewed db subscription retry db' { subscription with
      currentPeriodStart := period.start * 1000000
      currentPeriodEnd   := period.stop * 1000000 } := by
  obtain ⟨sub, assigned, hi, h⟩ := updates hw hd
  obtain rfl := List.inj_on_of_nodup_map hw.ids h.mem hm hi
  obtain ⟨status, hs, rfl⟩ := updateSubscription_carries hc h.update
  have hstatus : status.getD sub.status = sub.status := by
    cases status
    case none   => rfl
    case some s => exact ha s hs
  have hrows := h.subscriptions
  simp only [hstatus] at hrows
  constructor
  case renewal => exact ⟨_, _, rfl⟩
  case follows => exact hf
  case ordered => exact Int.mul_lt_mul_of_pos_right ho (by decide)
  case current => exact hr
  case mem     => rw [hrows, Rows.mem_modify]; exact ⟨sub, hm, by simp⟩
  case others =>
    intro s hs
    obtain ⟨r, hr, rfl⟩ := Rows.mem_modify.mp (hrows ▸ hs)
    split
    case isTrue  => exact .inl rfl
    case isFalse => exact .inr hr
  case plans  => exact h.plans
  case unused => intro type; rw [h.usageEvents]; exact hu type

-- The answer tells the truth for requests that fit the plan, if the time left is at most a second,
-- or a whole number of seconds up to the precision of the double.
theorem retryable_iff {limit used quantity retryAfter : Nat} (hn : now.InRange)
    (he : subscription.currentPeriodEnd.InRange)
    (hs : getLockedActiveSubscription db o tenant.id = some subscription)
    (hp : db.plan? subscription.planId = some plan)
    (h : checkAndReserve db o tenant eventType requested now =
      .error (.quotaExceeded limit used quantity retryAfter)) :
    Retryable db tenant subscription eventType requested now retryAfter ↔
      requested ≤ plan.limit eventType ∧
        Untruncated (secondsLeft subscription.currentPeriodEnd now) := by
  obtain ⟨ht, hlt, rfl⟩ := checkAndReserve_exceeded hs h
  have hreset := reset_iff hlt hn he
  have hm := mem_activeSubscriptions.mp (Rows.Descending.head_mem hs) |>.left
  constructor
  case mp =>
    intro hr
    obtain ⟨db', renewed, hren⟩ := exists_renewed hm
    exact ⟨hren.admitted_iff hs hp ht hr.reset o |>.mp <| hr.admitted hren o, hreset.mp hr.reset⟩
  case mpr =>
    rintro ⟨hfit, huntruncated⟩
    have hr := hreset.mpr huntruncated
    exact ⟨hr, reset_le hlt hn he, fun hren o' => hren.admitted_iff hs hp ht hr o' |>.mpr hfit⟩

end Retry

-- A new tenant on the plan "free", and what it has used one second later.

def acme : Tenant :=
  ⟨1, "acme", .free, none, .active⟩

def acmeSubscription : Subscription :=
  ⟨1, 1, none, 1, .active, 0, 2592000000000⟩

def signedUp : Database := { Database.migrated Plan.seeds with
  tenants            := [acme]
  subscriptions      := [acmeSubscription]
  nextSubscriptionId := 2 }

def exhausted : Database :=
  (Router.recordUsage signedUp (.stable _) 10 (.aiToken 1 "a" 100000 (by decide)) 1000000 1000000).2

theorem acme_selected : getLockedActiveSubscription exhausted (.stable _) acme.id =
    some acmeSubscription := by
  decide +kernel

theorem acme_plan : exhausted.plan? acmeSubscription.planId = some ⟨1, "free", 1000, 100000⟩ := by
  decide +kernel

-- The next request is refused on a full second.
theorem retryable_exhausted : checkAndReserve exhausted (.stable _) acme .aiToken 1 2000000 =
      .error (.quotaExceeded 100000 100000 1 2591998) ∧
    Retryable exhausted acme acmeSubscription .aiToken 1 2000000 2591998 := by
  have h : checkAndReserve exhausted (.stable _) acme .aiToken 1 2000000 =
      .error (.quotaExceeded 100000 100000 1 2591998) := by decide +kernel
  have hu : Untruncated (secondsLeft acmeSubscription.currentPeriodEnd 2000000) :=
    untruncated_iff (by decide) (by decide) |>.mpr <| .inr (by decide)
  exact ⟨h, retryable_iff (by decide) (by decide) acme_selected acme_plan h |>.mpr ⟨by decide, hu⟩⟩

-- A microsecond later, the answer cuts off the fraction of the last second. A request for more than
-- the plan allows is sent away with a time, too.
theorem not_retryable :
    Router.createTenant (.migrated Plan.seeds) 1 { name := "acme" } 0 = .ok signedUp ∧
    (Router.recordUsage exhausted (.stable _) 11 (.aiToken 1 "b" 1 (by decide)) 2000001 2000001).1 =
      Router.quotaResponse (.quotaExceeded 100000 100000 1 2591997) ∧
    checkAndReserve exhausted (.stable _) acme .aiToken 1 2000001 =
      .error (.quotaExceeded 100000 100000 1 2591997) ∧
    ¬Retryable exhausted acme acmeSubscription .aiToken 1 2000001 2591997 ∧
    checkAndReserve signedUp (.stable _) acme .aiToken 100001 2000000 =
      .error (.quotaExceeded 100000 0 100001 2591998) ∧
    ¬Retryable signedUp acme acmeSubscription .aiToken 100001 2000000 2591998 := by
  refine ⟨rfl, by decide +kernel, by decide +kernel, ?truncated, by decide +kernel, ?oversized⟩
  case truncated => exact fun h => absurd h.reset (by decide)
  case oversized =>
    intro h
    have hs : getLockedActiveSubscription signedUp (.stable _) acme.id = some acmeSubscription :=
      rfl
    have hm : acmeSubscription ∈ signedUp.subscriptions := .head _
    obtain ⟨db', renewed, hr⟩ := exists_renewed hm
    have hfit := hr.admitted_iff hs rfl rfl h.reset (.stable _) |>.mp <| h.admitted hr _
    exact absurd hfit (by decide)
