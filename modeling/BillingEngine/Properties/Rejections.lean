import BillingEngine.Library.Calls
import BillingEngine.Properties.Isolation

open Sessions QuotaEnforcer MeteringEngine

-- A request or a delivery that is handled to its end before the next one.
inductive Call
  | usage (o : OrderBy) (id : Uuid) (request : UsageRequest) (now timestamp : Instant)
  | webhook (event : WebhookEvent) (now : Instant)

namespace Call

abbrev Answer :=
  HttpResponse ⊕ Except PyError WebhookResult

def serve (db : Database) : Call → Answer × Database
  | usage o id request now timestamp =>
    let (response, db') := Router.recordUsage db o id request now timestamp
    (.inl response, db')
  | webhook event now =>
    let (result, db') := StripeWebhookHandler.handleEvent db event now
    (.inr result, db')

end Call

def HttpResponse.Rejected (response : HttpResponse) : Prop :=
  response.statusCode = 402 ∨ response.statusCode = 404 ∨ response.statusCode = 429

-- A usage request which has been rejected.
def Rejected : Call × Call.Answer → Prop
  | (_, .inl response) => response.Rejected
  | (_, .inr _)        => False

-- A rejected request leaves the database as it was.
theorem Router.recordUsage_rejected {db : Database} {o : OrderBy} {id : Uuid}
    {request : UsageRequest} {now timestamp : Instant}
    (h : (recordUsage db o id request now timestamp).1.Rejected) :
    (recordUsage db o id request now timestamp).2 = db := by
  revert h
  unfold recordUsage
  split
  case h_1 => exact fun _ => rfl
  case h_2 =>
    simp only [MeteringEngine.recordUsage]
    split <;> try exact fun _ => rfl
    split <;> try exact fun _ => rfl
    split <;> try exact fun _ => rfl
    split <;> try exact fun _ => rfl
    intro h
    rcases h with h | h | h <;> cases h

theorem Call.serve_rejected (db : Database) (call : Call)
    (h : Rejected (call, (call.serve db).1)) : (call.serve db).2 = db := by
  cases call
  case usage   => exact Router.recordUsage_rejected h
  case webhook => exact absurd h id

namespace Execution

variable {db : Database} {s s₁ s₂ : State} {l : Label} {as : List Label} {R : Uuid → Prop}
  [DecidablePred R]

-- The requests `R` have been rejected.
def State.Rejects (s : State) (R : Uuid → Prop) : Prop :=
  ∀ id, R id → ∃ request response, s.Answered id request response ∧ response.Rejected

-- Rejected requests never write,
theorem rejected_hidden (hst : engine.step s₁ l = some s₂) (hr : engine.Reach s₂ s)
    (hR : s.Rejects R) (hl : l.Of R) : s₂.hide R id = s₁.hide R id := by
  refine Program.step_iff.mp hst |>.hide_hidden hl ?_
  obtain ⟨id, hid, hh⟩ := hl
  obtain ⟨request, response, ha, hrej⟩ := hR id hh
  cases (Step.of_step hst).commits
  case none hd   => exact hd
  case operation => cases hid
  case webhook hs =>
    cases hid
    obtain ⟨_, hs⟩ := webhook_persists hr hs
    cases hs.symm.trans ha
  case usage hs _ =>
    cases hid
    obtain ⟨p, ha', hp⟩ := responds hr (Step.of_step hst |>.commit_responding hs) rfl
    cases ha.symm.trans ha'
    cases hp
    rcases hrej with h | h | h <;> cases h

-- and nobody else waits for them or reads what they do.
theorem rejected_visible (hst : engine.step s₁ l = some s₂) (hl : ¬l.Of R) :
    engine.step (s₁.hide R id) l = some (s₂.hide R id) := by
  refine Program.step_iff.mp hst |>.hide_visible hl ?act ?env
  case act => exact fun _ _ hn => ⟨hn, rfl⟩
  case env =>
    rintro op rfl
    cases Step.of_step hst
    assumption

theorem run_untraced (h : Transition.run engine.step (.boot db) as = some s) (hR : s.Rejects R) :
    Transition.run engine.step (.boot db) (as.filter (¬Label.Of R ·)) = some (s.hide R id) := by
  have hb : (Sessions.State.boot db : State).hide R id = .boot db := by
    simp [Sessions.State.hide, Sessions.State.boot]
  have hv := Transition.run_view (·.hide R id) (Label.Of R)
    (fun _ hst hr => rejected_hidden hst hr hR) (fun _ hst _ => rejected_visible hst) h
  rwa [hb] at hv

-- Rejected requests hold no locks.
theorem rejected_holder (h : engine.Reach (.boot db) s) (hR : s.Rejects R) :
    (s.hide R id).holder = s.holder := by
  funext x
  cases hx : s.holder x
  case none => simp [Sessions.State.hide, hx]
  case some t =>
    have ht : ¬R t := by
      intro ht
      obtain ⟨_, _, ha, _⟩ := hR t ht
      obtain ⟨l, hl, hh⟩ := agrees h x t |>.mp hx
      cases hl.symm.trans ha
      simp [holds, Session.held, Usage.Phase.held] at hh
    simp [Sessions.State.hide, hx, ht]

end Execution

open Execution

-- Rejected requests can be left out of a run of calls one after another, and of any interleaving of
-- requests and deliveries, without a trace.
theorem rejections_untraced (db : Database) :
    (∀ (calls : List Call) (kept : List (Call × Call.Answer)),
      Calls.Drops Rejected (Calls.log (fun db call => call.serve db) db calls) kept →
      Calls.log (fun db call => call.serve db) db (kept.map (·.1)) = kept ∧
      Calls.after (fun db call => call.serve db) db (kept.map (·.1)) =
        Calls.after (fun db call => call.serve db) db calls) ∧
    (∀ (as : List Label) (s : State) (R : Uuid → Prop) [DecidablePred R],
      Transition.run engine.step (.boot db) as = some s → s.Rejects R →
      ∃ s', Transition.run engine.step (.boot db) (as.filter (¬Label.Of R ·)) = some s' ∧
        s'.db = s.db ∧ s'.holder = s.holder ∧ ∀ id, ¬R id → s'.session id = s.session id) := by
  constructor
  case left  => exact fun _ _ h => Calls.log_drops Call.serve_rejected h
  case right =>
    intro as s R _ h hR
    refine ⟨_, run_untraced h hR, rfl, ?_, fun id hid => if_neg hid⟩
    exact rejected_holder (Transition.Reach.of_run h).weaken hR

-- The key of a request which exceeds its quota is used again, after a checkout of the tenant.
theorem rejections_untraced_retry : ∃ (db : Database) (kept : List (Call × Call.Answer))
    (s s' : State),
    Calls.log (fun db call => call.serve db) db (kept.map (·.1)) = kept ∧
    kept.map (·.2.isLeft) = [true, false, true] ∧
    s.Answered 11 (.apiCall 1 "b" (by decide)) (Router.quotaResponse <|
      .quotaExceeded 1 1 1 2591999) ∧
    s.Answered 12 (.apiCall 1 "b" (by decide))
      (Router.usageResult 201 ⟨12, 1, "api_call", 1, 0, "pro", "b"⟩) ∧
    s'.db = s.db ∧ s'.session 12 = s.session 12 := by
  let db : Database := { Database.migrated Plan.seeds with
    plans         := [⟨1, "free", 1, 100⟩, ⟨2, "pro", 10, 1000⟩]
    tenants       := [⟨1, "acme", .free, some "cus", .active⟩]
    subscriptions := [⟨1, 1, none, 1, .active, 0, 2592000000000⟩]
    nextSubscriptionId := 2 }
  let calls : List Call := [
    .usage (.stable _) 10 (.apiCall 1 "a" (by decide)) 1 1,
    .usage (.stable _) 11 (.apiCall 1 "b" (by decide)) 3 3,
    .webhook (.checkout "evt" "cus" "sub") 4,
    .usage (.stable _) 12 (.apiCall 1 "b" (by decide)) 5 5]
  let as := checkLabels 10 (.apiCall 1 "a" (by decide)) (.stable _) 1 ++ commitLabels 10 1 ++
    checkLabels 11 (.apiCall 1 "b" (by decide)) (.stable _) 3 ++
    deliveryLabels 20 (.checkout "evt" "cus" "sub") 4 ++
    checkLabels 12 (.apiCall 1 "b" (by decide)) (.stable _) 5 ++ commitLabels 12 5 ++
    [.act 11 <| .usage .rollback]
  have hcalls : Calls.Drops Rejected (Calls.log (fun db call => call.serve db) db calls) _ :=
    .keep <| .drop (.inr <| .inr <| by decide +kernel) <| .keep <| .keep .nil
  have h : Transition.run engine.step (.boot db) as |>.isSome := by decide +kernel
  obtain ⟨hseq, hrun⟩ := rejections_untraced db
  obtain ⟨hlog, _⟩ := hseq calls _ hcalls
  let s : State := (Transition.run engine.step (.boot db) as).get h
  have hanswered : s.Answered 11 (.apiCall 1 "b" (by decide)) (Router.quotaResponse <|
      .quotaExceeded 1 1 1 2591999) := by
    have hretry : retryAfterSeconds 2592000000000 3 = 2591999 := by decide +kernel
    have hraised (r : Nat) : quotaExceededError 1 1 1 r = .quotaExceeded 1 1 1 r := rfl
    rw [← hretry, ← hraised]
    rfl
  obtain ⟨s', _, hdb, _, hsession⟩ := hrun as s (· = 11) (Option.some_get h).symm <| by
    rintro _ rfl
    exact ⟨_, _, hanswered, .inr <| .inr rfl⟩
  exact ⟨db, _, s, s', hlog, rfl, hanswered, rfl, hdb, hsession 12 (by decide)⟩
