import BillingEngine.Execution.Theorems.Deliveries
import BillingEngine.Properties.Api
import BillingEngine.Properties.Rejections

open Sessions StripeWebhookHandler

namespace Execution

variable {db : Database} {s s₁ s₂ : State} {l : Label} {as : List Label} {R : Uuid → Prop}
  [DecidablePred R]

-- The session has not committed its transaction in the run `as` to `s`, whether it has crashed, has
-- failed, was refused, has found its key or event processed, or is still in progress.
structure Uncommitted (as : List Label) (s : State) (id : Uuid) : Prop where
  usage   : .act id (.usage .commit) ∉ as
  webhook : .act id (.webhook .commit) ∉ as
  -- The `INSERT` of a checkout, which follows on the flush of the tenant, draws an id from a
  -- sequence before it waits for the key, and a rollback does not give it back.
  drawn   : ∀ {event p}, s.session id = some (.webhook event p) →
    dispatch event.type = some .checkoutCompleted → .act id (.webhook .flushTenant) ∉ as

-- A step writes nothing, or it is the commit of its session.
theorem uncommitted_hidden (hm : l ∈ as) (hst : engine.step s₁ l = some s₂)
    (hR : ∀ id, R id → Uncommitted as s id) (hl : l.Of R) : s₂.hide R id = s₁.hide R id := by
  refine Program.step_iff.mp hst |>.hide_hidden hl ?_
  obtain ⟨id, hid, hh⟩ := hl
  cases (Step.of_step hst).commits
  case none hd   => exact hd
  case operation => cases hid
  case usage     => cases hid; exact absurd hm (hR id hh).usage
  case webhook   => cases hid; exact absurd hm (hR id hh).webhook

theorem run_uncommitted (h : Transition.run engine.step (.boot db) as = some s)
    (hR : ∀ id, R id → Uncommitted as s id) :
    Transition.run engine.step (.boot db) (as.filter (¬Label.Of R ·)) = some (s.hide R id) := by
  have hb : (Sessions.State.boot db : State).hide R id = .boot db := by
    simp [Sessions.State.hide, Sessions.State.boot]
  have hin : ∀ l ∈ as, ∀ _ : State, l ∈ as := fun _ hm _ => hm
  have hv := Transition.run_view_all (·.hide R id) (Label.Of R) hin
    (fun _ hm hst _ => uncommitted_hidden hm hst hR) (fun _ _ hst _ => rejected_visible hst) h
  rwa [hb] at hv

-- What has not been committed leaves no trace: not in a sequence of calls to the application, which
-- may be reads, replays, duplicates or fail, and not in any interleaving of requests and
-- deliveries, which may stop or crash between any two statements. An error is only given without a
-- commit.
theorem uncommitted_untraced (constructEvent : Router.ConstructEvent) (secret : String)
    (db : Database) :
    (∀ answer : Api.Answer, 400 ≤ answer.statusCode → ¬answer.Committed) ∧
    (∀ (calls : List Api.Call) (kept : List (Api.Call × Api.Answer)),
      Calls.Drops (Api.Uncommitted constructEvent secret)
        (Calls.log (Api.serve constructEvent secret) db calls) kept →
      Calls.log (Api.serve constructEvent secret) db (kept.map (·.1)) = kept ∧
      Calls.after (Api.serve constructEvent secret) db (kept.map (·.1)) =
        Calls.after (Api.serve constructEvent secret) db calls) ∧
    (∀ (as : List Label) (s : State) (R : Uuid → Prop) [DecidablePred R],
      Transition.run engine.step (.boot db) as = some s → (∀ id, R id → Uncommitted as s id) →
      ∃ s' : State, Transition.run engine.step (.boot db) (as.filter (¬Label.Of R ·)) = some s' ∧
        s'.db = s.db ∧ (∀ x, s'.holder x = (s.holder x).filter (¬R ·)) ∧
        ∀ id, ¬R id → s'.session id = s.session id) := by
  refine ⟨fun _ => Api.Answer.not_committed, ?calls, ?run⟩
  case calls =>
    exact fun _ _ h => Calls.log_drops (fun _ _ hu => Api.serve_uncommitted hu.answer) h
  case run   =>
    intro as s R _ h hR
    exact ⟨_, run_uncommitted h hR, rfl, fun _ => rfl, fun _ hid => if_neg hid⟩

-- The request with the id 10 crashes with its row and its key locked.
theorem uncommitted_untraced_crash : ∃ s s' : State,
    s.session 10 = some (.usage (.apiCall 1 "a" (by decide)) .crashed) ∧
    s.db.usageEvents.map (·.id) = [11] ∧
    Transition.run engine.step (.boot <| .migrated Plan.seeds)
      (.env (.createTenant 1 { name := "acme" } 0) ::
        (checkLabels 11 (.apiCall 1 "a" (by decide)) (.stable _) 3 ++
        commitLabels 11 4)) = some s' ∧
    s'.db = s.db := by
  let as := .env (.createTenant 1 { name := "acme" } 0) ::
    (checkLabels 10 (.apiCall 1 "a" (by decide)) (.stable _) 1 ++
    [.insertEvent 2, .crash].map (.act 10 <| .usage ·) ++
    (checkLabels 11 (.apiCall 1 "a" (by decide)) (.stable _) 3 ++ commitLabels 11 4))
  have h : Transition.run engine.step (.boot <| .migrated Plan.seeds) as |>.isSome := rfl
  have ⟨_, _, hu⟩ := uncommitted_untraced (fun _ _ _ => .error "No signatures found") "whsec_1"
    (.migrated Plan.seeds)
  have ⟨s', hrun, hdb, _⟩ := hu as _ (· = 10) (Option.some_get h).symm <| by
    rintro _ rfl
    constructor
    case drawn => exact fun hs => by cases hs
    all_goals simp [as, checkLabels, commitLabels]
  exact ⟨_, s', rfl, rfl, hrun, hdb⟩

end Execution
