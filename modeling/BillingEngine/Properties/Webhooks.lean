import BillingEngine.Execution.Serial
import BillingEngine.Execution.Theorems.Deliveries

open Sessions StripeWebhookHandler

-- The deliveries that have not been applied, whether they are duplicates, have raised, or are still
-- in progress.
def Session.dropped : Session → Bool
  | webhook _ (.answered <| .duplicateIgnored _) => true
  | webhook _ (.answered _)                      => false
  | webhook _ _                                  => true
  | usage _ _                                    => false

namespace Execution

variable {db : Database} {s s' s₁ s₂ : State} {l : Label} {as : List Label} {id id' : Uuid}
  {event event' : WebhookEvent} {p : Webhook.Phase} {eventId : String}

def State.Dropped (s : State) (id : Uuid) : Prop :=
  s.session id |>.any Session.dropped

instance {s : State} : DecidablePred s.Dropped :=
  fun _ => inferInstanceAs <| Decidable (_ = true)

theorem State.dropped_iff : s.Dropped id ↔
    ∃ event p, s.session id = some (.webhook event p) ∧ ¬s.Applied id event := by
  unfold Dropped Applied
  cases hs : s.session id
  case none => simp
  case some session =>
    unfold Session.dropped
    simp only [Option.any_some]
    split <;> simp_all

-- A delivery which is not applied in the end does not write.
theorem dropped_unchanged (h : engine.Reach (.boot db) s₁) (hst : engine.step s₁ l = some s₂)
    (hr : engine.Reach s₂ s) (hl : l.session? = some id) (hd : s.Dropped id) : s₂.db = s₁.db := by
  have ⟨event, p, hs, hna⟩ := State.dropped_iff.mp hd
  have hr₁ : engine.Reach s₁ s := .trans (.single trivial hst) hr
  replace hst := Step.of_step hst
  cases hst.commits
  case none hd      => exact hd
  case operation    => cases hl
  case usage hs' _ =>
    cases hl
    have ⟨session, hs', hi⟩ := persists hr₁ hs'
    cases hs.symm.trans hs'
    cases hi
  case webhook event' m pt w r hs' _ _ =>
    cases hl
    have ⟨result, ha, hn⟩ := hst.commit_applied (delivery_locals h hs') hs' |>.left
    have ha := finished_eq hr ha rfl
    cases hs.symm.trans ha
    exact absurd ⟨result, hs, hn⟩ hna

theorem run_dropped (h : Transition.run engine.step (.boot db) as = some s) :
    Transition.run engine.step (.boot db) (as.filter (¬Label.Of s.Dropped ·)) =
      some (s.hide s.Dropped fun db => db) := by
  have hb : (Sessions.State.boot db : State).hide s.Dropped (fun db => db) = .boot db := by
    simp [Sessions.State.hide, Sessions.State.boot]
  have hv := Transition.run_view (Sessions.State.hide s.Dropped fun db => db) (Label.Of s.Dropped)
    ?hid ?vis h
  case hid =>
    rintro s₁ l s₂ h₁ hst hr ⟨id, hl, hd⟩
    exact Program.step_iff.mp hst |>.hide_hidden ⟨id, hl, hd⟩ <| dropped_unchanged h₁ hst hr hl hd
  case vis =>
    intro s₁ l s₂ _ hst _ hl
    refine Program.step_iff.mp hst |>.hide_visible hl (fun _ _ hn => ⟨hn, rfl⟩) ?_
    rintro op rfl
    cases Step.of_step hst
    assumption
  rwa [hb] at hv

-- The deliveries in the run `as` from `db` to `s`.
structure Deduplicated (db : Database) (as : List Label) (s : State) : Prop where
  processed : ∀ {eventId}, ¬db.Processed eventId →
    (s.db.Processed eventId ↔ ∃! id, ∃ event, s.Applied id event ∧ event.id = eventId)
  -- The state is the one of the run with the applied deliveries only.
  dropped : Transition.run engine.step (.boot db) (as.filter (¬Label.Of s.Dropped ·)) =
    some (s.hide s.Dropped fun db => db)
  unchanged : ∀ {id s₁ l s₂}, s.Dropped id → engine.Reach (.boot db) s₁ →
    engine.step s₁ l = some s₂ → engine.Reach s₂ s → l.session? = some id → s₂.db = s₁.db
  finished : ∀ {id event p}, s.session id = some (.webhook event p) → p.finished →
    s.Applied id event ∨ p = .answered (.duplicateIgnored event.id) ∨ ∃ e, p = .raised e
  -- An exception rolls the marker back, after which a redelivery is not a duplicate.
  rolledBack : ∀ {id event held e}, s.session id = some (.webhook event <| .failing held e) →
    ∃ s', engine.step s (.act id <| .webhook .rollback) = some s' ∧ s'.db = s.db ∧
      s'.session id = some (.webhook event <| .raised e) ∧
      (.webhookId event.id ∈ held → ¬s'.db.Processed event.id ∧
        s'.holder (.webhookId event.id) = none)
  redelivered : ∀ {id event m}, s.session id = some (.webhook event .received) →
    marker event = .ok m → ¬s.db.Processed event.id → s.holder (.webhookId event.id) = none →
    ∃ s', engine.step s (.act id <| .webhook .insertMarker) = some s' ∧
      s'.session id = some (.webhook event <| .marked m)

end Execution
